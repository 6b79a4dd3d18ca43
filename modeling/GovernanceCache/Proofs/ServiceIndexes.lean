import GovernanceCache.Proofs.BucketLaws
import GovernanceCache.Proofs.SessionContents
import GovernanceCache.Services
import Mathlib

/-!
# Services are found

Whatever batches a replica of the services takes in, its index leads to its services: by namespace
to all of them, and by name to none but a service of that name. If no two services shared a name
after any batch, it leads by name to every service.

1. A change gives the key its new name and takes away every other one (`followName_getElem?`).
2. While a batch is merged two services may hold one name. Then the name leads to one that the batch
   is done with (`Reaches`), which is the only one once no two share a name (`Reaches.exact`).

Mathlib is imported whole for the equations by which `cbv` evaluates the run at the end.
-/

namespace GovernanceCache

namespace Services

/-! ## The order of services -/

theorem before_iff {a b : Service} :
    before a b = true ↔
      a.namespaceName < b.namespaceName ∨ a.namespaceName = b.namespaceName ∧ a.name ≤ b.name := by
  show ((compare a.namespaceName b.namespaceName).then (compare a.name b.name)).isLE = true ↔ _
  have hle : (compare a.name b.name).isLE = true ↔ a.name ≤ b.name :=
    Ordering.isLE_iff_ne_gt.trans compare_le_iff_le
  rw [Ordering.isLE_then_iff_or, compare_lt_iff_lt, compare_eq_iff_eq, hle]

theorem before_total (a b : Service) : (before a b || before b a) = true := by
  have hswap : compare b.qualifiedName a.qualifiedName =
    (compare a.qualifiedName b.qualifiedName).swap := Std.OrientedOrd.eq_swap
  unfold before
  rw [hswap]
  cases compare a.qualifiedName b.qualifiedName <;> rfl

theorem sort_ordered (services : List Service) :
    (sort services).Pairwise fun a b => a.namespaceName < b.namespaceName ∨
      a.namespaceName = b.namespaceName ∧ a.name ≤ b.name := by
  have h : (sort services).Pairwise fun a b => before a b = true :=
    List.pairwise_mergeSort (fun _ _ _ => Std.TransCmp.isLE_trans) before_total services
  exact h.imp before_iff.mp

theorem mem_sort {services : List Service} {r : Service} : r ∈ sort services ↔ r ∈ services :=
  List.mem_mergeSort

theorem sort_nodup {services : List Service} : (sort services).Nodup ↔ services.Nodup :=
  (List.mergeSort_perm services before).nodup_iff

end Services

namespace ServiceIndex

variable {entries : Std.ExtTreeMap String Service} {names : Std.ExtTreeMap QualifiedName String}
  {index : ServiceIndex} {c : Change Service} {changes : List (Change Service)}
  {done : List String} {q : QualifiedName}

/-- Every name leads to the key of a service that has it. -/
def Leads (entries : Std.ExtTreeMap String Service)
    (names : Std.ExtTreeMap QualifiedName String) : Prop :=
  ∀ (q : QualifiedName) (id : String), names[q]? = some id →
    entries[id]?.map Service.qualifiedName = some q

/-- The name of every service leads to it, or else to one that is done. -/
def Reaches (done : List String) (entries : Std.ExtTreeMap String Service)
    (names : Std.ExtTreeMap QualifiedName String) : Prop :=
  ∀ (id : String) (r : Service), entries[id]? = some r →
    ∃ other, names[r.qualifiedName]? = some other ∧ (other = id ∨ other ∈ done)

theorem releaseName_getElem? (names : Std.ExtTreeMap QualifiedName String) (old new : Service)
    (q : QualifiedName) :
    (releaseName names old new)[q]? =
      if old.qualifiedName = q ∧ names[q]? = some old.id ∧
        ¬ (new.valid = true ∧ new.qualifiedName = q) then none
      else names[q]? := by
  unfold releaseName
  by_cases hq : old.qualifiedName = q
  · subst hq
    split
    · simp_all
    · split
      · simp_all
      · simp_all
  · split
    · simp [hq]
    · split
      · rw [getElem?_erase_eq]
        simp [hq]
      · simp [hq]

/-- The names without the one that a change takes from its key. -/
def vacateName (names : Std.ExtTreeMap QualifiedName String) (c : Change Service) :
    Std.ExtTreeMap QualifiedName String :=
  match c.old with
  | some old => releaseName names old c.new
  | none => names

theorem vacateName_getElem? (hl : Live entries) (h : Leads entries names) (hc : c.Fits entries)
    (q : QualifiedName) :
    (vacateName names c)[q]? =
      if names[q]? = some c.key ∧ ¬ (c.new.valid = true ∧ c.new.qualifiedName = q) then none
      else names[q]? := by
  have hentry := hc.old_eq
  unfold vacateName
  split
  · rename_i old hold
    rw [hold] at hentry
    have hkey : old.id = c.key := hl.keyed _ _ hentry.symm
    have hname : names[q]? = some c.key → old.qualifiedName = q := by
      intro hq
      have := h q _ hq
      rw [← hentry] at this
      exact Option.some.inj this
    rw [releaseName_getElem?, hkey]
    by_cases hq : names[q]? = some c.key
    · simp [hq, hname hq]
    · simp [hq]
  · rename_i hold
    rw [hold] at hentry
    -- nothing was under the key, so that no name led to it
    have hne : names[q]? ≠ some c.key := by
      intro hq
      have := h q _ hq
      rw [← hentry] at this
      cases this
    rw [if_neg fun hq => hne hq.1]

/-- A change gives the key its new name, and takes away every other name that it had. -/
theorem followName_getElem? (hl : Live entries) (h : Leads entries names) (hc : c.Fits entries)
    (q : QualifiedName) :
    (followName names c)[q]? =
      if c.new.valid = true ∧ c.new.qualifiedName = q then some c.key
      else if names[q]? = some c.key then none else names[q]? := by
  have heq : followName names c =
      if c.new.valid then (vacateName names c).insert c.new.qualifiedName c.key
      else vacateName names c := rfl
  have hvacate := vacateName_getElem? hl h hc q
  rw [heq]
  by_cases hnew : c.new.valid = true ∧ c.new.qualifiedName = q
  · rw [if_pos hnew, if_pos hnew.1, getElem?_insert_eq, if_pos hnew.2]
  · simp only [hnew, not_false_eq_true, and_true] at hvacate
    rw [if_neg hnew, ← hvacate]
    split
    · rename_i hv
      rw [getElem?_insert_eq, if_neg fun hq => hnew ⟨hv, hq⟩]
    · rfl

theorem Leads.follow (hl : Live entries) (h : Leads entries names) (hc : c.Fits entries) :
    Leads (c.replay entries) (followName names c) := by
  intro q id hid
  rw [followName_getElem? hl h hc] at hid
  rw [replay_getElem? hc]
  split at hid
  · rename_i hnew
    have hv : Record.valid c.new = true := hnew.1
    rw [if_pos (Option.some.inj hid), Option.filter_some, if_pos hv, Option.map_some, hnew.2]
  · split at hid
    · cases hid
    · rename_i hne
      have hkey : c.key ≠ id := fun heq => hne (by rw [heq, hid])
      rw [if_neg hkey]
      exact h q id hid

theorem Reaches.follow (hl : Live entries) (hleads : Leads entries names)
    (h : Reaches done entries names) (hc : c.Fits entries) (hnew : c.key ∉ done) :
    Reaches (c.key :: done) (c.replay entries) (followName names c) := by
  intro id r hr
  rw [replay_getElem? hc] at hr
  rw [followName_getElem? hl hleads hc]
  split at hr
  · rename_i hkey
    obtain ⟨heq, hv⟩ := Option.filter_eq_some_iff.mp hr
    obtain rfl := Option.some.inj heq
    exact ⟨c.key, if_pos ⟨hv, rfl⟩, Or.inl hkey⟩
  · rename_i hkey
    obtain ⟨other, hother, hwhere⟩ := h id r hr
    -- the name led to another key than the one that changes
    have hne : other ≠ c.key := by
      rcases hwhere with rfl | hdone
      · exact Ne.symm hkey
      · exact fun heq => hnew (heq ▸ hdone)
    split
    · exact ⟨c.key, rfl, Or.inr List.mem_cons_self⟩
    · refine ⟨other, ?_, hwhere.imp_right (List.mem_cons_of_mem _)⟩
      rw [hother, if_neg fun heq => hne (Option.some.inj heq)]

theorem Reaches.followAll (hl : Live entries) (hleads : Leads entries index.byName)
    (h : Reaches done entries index.byName) (hf : Fitting entries changes)
    (hd : changes.Pairwise fun a b => a.key ≠ b.key) (hnew : ∀ c ∈ changes, c.key ∉ done) :
    ∃ done, Reaches done (replayAll entries changes) (Index.observeAll index changes).byName := by
  induction changes generalizing entries index done with
  | nil => exact ⟨done, h⟩
  | cons c rest ih =>
    obtain ⟨hc, hd⟩ := List.pairwise_cons.mp hd
    have hstep : Reaches (c.key :: done) (c.replay entries) (Index.observe index c).byName :=
      h.follow hl hleads hf.1 (hnew c List.mem_cons_self)
    refine ih (hl.replay hf.1) (hleads.follow hl hf.1) hstep hf.2 hd ?_
    intro c' hc' hmem
    rcases List.mem_cons.mp hmem with heq | hmem
    · exact hc c' hc' heq.symm
    · exact hnew c' (List.mem_cons_of_mem _ hc') hmem

theorem Reaches.exact (hl : Live entries) (hleads : Leads entries names)
    (h : Reaches done entries names) (hu : (entries.values.map Service.qualifiedName).Nodup) :
    Reaches [] entries names := by
  intro id r hr
  obtain ⟨other, hother, -⟩ := h id r hr
  refine ⟨other, hother, Or.inl ?_⟩
  obtain ⟨holder, hholder, hname⟩ := Option.map_eq_some_iff.mp (hleads _ _ hother)
  have hsame : holder = r := List.inj_on_of_nodup_map hu (hl.keyed.mem_of_getElem? hholder)
    (hl.keyed.mem_of_getElem? hr) hname
  rw [← hl.keyed other holder hholder, hsame, hl.keyed id r hr]

/-- The index agrees with the entries. -/
structure Agrees (entries : Std.ExtTreeMap String Service) (index : ServiceIndex) : Prop where
  sorts : index.byNamespace.Sorts Service.namespaceName entries
  leads : Leads entries index.byName

theorem tracks : Index.Tracks Agrees where
  empty := ⟨.empty, fun q id hid => by simp [Index.empty] at hid⟩
  observe hl h hc := ⟨h.sorts.follow hl hc, h.leads.follow hl hc⟩

end ServiceIndex

namespace Services

variable {m : Services} {r : Service} {q : QualifiedName}

/-- The index leads to the services. -/
structure Found (m : Services) : Prop where
  live : ∀ r ∈ m.list, r.valid = true
  whole : ∀ (namespaceName : String) (r : Service),
    r ∈ (m.ofNamespace namespaceName).2 ↔ r ∈ m.list ∧ r.namespaceName = namespaceName
  once : ∀ namespaceName, (m.ofNamespace namespaceName).2.Nodup
  ordered : ∀ namespaceName, (m.ofNamespace namespaceName).2.Pairwise fun a b => a.name ≤ b.name
  noneEmpty : m.index.byNamespace.NoneEmpty
  leads : ∀ (q : QualifiedName) (id : String), m.index.byName[q]? = some id →
    ∃ r ∈ m.list, r.id = id ∧ r.qualifiedName = q

theorem mem_list (hl : Live m.entries) : r ∈ m.list ↔ m.entries[r.id]? = some r :=
  hl.keyed.mem_values

theorem mem_ofNamespace (hl : Live m.entries)
    (h : m.index.byNamespace.Sorts Service.namespaceName m.entries) {namespaceName : String} :
    r ∈ (m.ofNamespace namespaceName).2 ↔ r ∈ m.list ∧ r.namespaceName = namespaceName := by
  show r ∈ sort ((m.getAll (m.index.byNamespace.members namespaceName)).2.filter _) ↔ _
  rw [mem_sort, List.mem_filter, h.mem_getAll hl]
  simp

theorem Found.of_agrees (hl : Live m.entries) (h : ServiceIndex.Agrees m.entries m.index) :
    m.Found where
  live r hr := hl.of_mem hr
  whole namespaceName r := mem_ofNamespace hl h.sorts
  once namespaceName := by
    have hnodup : (m.getAll (m.index.byNamespace.members namespaceName)).2.Nodup := by
      refine (Replica.getAll_ordered hl.keyed (Buckets.members_ordered _ _)).imp ?_
      rintro a _ hlt rfl
      exact lt_irrefl _ hlt
    exact sort_nodup.mpr (hnodup.filter _)
  ordered namespaceName := by
    refine (sort_ordered _).imp_of_mem ?_
    intro a b ha hb hab
    have ha := ((mem_ofNamespace hl h.sorts).mp ha).2
    have hb := ((mem_ofNamespace hl h.sorts).mp hb).2
    rcases hab with hlt | ⟨-, hle⟩
    · rw [ha, hb] at hlt
      exact absurd hlt (lt_irrefl _)
    · exact hle
  noneEmpty := h.sorts.noneEmpty
  leads q id hid := by
    obtain ⟨r, hr, hq⟩ := Option.map_eq_some_iff.mp (h.leads q id hid)
    exact ⟨r, hl.keyed.mem_of_getElem? hr, hl.keyed id r hr, hq⟩

theorem named?_eq (m : Services) (q : QualifiedName) :
    (m.named? q).2 = (m.index.byName[q]?.bind fun id => m.entries[id]?).filter
      fun r => r.qualifiedName == q := by
  unfold named?
  split
  · rename_i hnone
    rw [hnone]
    rfl
  · rename_i id hid
    rw [hid]
    rfl

theorem named?_eq_some (hl : Live m.entries)
    (h : ServiceIndex.Reaches [] m.entries m.index.byName) :
    (m.named? q).2 = some r ↔ r ∈ m.list ∧ r.qualifiedName = q := by
  rw [named?_eq, mem_list hl, Option.filter_eq_some_iff, beq_iff_eq, and_congr_left_iff]
  rintro rfl
  constructor
  · intro hr
    obtain ⟨id, -, hr⟩ := Option.bind_eq_some_iff.mp hr
    have hid : r.id = id := hl.keyed id r hr
    rw [hid, hr]
  · intro hr
    obtain ⟨other, hother, rfl | hdone⟩ := h r.id r hr
    · rw [hother]
      exact hr
    · cases hdone

theorem reaches_takesIn {m' : Services} {batch : List Service} (hl : Live m.entries)
    (h : ServiceIndex.Agrees m.entries m.index)
    (hreach : ServiceIndex.Reaches [] m.entries m.index.byName) (ht : m.TakesIn batch m')
    (hu : (m'.entries.values.map Service.qualifiedName).Nodup) :
    ServiceIndex.Reaches [] m'.entries m'.index.byName := by
  obtain ⟨hl', h'⟩ := ServiceIndex.tracks.takesIn hl h ht
  obtain ⟨hfit, hent, hdist⟩ := merge_replays m.entries batch
  obtain ⟨done, hdone⟩ := hreach.followAll hl h.leads hfit hdist fun c _ => List.not_mem_nil
  rw [hent, ← ht.entries, ← ht.index] at hdone
  exact hdone.exact hl' h'.leads hu

end Services

namespace Desk.Session

/-- No two services shared a name after any batch. -/
def NamesApart (s : Session Service ServiceIndex) : Prop :=
  ∀ entries ∈ s.merges, (entries.values.map Service.qualifiedName).Nodup

theorem NamesApart.of_log {s s' : Session Service ServiceIndex} (h : s.log ⊆ s'.log)
    (hs' : s'.NamesApart) : s.NamesApart := fun entries hmem => hs' entries (merges_subset h hmem)

theorem NamesApart.of_names {s : Session Service ServiceIndex} (names : List (List QualifiedName))
    (h : s.merges.map (fun entries => entries.values.map Service.qualifiedName) = names)
    (hnodup : ∀ held ∈ names, held.Nodup) : s.NamesApart := by
  intro entries hmem
  refine hnodup _ ?_
  rw [← h]
  exact List.mem_map_of_mem hmem

theorem run_reaches (kind : CacheKind) (skew : Span) (buffer : Nat) (now : Instant)
    (actions : List (Action Service)) :
    let s := (start kind skew buffer now : Session Service ServiceIndex).run actions
    s.NamesApart → ServiceIndex.Reaches [] s.refresher.replica.entries
      s.refresher.replica.index.byName := by
  have htracks := ServiceIndex.tracks
  have hempty : ServiceIndex.Reaches [] ∅ (Index.empty Service : ServiceIndex).byName :=
    fun id r hr => by simp at hr
  refine (run_induction (P := fun s : Session Service ServiceIndex =>
    (Live s.refresher.replica.entries ∧
      ServiceIndex.Agrees s.refresher.replica.entries s.refresher.replica.index) ∧
    (s.NamesApart → ServiceIndex.Reaches [] s.refresher.replica.entries
      s.refresher.replica.index.byName))
    ?_ ?_ ?_ ⟨⟨.empty, htracks.empty⟩, fun _ => hempty⟩ actions).2
  · intro s s' hs hlog hp
    rw [hs.entries, hs.index]
    exact ⟨hp.1, fun hapart => hp.2 (hapart.of_log hlog)⟩
  · intro s s' call batch ht hlog hmem ⟨⟨hl, h⟩, hreach⟩
    refine ⟨htracks.takesIn hl h ht, fun hapart => ?_⟩
    refine Services.reaches_takesIn hl h (hreach (hapart.of_log hlog)) ht ?_
    rw [ht.entries]
    exact hapart _ (mem_merges hmem)
  · exact fun s _ => ⟨⟨.empty, htracks.empty⟩, fun _ => hempty⟩

/-- **Services are found.** In every session the index leads to the services; by name it leads to
every one of them if no two shared a name after any batch. -/
theorem run_found (kind : CacheKind) (skew : Span) (buffer : Nat) (now : Instant)
    (actions : List (Action Service)) :
    let s := (start kind skew buffer now : Session Service ServiceIndex).run actions
    let m : Services := s.refresher.replica
    m.Found ∧ (s.NamesApart → ∀ (q : QualifiedName) (r : Service),
      (m.named? q).2 = some r ↔ r ∈ m.list ∧ r.qualifiedName = q) := by
  intro s m
  obtain ⟨hl, h⟩ := ServiceIndex.tracks.run kind skew buffer now actions
  refine ⟨.of_agrees hl h, ?_⟩
  intro hapart q r
  exact Services.named?_eq_some hl (run_reaches kind skew buffer now actions hapart)

/-- Two services swap their names within one batch, and a name leads to the one that took it. -/
theorem swapped_names_found :
    let service (id name : String) (modified : Instant) : Service :=
      { id, name, namespaceName := "shop", modified }
    let one : Instant := ⟨1, 0, by decide, by decide, by decide⟩
    let two : Instant := ⟨2, 0, by decide, by decide, by decide⟩
    let actions : List (Action Service) :=
      [.enter ⟨"reader", false, false⟩,
        .answer 0 (.ok [service "a" "cart" one, service "b" "till" one]), .poll 0,
        .enter ⟨"reader", false, false⟩,
        .answer 0 (.ok [service "a" "till" two, service "b" "cart" two]), .poll 0]
    let s := (start .services (.seconds (-2)) 4 .epoch : Session Service ServiceIndex).run actions
    s.NamesApart ∧
      (Services.named? s.refresher.replica ⟨"shop", "cart"⟩).2 = some (service "b" "cart" two) := by
  intro service one two actions
  have hlist : ((start .services (.seconds (-2)) 4 .epoch : Session Service ServiceIndex).run
      actions).refresher.replica.list = [service "a" "till" two, service "b" "cart" two] := by
    cbv
  have hapart : ((start .services (.seconds (-2)) 4 .epoch : Session Service ServiceIndex).run
      actions).NamesApart := by
    refine .of_names [[⟨"shop", "till"⟩, ⟨"shop", "cart"⟩],
      [⟨"shop", "cart"⟩, ⟨"shop", "till"⟩]] ?_ (by decide)
    cbv
  have hnamed := (run_found .services (.seconds (-2)) 4 .epoch actions).2 hapart ⟨"shop", "cart"⟩
    (service "b" "cart" two)
  rw [hlist] at hnamed
  exact ⟨hapart, hnamed.mpr ⟨by simp, rfl⟩⟩

end Desk.Session

end GovernanceCache
