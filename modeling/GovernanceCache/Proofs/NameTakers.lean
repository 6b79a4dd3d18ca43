import GovernanceCache.Proofs.ServiceIndexes
import Mathlib.Data.List.Induction

/-!
# The last one to take a name

Nothing keeps two services from holding one name for some time. A name then leads to the last
service that took it, and to none once that one has given it up, even if another service holds the
name still.

1. The changes since the last clear make the entries and the index out of nothing
   (`Desk.Session.run_recounts`).
2. Of all the services that took a name in these changes only the last one counts
   (`byName_getElem?`).
-/

namespace GovernanceCache

variable {R ι : Type} [Record R] [Index R ι]

/-! ## Sessions retold by their changes -/

/-- The changes, observed from nothing on, make the entries and the index. -/
structure Recounts (changes : List (Change R)) (entries : Std.ExtTreeMap String R) (index : ι) :
    Prop where
  fitting : Fitting ∅ changes
  entries : replayAll ∅ changes = entries
  index : Index.observeAll (Index.empty R) changes = index

theorem Recounts.nil : Recounts ([] : List (Change R)) ∅ (Index.empty R : ι) :=
  ⟨trivial, rfl, rfl⟩

theorem Recounts.append {changes later : List (Change R)} {entries : Std.ExtTreeMap String R}
    {index : ι} (h : Recounts changes entries index) (hl : Fitting entries later) :
    Recounts (changes ++ later) (replayAll entries later) (Index.observeAll index later) where
  fitting := fitting_append.mpr ⟨h.fitting, h.entries.symm ▸ hl⟩
  entries := by rw [replayAll_append, h.entries]
  index := by rw [Index.observeAll, List.foldl_append, ← h.index]; rfl

namespace Desk.Session

variable {s : Session R ι} {told : List (Change R)}

/-- The changes since the last clear, after one more step. -/
def retell (s : Session R ι) (told : List (Change R)) : Action R → List (Change R)
  | .clear => []
  | action =>
    match s.batch? action with
    | some batch => told ++ (merge s.refresher.replica.entries batch).changes
    | none => told

/-- The changes since the last clear, after the steps. -/
def retold (s : Session R ι) (told : List (Change R)) : List (Action R) → List (Change R)
  | [] => told
  | action :: rest => (s.act action).retold (s.retell told action) rest

theorem act_recounts
    (h : Recounts told s.refresher.replica.entries s.refresher.replica.index) (action : Action R) :
    Recounts (s.retell told action) (s.act action).refresher.replica.entries
      (s.act action).refresher.replica.index := by
  by_cases hclear : action = .clear
  · subst hclear
    exact Recounts.nil
  · rcases hb : s.batch? action with _ | batch
    · have hsame : s.retell told action = told := by
        unfold retell
        split
        · exact absurd rfl hclear
        · rw [hb]
      have hsteady := act_steady hb hclear
      rw [hsame, hsteady.entries, hsteady.index]
      exact h
    · have hmore : s.retell told action =
          told ++ (merge s.refresher.replica.entries batch).changes := by
        unfold retell
        split
        · exact absurd rfl hclear
        · rw [hb]
      obtain ⟨hfit, hent, -⟩ := merge_replays s.refresher.replica.entries batch
      have htakes := (act_of_batch hb).1
      rw [hmore, htakes.entries, htakes.index, ← hent]
      exact h.append hfit

/-- **Sessions retold.** The changes since the last clear make the entries and the index. -/
theorem run_recounts (h : Recounts told s.refresher.replica.entries s.refresher.replica.index)
    (actions : List (Action R)) :
    Recounts (s.retold told actions) (s.run actions).refresher.replica.entries
      (s.run actions).refresher.replica.index := by
  induction actions generalizing s told with
  | nil => exact h
  | cons action rest ih => exact ih (act_recounts h action)

end Desk.Session

/-! ## Who took a name -/

namespace ServiceIndex

variable {changes : List (Change Service)} {c : Change Service} {q : QualifiedName} {id : String}
  {r : Service}

/-- The change gives its service the name, or leaves it the name. -/
def takes (q : QualifiedName) (c : Change Service) : Bool :=
  c.new.valid && c.new.qualifiedName == q

theorem takes_iff : takes q c = true ↔ c.new.valid = true ∧ c.new.qualifiedName = q := by
  simp [takes]

/-- The service that took the name last. -/
def lastTaker (q : QualifiedName) (changes : List (Change Service)) : Option String :=
  (changes.filter (takes q)).getLast?.map Change.key

theorem lastTaker_concat (q : QualifiedName) (changes : List (Change Service))
    (c : Change Service) :
    lastTaker q (changes ++ [c]) = if takes q c then some c.key else lastTaker q changes := by
  unfold lastTaker
  rw [List.filter_append]
  by_cases hc : takes q c = true
  · simp [hc]
  · simp [hc]

/-- A name that is held was taken. -/
theorem lastTaker_isSome (hf : Fitting ∅ changes) (hr : (replayAll ∅ changes)[id]? = some r) :
    (lastTaker r.qualifiedName changes).isSome := by
  induction changes using List.reverseRecOn with
  | nil => simp [replayAll] at hr
  | append_singleton changes c ih =>
    obtain ⟨hf, hc, -⟩ := fitting_append.mp hf
    rw [replayAll_append] at hr
    have hr : (c.replay (replayAll ∅ changes))[id]? = some r := hr
    rw [replay_getElem? hc] at hr
    rw [lastTaker_concat]
    split at hr
    · obtain ⟨heq, hv⟩ := Option.filter_eq_some_iff.mp hr
      obtain rfl := Option.some.inj heq
      rw [if_pos (takes_iff.mpr ⟨hv, rfl⟩)]
      rfl
    · split
      · rfl
      · exact ih hf hr

/-- The service under the key has the name. -/
def hasName (entries : Std.ExtTreeMap String Service) (q : QualifiedName) (id : String) : Bool :=
  entries[id]?.any fun r => r.qualifiedName == q

theorem hasName_replay {entries : Std.ExtTreeMap String Service} (hc : c.Fits entries)
    (q : QualifiedName) (id : String) :
    hasName (c.replay entries) q id = if c.key = id then takes q c else hasName entries q id := by
  unfold hasName
  rw [replay_getElem? hc]
  split
  · rw [Option.filter_some]
    have hv : Record.valid c.new = c.new.valid := rfl
    rw [hv, takes]
    cases c.new.valid <;> simp
  · rfl

/-- A name leads to the last service that took it, as long as that has it. -/
theorem byName_getElem? (hf : Fitting ∅ changes) (q : QualifiedName) :
    (Index.observeAll (Index.empty Service : ServiceIndex) changes).byName[q]? =
      (lastTaker q changes).filter (hasName (replayAll ∅ changes) q) := by
  induction changes using List.reverseRecOn with
  | nil => simp [Index.observeAll, Index.empty, lastTaker]
  | append_singleton changes c ih =>
    obtain ⟨hf, hc, -⟩ := fitting_append.mp hf
    obtain ⟨-, hleads⟩ := tracks.observeAll Live.empty tracks.empty hf
    have hnames : (Index.observeAll (Index.empty Service : ServiceIndex) (changes ++ [c])).byName =
        followName (Index.observeAll (Index.empty Service : ServiceIndex) changes).byName c := by
      unfold Index.observeAll
      rw [List.foldl_append]
      rfl
    have hentries : replayAll ∅ (changes ++ [c]) = c.replay (replayAll ∅ changes) :=
      replayAll_append ∅ changes [c]
    rw [hnames, hentries, followName_getElem? (Live.empty.replayAll hf) hleads hc, ih hf,
      lastTaker_concat]
    by_cases htakes : takes q c = true
    · rw [if_pos (takes_iff.mp htakes), if_pos htakes, Option.filter_some, hasName_replay hc,
        if_pos rfl, if_pos htakes]
    · rw [if_neg (mt takes_iff.mpr htakes), if_neg htakes]
      rcases lastTaker q changes with _ | id
      · rfl
      · rw [Option.filter_some, Option.filter_some, hasName_replay hc]
        by_cases hid : c.key = id
        · -- the last one to take the name has it no longer
          subst hid
          rw [if_pos rfl, if_neg htakes]
          split
          · exact if_pos rfl
          · rfl
        · rw [if_neg hid]
          split
          · exact if_neg fun heq => hid (Option.some.inj heq).symm
          · rfl

end ServiceIndex

/-! ## Looking up a name -/

namespace Services

variable {m : Services} {told : List (Change Service)} {q : QualifiedName} {r : Service}

theorem named?_eq_lastTaker (h : Recounts told m.entries m.index) (q : QualifiedName) :
    (m.named? q).2 = ((ServiceIndex.lastTaker q told).bind fun id => m.entries[id]?).filter
      fun r => r.qualifiedName == q := by
  rw [named?_eq, ← h.index, ServiceIndex.byName_getElem? h.fitting, h.entries]
  rcases ServiceIndex.lastTaker q told with _ | id
  · rfl
  · unfold ServiceIndex.hasName
    rw [Option.filter_some, Option.bind_some]
    rcases hr : m.entries[id]? with _ | r
    · rfl
    · by_cases hq : r.qualifiedName = q
      · simp [hq, hr]
      · simp [hq, Option.filter_some]

theorem named?_eq_none (h : Recounts told m.entries m.index) :
    (m.named? q).2 = none ↔ (∀ r ∈ m.list, r.qualifiedName ≠ q) ∨
      ∃ id, ServiceIndex.lastTaker q told = some id ∧
        ∀ r, m.entries[id]? = some r → r.qualifiedName ≠ q := by
  have hl : Live m.entries := h.entries ▸ Live.empty.replayAll h.fitting
  rw [named?_eq_lastTaker h, Option.filter_eq_none_iff]
  simp only [beq_iff_eq]
  constructor
  · intro hnone
    rcases ht : ServiceIndex.lastTaker q told with _ | id
    · refine Or.inl fun r hr hq => ?_
      have hentry := (mem_list hl).mp hr
      rw [← h.entries] at hentry
      have hsome := ServiceIndex.lastTaker_isSome h.fitting hentry
      rw [hq, ht] at hsome
      cases hsome
    · rw [ht, Option.bind_some] at hnone
      exact Or.inr ⟨id, rfl, hnone⟩
  · rintro (hnone | ⟨id, ht, hgone⟩) r hr
    · obtain ⟨id, -, hentry⟩ := Option.bind_eq_some_iff.mp hr
      exact hnone r (hl.keyed.mem_of_getElem? hentry)
    · rw [ht, Option.bind_some] at hr
      exact hgone r hr

end Services

namespace Desk.Session

/-- **Looking up a name.** In every session a name leads to the last service that took it since the
last clear, if that has it still. So nothing is found exactly if no service has the name, or the
last one to take it has given it up. -/
theorem run_leadsToLastTaker (kind : CacheKind) (skew : Span) (buffer : Nat) (now : Instant)
    (actions : List (Action Service)) (q : QualifiedName) :
    let s : Session Service ServiceIndex := start kind skew buffer now
    let m : Services := (s.run actions).refresher.replica
    let taker := ServiceIndex.lastTaker q (s.retold [] actions)
    (m.named? q).2 = (taker.bind fun id => m.entries[id]?).filter (fun r => r.qualifiedName == q) ∧
      ((m.named? q).2 = none ↔ (∀ r ∈ m.list, r.qualifiedName ≠ q) ∨
        ∃ id, taker = some id ∧ ∀ r, m.entries[id]? = some r → r.qualifiedName ≠ q) := by
  intro s m taker
  have h : Recounts (s.retold [] actions) m.entries m.index :=
    run_recounts Recounts.nil actions
  exact ⟨Services.named?_eq_lastTaker h q, Services.named?_eq_none h⟩

/-- Two services hold one name, and the one that took it last is renamed. The other one has the name
still, but nothing is found by it. -/
theorem holder_not_found :
    let one : Instant := ⟨1, 0, by decide, by decide, by decide⟩
    let two : Instant := ⟨2, 0, by decide, by decide, by decide⟩
    let three : Instant := ⟨3, 0, by decide, by decide, by decide⟩
    let service (id name : String) (modified : Instant) : Service :=
      { id, name, namespaceName := "shop", modified }
    let actions : List (Action Service) :=
      [.enter ⟨"reader", false, false⟩,
        .answer 0 (.ok [service "a" "cart" one, service "b" "cart" two]), .poll 0,
        .enter ⟨"reader", false, false⟩, .answer 0 (.ok [service "b" "till" three]), .poll 0]
    let m : Services := ((start .services (.seconds (-2)) 4 .epoch :
      Session Service ServiceIndex).run actions).refresher.replica
    m.list = [service "a" "cart" one, service "b" "till" three] ∧
      (m.named? ⟨"shop", "cart"⟩).2 = none := by
  intro one two three service actions
  have hlist : ((start .services (.seconds (-2)) 4 .epoch : Session Service ServiceIndex).run
      actions).refresher.replica.list = [service "a" "cart" one, service "b" "till" three] := by
    cbv
  have hnames : ((start .services (.seconds (-2)) 4 .epoch : Session Service ServiceIndex).run
      actions).refresher.replica.index.byName.toList = [(⟨"shop", "till"⟩, "b")] := by
    cbv
  refine ⟨hlist, ?_⟩
  rw [Services.named?_eq]
  rcases hid : ((start .services (.seconds (-2)) 4 .epoch : Session Service ServiceIndex).run
      actions).refresher.replica.index.byName[(⟨"shop", "cart"⟩ : QualifiedName)]? with _ | id
  · rfl
  · have hmem := Std.ExtTreeMap.mem_toList_iff_getElem?_eq_some.mpr hid
    rw [hnames] at hmem
    simp at hmem

end Desk.Session

end GovernanceCache
