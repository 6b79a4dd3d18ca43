import GovernanceCache.Buckets
import GovernanceCache.Proofs.Replaying
import GovernanceCache.Replica
import Mathlib.Data.String.Basic

/-!
# What buckets hold

Buckets that follow the changes of a cache sort its entries: a key is in the bucket of a group if
and only if its entry belongs to that group, and no bucket is empty (`Sorts.follow`). So reading the
keys of a bucket gives the entries of the group, in the order of their keys (`Sorts.mem_getAll`,
`Replica.getAll_ordered`).
-/

namespace GovernanceCache

namespace Buckets

variable {κ : Type} [Ord κ] [Std.TransOrd κ] {buckets : Buckets κ} {group g : κ} {key k : String}

/-- The key is in the bucket of the group. -/
def Holds (buckets : Buckets κ) (group : κ) (key : String) : Prop :=
  ∃ keys, buckets[group]? = some keys ∧ key ∈ keys

/-- No bucket is empty. -/
def NoneEmpty (buckets : Buckets κ) : Prop :=
  ∀ (group : κ) (keys : Std.ExtTreeSet String), buckets[group]? = some keys → keys ≠ ∅

theorem not_holds_empty : ¬ (∅ : Buckets κ).Holds g k := by
  rintro ⟨keys, hkeys, -⟩
  simp at hkeys

theorem noneEmpty_empty : (∅ : Buckets κ).NoneEmpty := by
  intro g keys hkeys
  simp at hkeys

theorem mem_members : key ∈ buckets.members group ↔ buckets.Holds group key := by
  unfold members Holds
  cases buckets[group]? <;> simp

theorem members_ordered (buckets : Buckets κ) (group : κ) :
    (buckets.members group).Pairwise fun a b => a < b := by
  unfold members
  cases buckets[group]? with
  | none => exact .nil
  | some keys => exact keys.ordered_toList.imp fun h => compare_lt_iff_lt.mp h

/-! ## Adding and removing a key -/

theorem mem_kept {keys : Std.ExtTreeSet String} : (∃ l, kept keys = some l ∧ k ∈ l) ↔ k ∈ keys := by
  unfold kept
  by_cases hempty : keys.isEmpty
  · -- nothing is lost with an empty bucket
    rw [if_pos hempty, Std.ExtTreeSet.isEmpty_iff.mp hempty]
    simp
  · simp [hempty]

theorem holds_add [Std.LawfulEqOrd κ] :
    (buckets.add group key).Holds g k ↔ (group = g ∧ key = k) ∨ buckets.Holds g k := by
  unfold add Holds
  rw [Std.ExtTreeMap.getElem?_alter]
  by_cases hg : group = g
  · subst hg
    cases buckets[group]? <;> simp
  · simp [hg]

theorem holds_remove [Std.LawfulEqOrd κ] :
    (buckets.remove group key).Holds g k ↔ ¬ (group = g ∧ key = k) ∧ buckets.Holds g k := by
  unfold remove Holds
  rw [Std.ExtTreeMap.getElem?_alter]
  by_cases hg : group = g
  · subst hg
    rw [if_pos Std.ReflCmp.compare_self]
    cases buckets[group]? with
    | none => simp
    | some keys =>
      rw [Option.bind_some, mem_kept]
      simp
  · simp [hg]

theorem NoneEmpty.add (h : buckets.NoneEmpty) (group : κ) (key : String) :
    (buckets.add group key).NoneEmpty := by
  intro g keys hkeys
  unfold Buckets.add at hkeys
  rw [Std.ExtTreeMap.getElem?_alter] at hkeys
  split at hkeys
  · rw [← Option.some.inj hkeys]
    simp
  · exact h g keys hkeys

theorem NoneEmpty.remove (h : buckets.NoneEmpty) (group : κ) (key : String) :
    (buckets.remove group key).NoneEmpty := by
  intro g keys hkeys
  unfold Buckets.remove at hkeys
  rw [Std.ExtTreeMap.getElem?_alter] at hkeys
  split at hkeys
  · obtain ⟨old, -, hkept⟩ := Option.bind_eq_some_iff.mp hkeys
    unfold kept at hkept
    split at hkept
    · cases hkept
    · rename_i hnot
      rw [← Option.some.inj hkept]
      exact fun hempty => hnot (Std.ExtTreeSet.isEmpty_iff.mpr hempty)
  · exact h g keys hkeys

/-! ## Following changes -/

variable {R : Type} {kind : R → κ} {entries : Std.ExtTreeMap String R}

/-- The buckets sort the entries by the group that each of them belongs to. -/
structure Sorts (kind : R → κ) (entries : Std.ExtTreeMap String R) (buckets : Buckets κ) :
    Prop where
  holds : ∀ g key, buckets.Holds g key ↔ entries[key]?.map kind = some g
  noneEmpty : buckets.NoneEmpty

/-- No key is in the buckets of two groups. -/
theorem Sorts.unique (h : Sorts kind entries buckets) (hg : buckets.Holds g key)
    (hg' : buckets.Holds group key) : g = group := by
  rw [h.holds] at hg hg'
  exact Option.some.inj (hg.symm.trans hg')

theorem Sorts.empty : Sorts kind ∅ ∅ where
  holds g key := by simp [not_holds_empty]
  noneEmpty := noneEmpty_empty

variable [Record R] [DecidableEq κ] {c : Change R}

/-- The buckets without the record that a change replaces. -/
def vacate (kind : R → κ) (buckets : Buckets κ) (c : Change R) : Buckets κ :=
  match c.old with
  | some old => leave kind buckets old c.new
  | none => buckets

theorem follow_eq (kind : R → κ) (buckets : Buckets κ) (c : Change R) :
    buckets.follow kind c =
      if Record.valid c.new then (vacate kind buckets c).add (kind c.new) c.key
      else vacate kind buckets c := rfl

theorem NoneEmpty.follow (h : buckets.NoneEmpty) (c : Change R) :
    (buckets.follow kind c).NoneEmpty := by
  have hvacate : (vacate kind buckets c).NoneEmpty := by
    unfold vacate leave
    split
    · split
      · exact h
      · exact h.remove _ _
    · exact h
  rw [follow_eq]
  split
  · exact hvacate.add _ _
  · exact hvacate

variable [Std.LawfulEqOrd κ]

/-- The replaced record stays only where the new one takes its place. -/
theorem holds_leave {old new : R} (hold : ∀ g, buckets.Holds g (Record.key old) ↔ kind old = g) :
    (leave kind buckets old new).Holds g k ↔
      if Record.key old = k then Record.valid new = true ∧ kind new = g ∧ kind old = g
      else buckets.Holds g k := by
  unfold leave
  by_cases hk : Record.key old = k
  · subst hk
    rw [if_pos rfl]
    split
    · rename_i hsame
      rw [hold]
      simp_all
    · rename_i hdiff
      rw [holds_remove, hold]
      simp only [and_true, Bool.and_eq_true, beq_iff_eq, not_and] at hdiff ⊢
      exact ⟨fun h => absurd h.2 h.1, fun h => absurd (h.2.1.trans h.2.2.symm) (hdiff h.1)⟩
  · rw [if_neg hk]
    split
    · exact Iff.rfl
    · rw [holds_remove]
      simp [hk]

theorem holds_vacate (hl : Live entries) (h : Sorts kind entries buckets) (hc : c.Fits entries) :
    (vacate kind buckets c).Holds g k ↔
      if c.key = k then
        Record.valid c.new = true ∧ kind c.new = g ∧ entries[c.key]?.map kind = some g
      else buckets.Holds g k := by
  have hentry := hc.old_eq
  unfold vacate
  split
  · rename_i old hold
    rw [hold] at hentry
    have hkey : Record.key old = c.key := hl.keyed _ _ hentry.symm
    have hgroup : ∀ g, buckets.Holds g (Record.key old) ↔ kind old = g := by
      intro g
      rw [h.holds, hkey, ← hentry]
      simp
    rw [holds_leave hgroup, hkey, ← hentry]
    simp
  · rename_i hold
    rw [hold] at hentry
    split
    · rename_i hk
      rw [h.holds, ← hk, ← hentry]
      simp
    · exact Iff.rfl

/-- The key that changed is where the new record belongs, if that is live, and nowhere else. -/
theorem holds_follow (hl : Live entries) (h : Sorts kind entries buckets) (hc : c.Fits entries) :
    (buckets.follow kind c).Holds g k ↔
      if c.key = k then Record.valid c.new = true ∧ kind c.new = g else buckets.Holds g k := by
  rw [follow_eq]
  split
  · rw [holds_add, holds_vacate hl h hc]
    split <;> simp_all
  · rw [holds_vacate hl h hc]
    split <;> simp_all

theorem Sorts.follow (hl : Live entries) (h : Sorts kind entries buckets) (hc : c.Fits entries) :
    Sorts kind (c.replay entries) (buckets.follow kind c) := by
  refine ⟨?_, h.noneEmpty.follow c⟩
  intro g key
  rw [holds_follow hl h hc, replay_getElem? hc]
  split
  · rw [Option.filter_some]
    split <;> simp_all
  · exact h.holds g key

end Buckets

/-! ## Reading by buckets -/

variable {R ι κ : Type} {m : Replica R ι} {r : R}

theorem Replica.getAll_eq (m : Replica R ι) (keys : List String) :
    (m.getAll keys).2 = keys.filterMap fun key => m.entries[key]? := by
  -- reading leaves the entries alone
  suffices h : ∀ (m' : Replica R ι) (found : List R), m'.entries = m.entries →
      (keys.foldl (fun (p : Replica R ι × List R) key =>
        ((p.1.get key).1, p.2 ++ (p.1.get key).2.toList)) (m', found)).2 =
          found ++ keys.filterMap fun key => m.entries[key]? from h m [] rfl
  induction keys with
  | nil => simp
  | cons key rest ih =>
    intro m' found hent
    rw [List.foldl_cons, ih (m'.get key).1 _ hent]
    show found ++ m'.entries[key]?.toList ++ _ = _
    rw [hent, List.filterMap_cons]
    cases m.entries[key]? <;> simp

section

variable [Record R] {keys : List String}

theorem Replica.mem_getAll (hk : Keyed m.entries) :
    r ∈ (m.getAll keys).2 ↔ r ∈ m.list ∧ Record.key r ∈ keys := by
  rw [Replica.getAll_eq, List.mem_filterMap]
  constructor
  · rintro ⟨key, hkey, hr⟩
    rw [← hk key r hr] at hkey
    exact ⟨hk.mem_of_getElem? hr, hkey⟩
  · rintro ⟨hr, hkey⟩
    exact ⟨Record.key r, hkey, hk.mem_values.mp hr⟩

theorem Replica.getAll_ordered (hk : Keyed m.entries) (h : keys.Pairwise fun a b => a < b) :
    (m.getAll keys).2.Pairwise fun a b => Record.key a < Record.key b := by
  rw [Replica.getAll_eq, List.pairwise_filterMap]
  refine h.imp ?_
  intro k l hkl a ha b hb
  rw [hk k a ha, hk l b hb]
  exact hkl

/-- What passes a test is read without the rest, if its keys are asked for. -/
theorem Replica.getAll_filter_perm (hk : Keyed m.entries) (h : keys.Pairwise fun a b => a < b)
    {p : R → Bool} (hp : ∀ r ∈ m.list, p r = true → Record.key r ∈ keys) :
    ((m.getAll keys).2.filter p).Perm (m.list.filter p) := by
  have hread : (m.getAll keys).2.Nodup := by
    refine (Replica.getAll_ordered hk h).imp ?_
    rintro a _ hlt rfl
    exact lt_irrefl _ hlt
  have hlist : m.list.Nodup := hk.values_distinct.imp fun hne heq => hne (congrArg Record.key heq)
  refine (List.perm_ext_iff_of_nodup (hread.filter p) (hlist.filter p)).mpr fun r => ?_
  rw [List.mem_filter, List.mem_filter, Replica.mem_getAll hk, and_assoc]
  exact and_congr_right fun hr => and_iff_right_of_imp (hp r hr)

/-- Records that are read in the order of their keys need no sorting by key. -/
theorem Replica.mergeSort_getAll (hk : Keyed m.entries) (h : keys.Pairwise fun a b => a < b)
    {before : R → R → Bool} (hbefore : ∀ a b, Record.key a < Record.key b → before a b = true)
    (p : R → Bool) :
    ((m.getAll keys).2.filter p).mergeSort before = (m.getAll keys).2.filter p := by
  refine List.mergeSort_of_pairwise ?_
  exact ((Replica.getAll_ordered hk h).filter p).imp fun hab => hbefore _ _ hab

end

namespace Buckets

variable [Record R] [Ord κ] [Std.TransOrd κ] {buckets : Buckets κ} {kind : R → κ} {g : κ}

/-- Buckets that sort the entries hold the keys of the records of their groups. -/
theorem Sorts.holds_iff (hl : Live m.entries) (h : Sorts kind m.entries buckets) {key : String} :
    buckets.Holds g key ↔ ∃ r ∈ m.list, Record.key r = key ∧ kind r = g := by
  rw [h.holds, Option.map_eq_some_iff]
  constructor
  · rintro ⟨r, hr, hg⟩
    exact ⟨r, hl.keyed.mem_of_getElem? hr, hl.keyed key r hr, hg⟩
  · rintro ⟨r, hr, rfl, hg⟩
    exact ⟨r, hl.keyed.mem_values.mp hr, hg⟩

/-- The bucket of the group of a record that is held has its key. -/
theorem Sorts.mem_members (hl : Live m.entries) (h : Sorts kind m.entries buckets)
    (hr : r ∈ m.list) : Record.key r ∈ buckets.members g ↔ kind r = g := by
  rw [Buckets.mem_members, h.holds, hl.keyed.mem_values.mp hr, Option.map_some, Option.some.injEq]

theorem Sorts.mem_getAll (hl : Live m.entries) (h : Sorts kind m.entries buckets) :
    r ∈ (m.getAll (buckets.members g)).2 ↔ r ∈ m.list ∧ kind r = g := by
  rw [Replica.mem_getAll hl.keyed]
  exact and_congr_right fun hr => h.mem_members hl hr

end Buckets

end GovernanceCache
