import GovernanceCache.Merge
import Mathlib.Data.List.Basic

/-!
# What a merge does to a key

The entry of a key after a merge depends on its entry before and on the newest record of the key in
the batch, and on nothing else (`merge_getElem?`).

1. `newestOf` holds under each key the newest record of that key (`newestOf_getElem?`).
2. The arranged batch holds each of these once, so at most one record of the key is applied.
3. One application settles the entry of its own key and leaves the others (`apply_getElem?`).
-/

namespace GovernanceCache

/-! ## Maps that are kept by key -/

section

variable {κ α : Type} [Ord κ] [Std.TransOrd κ]

theorem values_eq_foldr (m : Std.ExtTreeMap κ α) :
    m.values = m.foldr (fun _ v values => v :: values) [] := by
  rcases m with ⟨⟨m⟩⟩
  induction m using Quotient.ind with
  | _ m => rfl

theorem values_eq_map_toList (m : Std.ExtTreeMap κ α) : m.values = m.toList.map Prod.snd := by
  rw [values_eq_foldr, Std.ExtTreeMap.foldr_eq_foldr_toList, List.map_eq_foldr]

theorem getElem?_insert_eq [Std.LawfulEqOrd κ] [DecidableEq κ] (m : Std.ExtTreeMap κ α) (k l : κ)
    (v : α) : (m.insert k v)[l]? = if k = l then some v else m[l]? := by
  simp only [Std.ExtTreeMap.getElem?_insert, Std.compare_eq_iff_eq]

theorem getElem?_erase_eq [Std.LawfulEqOrd κ] [DecidableEq κ] (m : Std.ExtTreeMap κ α) (k l : κ) :
    (m.erase k)[l]? = if k = l then none else m[l]? := by
  simp only [Std.ExtTreeMap.getElem?_erase, Std.compare_eq_iff_eq]

end

variable {R : Type} [Record R] {m : Std.ExtTreeMap String R} {key : String} {r : R}
  {batch : List R}

/-- Every entry stands under the key of its record. -/
def Keyed (m : Std.ExtTreeMap String R) : Prop := ∀ key r, m[key]? = some r → Record.key r = key

theorem Keyed.empty : Keyed (∅ : Std.ExtTreeMap String R) := by
  intro key r h
  simp at h

theorem Keyed.insert (h : Keyed m) (r : R) : Keyed (m.insert (Record.key r) r) := by
  intro key s hs
  rw [getElem?_insert_eq] at hs
  split at hs
  · rename_i hkey
    rw [← Option.some.inj hs]
    exact hkey
  · exact h key s hs

theorem Keyed.mem_values (h : Keyed m) : r ∈ m.values ↔ m[Record.key r]? = some r := by
  rw [values_eq_map_toList, List.mem_map]
  constructor
  · rintro ⟨⟨key, s⟩, hmem, rfl⟩
    have hs := Std.ExtTreeMap.mem_toList_iff_getElem?_eq_some.mp hmem
    rw [h key s hs]
    exact hs
  · exact fun hr => ⟨(Record.key r, r), Std.ExtTreeMap.mem_toList_iff_getElem?_eq_some.mpr hr, rfl⟩

theorem Keyed.mem_of_getElem? (h : Keyed m) (hr : m[key]? = some r) : r ∈ m.values := by
  rw [h.mem_values, h key r hr]
  exact hr

theorem Keyed.values_distinct (h : Keyed m) :
    m.values.Pairwise fun a b => Record.key a ≠ Record.key b := by
  rw [values_eq_map_toList, List.pairwise_map]
  refine Std.ExtTreeMap.distinct_keys_toList.imp_of_mem ?_
  intro a b ha hb hne
  rw [h a.1 a.2 (Std.ExtTreeMap.mem_toList_iff_getElem?_eq_some.mp ha),
    h b.1 b.2 (Std.ExtTreeMap.mem_toList_iff_getElem?_eq_some.mp hb)]
  rw [Std.compare_eq_iff_eq] at hne
  exact hne

/-! ## The newest version of a key -/

/-- The newer of two records, the second one if they are equally new. -/
def newer (seen : Option R) (r : R) : R :=
  match seen with
  | some s => if Record.modified r < Record.modified s then s else r
  | none => r

/-- The newest record of a key in a batch, the last one among equally new ones. -/
def newestFor (key : String) (batch : List R) : Option R :=
  (batch.filter fun r => Record.key r == key).foldl (fun seen r => some (newer seen r)) none

theorem keepNewest_getElem? (m : Std.ExtTreeMap String R) (r : R) (key : String) :
    (keepNewest m r)[key]? = if Record.key r = key then some (newer m[key]? r) else m[key]? := by
  by_cases hkey : Record.key r = key
  · subst hkey
    rw [if_pos rfl]
    unfold keepNewest newer
    rcases hs : m[Record.key r]? with _ | s
    · simp only
      rw [getElem?_insert_eq, if_pos rfl]
    · simp only
      split
      · rw [hs]
      · rw [getElem?_insert_eq, if_pos rfl]
  · rw [if_neg hkey]
    unfold keepNewest
    split
    · split
      · rfl
      · rw [getElem?_insert_eq, if_neg hkey]
    · rw [getElem?_insert_eq, if_neg hkey]

theorem newestOf_getElem? (batch : List R) (key : String) :
    (newestOf batch)[key]? = newestFor key batch := by
  suffices ∀ m : Std.ExtTreeMap String R, (batch.foldl keepNewest m)[key]? =
      (batch.filter fun r => Record.key r == key).foldl
        (fun seen r => some (newer seen r)) m[key]? by
    unfold newestOf newestFor
    rw [this]
    simp
  induction batch with
  | nil => exact fun _ => rfl
  | cons r rest ih =>
    intro m
    rw [List.foldl_cons, ih, keepNewest_getElem?]
    by_cases hkey : Record.key r = key
    · simp [hkey]
    · simp [hkey]

/-- The newest record of a key is one of those that the batch has of it. -/
theorem newestFor_mem (h : newestFor key batch = some r) : r ∈ batch ∧ Record.key r = key := by
  suffices ∀ (l : List R) (seen : Option R), (∀ s ∈ l, s ∈ batch ∧ Record.key s = key) →
      (∀ s, seen = some s → s ∈ batch ∧ Record.key s = key) →
      ∀ s, l.foldl (fun seen r => some (newer seen r)) seen = some s →
        s ∈ batch ∧ Record.key s = key by
    refine this _ none ?_ (by simp) r h
    intro s hs
    simpa using List.mem_filter.mp hs
  intro l
  induction l with
  | nil => exact fun _ _ hseen => hseen
  | cons s l ih =>
    intro seen hl hseen
    refine ih _ (fun t ht => hl t (List.mem_cons_of_mem _ ht)) ?_
    intro t ht
    obtain rfl := Option.some.inj ht
    unfold newer
    split
    · split
      · exact hseen _ rfl
      · exact hl s List.mem_cons_self
    · exact hl s List.mem_cons_self

theorem newestFor_isSome (hr : r ∈ batch) : (newestFor (Record.key r) batch).isSome := by
  have hmem : r ∈ batch.filter fun s => Record.key s == Record.key r := by simp [hr]
  unfold newestFor
  suffices ∀ (l : List R) (seen : Option R), (l ≠ [] ∨ seen.isSome) →
      (l.foldl (fun seen r => some (newer seen r)) seen).isSome by
    exact this _ none (Or.inl (List.ne_nil_of_mem hmem))
  intro l
  induction l with
  | nil => exact fun seen h => h.resolve_left fun hne => hne rfl
  | cons s l ih => exact fun seen _ => ih _ (Or.inr rfl)

/-- No record of the key in the batch is newer. -/
theorem le_newestFor {n : R} (hr : r ∈ batch) (hn : newestFor (Record.key r) batch = some n) :
    Record.modified r ≤ Record.modified n := by
  have hmem : r ∈ batch.filter fun s => Record.key s == Record.key r := by simp [hr]
  unfold newestFor at hn
  have hnewer : ∀ (seen : Option R) (s : R),
      (∀ t, seen = some t → Record.modified t ≤ Record.modified (newer seen s)) ∧
        Record.modified s ≤ Record.modified (newer seen s) := by
    intro seen s
    unfold newer
    rcases seen with _ | t
    · exact ⟨nofun, Instant.le_refl _⟩
    · simp only
      split
      · rename_i hlt
        refine ⟨fun u hu => ?_, Instant.le_of_lt hlt⟩
        rw [Option.some.inj hu]
        exact Instant.le_refl _
      · rename_i hlt
        refine ⟨fun u hu => ?_, Instant.le_refl _⟩
        rw [← Option.some.inj hu]
        exact Instant.not_lt.mp hlt
  suffices ∀ (l : List R) (seen : Option R),
      l.foldl (fun seen r => some (newer seen r)) seen = some n →
      (∀ t, seen = some t → Record.modified t ≤ Record.modified n) ∧
        ∀ s ∈ l, Record.modified s ≤ Record.modified n from
    (this _ none hn).2 r hmem
  intro l
  induction l with
  | nil =>
    intro seen h
    refine ⟨fun t ht => ?_, nofun⟩
    rw [Option.some.inj (ht.symm.trans h)]
    exact Instant.le_refl _
  | cons s l ih =>
    intro seen h
    obtain ⟨hseen, hl⟩ := ih _ h
    obtain ⟨hold, hs⟩ := hnewer seen s
    have hle := hseen _ rfl
    refine ⟨fun t ht => Instant.le_trans (hold t ht) hle, ?_⟩
    intro t ht
    rcases List.mem_cons.mp ht with rfl | ht
    · exact Instant.le_trans hs hle
    · exact hl t ht

theorem Keyed.newestOf (batch : List R) : Keyed (newestOf batch) := by
  intro key r h
  rw [newestOf_getElem?] at h
  exact (newestFor_mem h).2

theorem mem_arrange : r ∈ arrange batch ↔ newestFor (Record.key r) batch = some r := by
  unfold arrange Record.sort
  rw [List.mem_mergeSort, (Keyed.newestOf batch).mem_values, newestOf_getElem?]

theorem arrange_distinct (batch : List R) :
    (arrange batch).Pairwise fun a b => Record.key a ≠ Record.key b :=
  (List.mergeSort_perm _ _).pairwise_iff (fun h => h.symm)
    |>.mpr (Keyed.newestOf batch).values_distinct

/-! ## Entries -/

/-- The entry of a key after a record of the key was applied. -/
def entryAfter (old : Option R) (r : R) : Option R :=
  if Record.valid r then
    match old with
    | some s => if Record.sameVersion s r then some s else some r
    | none => some r
  else none

/-- A record that cannot be taken for another one under its mark leaves itself behind if it is
live. -/
theorem entryAfter_eq_filter {old : Option R}
    (h : ∀ s, old = some s → Record.sameVersion s r = true → s = r) :
    entryAfter old r = (some r).filter Record.valid := by
  unfold entryAfter
  rw [Option.filter_some]
  by_cases hv : Record.valid r = true
  · rw [if_pos hv, if_pos hv]
    rcases old with _ | s
    · rfl
    · simp only
      split
      · rename_i hsame
        rw [h s rfl hsame]
      · rfl
  · rw [if_neg hv, if_neg hv]

theorem apply_getElem? (m : Merged R) (r : R) (key : String) :
    (m.apply r).entries[key]? =
      if Record.key r = key then entryAfter m.entries[key]? r else m.entries[key]? := by
  by_cases hkey : Record.key r = key
  · subst hkey
    rw [if_pos rfl]
    unfold Merged.apply entryAfter
    rcases hold : m.entries[Record.key r]? with _ | s
    · cases hv : Record.valid r
      · simpa using hold
      · simp only [getElem?_insert_eq, if_pos]
    · cases hv : Record.valid r
      · simp only [getElem?_erase_eq, if_pos]
        rfl
      · simp only [if_pos]
        split
        · exact hold
        · rw [getElem?_insert_eq, if_pos rfl]
  · rw [if_neg hkey]
    unfold Merged.apply
    split
    · split
      · rfl
      · rw [getElem?_insert_eq, if_neg hkey]
    · rw [getElem?_insert_eq, if_neg hkey]
    · rw [getElem?_erase_eq, if_neg hkey]
    · rfl

theorem foldl_apply_of_not_mem {records : List R} (h : ∀ r ∈ records, Record.key r ≠ key)
    (m : Merged R) : (records.foldl Merged.apply m).entries[key]? = m.entries[key]? := by
  induction records generalizing m with
  | nil => rfl
  | cons r rest ih =>
    rw [List.foldl_cons, ih (fun s hs => h s (List.mem_cons_of_mem _ hs)), apply_getElem?,
      if_neg (h r List.mem_cons_self)]

/-- Of records with distinct keys only the one of the key settles its entry. -/
theorem foldl_apply_of_mem {records : List R}
    (hd : records.Pairwise fun a b => Record.key a ≠ Record.key b) (hr : r ∈ records)
    (m : Merged R) :
    (records.foldl Merged.apply m).entries[Record.key r]? =
      entryAfter m.entries[Record.key r]? r := by
  induction records generalizing m with
  | nil => cases hr
  | cons s rest ih =>
    obtain ⟨hs, hd⟩ := List.pairwise_cons.mp hd
    rw [List.foldl_cons]
    rcases List.mem_cons.mp hr with rfl | hr
    · rw [foldl_apply_of_not_mem (fun t ht => (hs t ht).symm), apply_getElem?, if_pos rfl]
    · rw [ih hd hr, apply_getElem?, if_neg (hs r hr)]

/-- **Merging.** The newest record of a key settles its entry; a key of which the batch has no
record keeps its entry. -/
theorem merge_getElem? (entries : Std.ExtTreeMap String R) (batch : List R) (key : String) :
    (merge entries batch).entries[key]? =
      match newestFor key batch with
      | some r => entryAfter entries[key]? r
      | none => entries[key]? := by
  unfold merge
  rcases hn : newestFor key batch with _ | r
  · refine foldl_apply_of_not_mem ?_ _
    rintro r hr rfl
    rw [mem_arrange.mp hr] at hn
    cases hn
  · obtain rfl := (newestFor_mem hn).2
    exact foldl_apply_of_mem (arrange_distinct batch) (mem_arrange.mpr hn) _

theorem latestTime_mem {t : Instant} (h : latestTime batch = some t) :
    ∃ r ∈ batch, Record.modified r = t := by
  refine List.foldlRecOn (motive := fun latest => ∀ t, latest = some t →
    ∃ r ∈ batch, Record.modified r = t) batch _ (fun t ht => by cases ht) ?_ t h
  rintro (_ | u) hlatest r hr t ht
  · exact ⟨r, hr, Option.some.inj ht⟩
  · have hmax : max u (Record.modified r) = t := Option.some.inj ht
    rw [Instant.max_def] at hmax
    split at hmax
    · exact ⟨r, hr, hmax⟩
    · exact hlatest t (by rw [← hmax])

theorem le_latestTime (hr : r ∈ batch) :
    ∃ t, latestTime batch = some t ∧ Record.modified r ≤ t := by
  obtain ⟨before, after, rfl⟩ := List.append_of_mem hr
  unfold latestTime
  rw [List.foldl_append, List.foldl_cons]
  -- The time of `r` counts once `r` is read, and the largest time only grows from there on.
  refine List.foldlRecOn (motive := fun latest => ∃ t, latest = some t ∧ Record.modified r ≤ t)
    after _ ?_ ?_
  · generalize before.foldl _ none = latest
    rcases latest with _ | u
    · exact ⟨_, rfl, Instant.le_refl _⟩
    · exact ⟨_, rfl, Instant.le_max_right u _⟩
  · rintro latest ⟨t, rfl, hle⟩ s -
    exact ⟨_, rfl, Instant.le_trans hle (Instant.le_max_left t _)⟩

end GovernanceCache
