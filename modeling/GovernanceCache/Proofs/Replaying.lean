import GovernanceCache.Proofs.Merging

/-!
# Replaying changes

The changes of a merge, applied in turn to a copy of the entries, give the entries after the merge
(`merge_replays`). Each of them fits: it finds under its key exactly what it says that it replaces,
and its record is live unless it deletes. Of a batch no two changes are about one key.
-/

namespace GovernanceCache

variable {R : Type} [Record R]

namespace Change

/-- The key of which the change tells. -/
def key (c : Change R) : String := Record.key c.new

/-- The change tells truly what is under its key, and leaves a live record behind or none. -/
def Fits (entries : Std.ExtTreeMap String R) (c : Change R) : Prop :=
  match c.kind with
  | .created => c.old = none ∧ entries[c.key]? = none ∧ Record.valid c.new = true
  | .updated => ∃ old, c.old = some old ∧ entries[c.key]? = some old ∧ Record.valid c.new = true
  | .deleted => ∃ old, c.old = some old ∧ entries[c.key]? = some old ∧ Record.valid c.new = false

/-- Applies the change to a copy of the entries. -/
def replay (entries : Std.ExtTreeMap String R) (c : Change R) : Std.ExtTreeMap String R :=
  match c.kind with
  | .created | .updated => entries.insert c.key c.new
  | .deleted => entries.erase c.key

end Change

/-- Applies changes in turn to a copy of the entries. -/
def replayAll (entries : Std.ExtTreeMap String R) (changes : List (Change R)) :
    Std.ExtTreeMap String R := changes.foldl Change.replay entries

/-- Each change fits the entries to which it is applied. -/
def Fitting : Std.ExtTreeMap String R → List (Change R) → Prop
  | _, [] => True
  | entries, c :: rest => c.Fits entries ∧ Fitting (c.replay entries) rest

variable {entries : Std.ExtTreeMap String R} {c : Change R} {changes later : List (Change R)}
  {key : String} {r old : R}

theorem replayAll_append (entries : Std.ExtTreeMap String R) (changes later : List (Change R)) :
    replayAll entries (changes ++ later) = replayAll (replayAll entries changes) later :=
  List.foldl_append

theorem fitting_append :
    Fitting entries (changes ++ later) ↔
      Fitting entries changes ∧ Fitting (replayAll entries changes) later := by
  induction changes generalizing entries with
  | nil => simp [Fitting, replayAll]
  | cons c rest ih =>
    show c.Fits entries ∧ Fitting (c.replay entries) (rest ++ later) ↔ _
    rw [ih, ← and_assoc]
    exact Iff.rfl

theorem Change.Fits.old_eq (h : c.Fits entries) : c.old = entries[c.key]? := by
  obtain ⟨kind, old, new⟩ := c
  cases kind with
  | created => exact h.1.trans h.2.1.symm
  | updated =>
    obtain ⟨r, hr, hentry, -⟩ := h
    exact hr.trans hentry.symm
  | deleted =>
    obtain ⟨r, hr, hentry, -⟩ := h
    exact hr.trans hentry.symm

/-! ## Live entries -/

/-- Every entry is a live record under its key. -/
structure Live (entries : Std.ExtTreeMap String R) : Prop where
  keyed : Keyed entries
  valid : ∀ (key : String) (r : R), entries[key]? = some r → Record.valid r = true

theorem Live.empty : Live (∅ : Std.ExtTreeMap String R) := ⟨.empty, fun key r h => by simp at h⟩

theorem Live.of_mem (h : Live entries) (hr : r ∈ entries.values) : Record.valid r = true :=
  h.valid _ r (h.keyed.mem_values.mp hr)

theorem Live.values_nodup (h : Live entries) : entries.values.Nodup :=
  h.keyed.values_distinct.imp fun hne heq => hne (congrArg Record.key heq)

theorem replay_getElem? (h : c.Fits entries) (key : String) :
    (c.replay entries)[key]? =
      if c.key = key then (some c.new).filter Record.valid else entries[key]? := by
  obtain ⟨kind, old, new⟩ := c
  unfold Change.replay
  cases kind with
  | created => simp only [getElem?_insert_eq, Option.filter_some, if_pos h.2.2]
  | updated =>
    obtain ⟨_, _, _, hv⟩ := h
    simp only [getElem?_insert_eq, Option.filter_some, if_pos hv]
  | deleted =>
    obtain ⟨_, _, _, hv⟩ := h
    simp only [getElem?_erase_eq, Option.filter_some, hv, Bool.false_eq_true, if_false]

theorem Live.replay (h : Live entries) (hc : c.Fits entries) : Live (c.replay entries) := by
  have hnew : ∀ key r, (c.replay entries)[key]? = some r →
      (r = c.new ∧ c.key = key ∧ Record.valid c.new = true) ∨ entries[key]? = some r := by
    intro key r hr
    rw [replay_getElem? hc] at hr
    split at hr
    · rename_i hkey
      obtain ⟨heq, hv⟩ := Option.filter_eq_some_iff.mp hr
      exact Or.inl ⟨(Option.some.inj heq).symm, hkey, by rw [Option.some.inj heq]; exact hv⟩
    · exact Or.inr hr
  refine ⟨?_, ?_⟩
  · intro key r hr
    rcases hnew key r hr with ⟨rfl, hkey, -⟩ | hr
    · exact hkey
    · exact h.keyed key r hr
  · intro key r hr
    rcases hnew key r hr with ⟨rfl, -, hv⟩ | hr
    · exact hv
    · exact h.valid key r hr

theorem Live.replayAll (h : Live entries) (hf : Fitting entries changes) :
    Live (replayAll entries changes) := by
  induction changes generalizing entries with
  | nil => exact h
  | cons c rest ih => exact ih (h.replay hf.1) hf.2

/-! ## The changes of a merge -/

/-- One record makes at most one change, which is about its key. -/
theorem apply_replays (m : Merged R) (r : R) :
    ∃ told, (m.apply r).changes = m.changes ++ told ∧ Fitting m.entries told ∧
      replayAll m.entries told = (m.apply r).entries ∧
      (told = [] ∨ ∃ c, told = [c] ∧ c.new = r) := by
  unfold Merged.apply
  rcases hold : m.entries[Record.key r]? with _ | old <;> rcases hv : Record.valid r with _ | _
  · exact ⟨[], (List.append_nil _).symm, trivial, rfl, Or.inl rfl⟩
  · exact ⟨_, rfl, ⟨⟨rfl, hold, hv⟩, trivial⟩, rfl, Or.inr ⟨_, rfl, rfl⟩⟩
  · exact ⟨_, rfl, ⟨⟨old, rfl, hold, hv⟩, trivial⟩, rfl, Or.inr ⟨_, rfl, rfl⟩⟩
  · simp only
    split
    · exact ⟨[], (List.append_nil _).symm, trivial, rfl, Or.inl rfl⟩
    · exact ⟨_, rfl, ⟨⟨old, rfl, hold, hv⟩, trivial⟩, rfl, Or.inr ⟨_, rfl, rfl⟩⟩

theorem foldl_apply_replays {records : List R}
    (hd : records.Pairwise fun a b => Record.key a ≠ Record.key b) (m : Merged R) :
    ∃ told, (records.foldl Merged.apply m).changes = m.changes ++ told ∧ Fitting m.entries told ∧
      replayAll m.entries told = (records.foldl Merged.apply m).entries ∧
      (told.Pairwise fun a b => a.key ≠ b.key) ∧ ∀ c ∈ told, c.new ∈ records := by
  induction records generalizing m with
  | nil => exact ⟨[], (List.append_nil _).symm, trivial, rfl, .nil, nofun⟩
  | cons r rest ih =>
    obtain ⟨hr, hd⟩ := List.pairwise_cons.mp hd
    obtain ⟨told, hch, hfit, hent, hone⟩ := apply_replays m r
    obtain ⟨later, hch', hfit', hent', hdist, hmem⟩ := ih hd (m.apply r)
    refine ⟨told ++ later, ?_, ?_, ?_, ?_, ?_⟩
    · rw [List.foldl_cons, hch', hch, List.append_assoc]
    · rw [fitting_append, hent]
      exact ⟨hfit, hfit'⟩
    · rw [replayAll_append, hent, hent', List.foldl_cons]
    · rcases hone with rfl | ⟨c, rfl, rfl⟩
      · exact hdist
      · exact List.pairwise_cons.mpr ⟨fun d hd => hr _ (hmem d hd), hdist⟩
    · intro c hc
      rcases List.mem_append.mp hc with hc | hc
      · rcases hone with rfl | ⟨d, rfl, rfl⟩
        · cases hc
        · rw [List.mem_singleton.mp hc]
          exact List.mem_cons_self
      · exact List.mem_cons_of_mem _ (hmem c hc)

/-- **Replaying a merge.** -/
theorem merge_replays (entries : Std.ExtTreeMap String R) (batch : List R) :
    Fitting entries (merge entries batch).changes ∧
      replayAll entries (merge entries batch).changes = (merge entries batch).entries ∧
      (merge entries batch).changes.Pairwise fun a b => a.key ≠ b.key := by
  obtain ⟨told, hch, hfit, hent, hdist, -⟩ :=
    foldl_apply_replays (arrange_distinct batch) { entries }
  have hch : (merge entries batch).changes = told := hch
  rw [hch]
  exact ⟨hfit, hent, hdist⟩

theorem Live.merge (h : Live entries) (batch : List R) : Live (merge entries batch).entries := by
  obtain ⟨hfit, hent, -⟩ := merge_replays entries batch
  rw [← hent]
  exact h.replayAll hfit

end GovernanceCache
