import GovernanceCache.Catalog
import GovernanceCache.Table
import GovernanceCache.Proofs.Chronicle
import GovernanceCache.Proofs.Merging
import GovernanceCache.Proofs.ReplicaPulls
import GovernanceCache.Proofs.WatermarkReach

/-!
# Snapshots of a table

A snapshot is what a table held at one moment, and everything that was written to it until then. Its
image is what a cache of it should hold: the live rows.

1. Writes are `Admissible` if they lag behind the earlier ones by no more than the skew, and if two
   versions of a key can be told apart.
2. A later snapshot differs from an earlier one only in rows that lie within the skew of everything
   written until then (`Later`).
3. So an answer that begins at the watermark of the earlier one leaves nothing out, and merging it
   turns one image into the other (`Pictures.catch_up`).
-/

namespace GovernanceCache

variable {R : Type} [Record R] {skew : Span}

/-- Records whose other forms have the same key. -/
class LawfulRecord (R : Type) [Record R] : Prop where
  key_withModified : ∀ (time : Instant) (r : R),
    Record.key (Record.withModified time r) = Record.key r
  key_withValid : ∀ (valid : Bool) (r : R), Record.key (Record.withValid valid r) = Record.key r

instance : LawfulRecord Namespace := ⟨fun _ _ => rfl, fun _ _ => rfl⟩

instance : LawfulRecord Service := ⟨fun _ _ => rfl, fun _ _ => rfl⟩

instance : LawfulRecord Instance := ⟨fun _ _ => rfl, fun _ _ => rfl⟩

instance : LawfulRecord Rule := ⟨fun _ _ => rfl, fun _ _ => rfl⟩

instance : (k : CacheKind) → LawfulRecord k.Row
  | .namespaces => inferInstanceAs (LawfulRecord Namespace)
  | .services => inferInstanceAs (LawfulRecord Service)
  | .instances => inferInstanceAs (LawfulRecord Instance)
  | .rules _ => inferInstanceAs (LawfulRecord Rule)

/-! ## Writes -/

/-- A write after others: it carries an ordinary time, from the epoch on, that lags behind every
earlier one by no more than the skew, and it is no other version of a key under the same mark. -/
structure Admissible (skew : Span) (written : List R) (r : R) : Prop where
  ordinary : (Record.modified r).IsOrdinary
  fromEpoch : 0 ≤ (Record.modified r).nanos
  inWindow : ∀ e ∈ written, (Record.modified e).nanos + skew ≤ (Record.modified r).nanos
  marked : ∀ e ∈ written, Record.key e = Record.key r → Record.sameVersion e r = true → e = r

variable {written : List R} {r e : R}

theorem ordinary_of_written (h : Chronicle (Admissible skew) written) (hr : r ∈ written) :
    (Record.modified r).IsOrdinary ∧ 0 ≤ (Record.modified r).nanos := by
  obtain ⟨later, earlier, rfl⟩ := List.append_of_mem hr
  have hadm := Chronicle.law_of_split h
  exact ⟨hadm.ordinary, hadm.fromEpoch⟩

theorem sameVersion_comm (a b : R) : Record.sameVersion a b = Record.sameVersion b a := by
  unfold Record.sameVersion
  rw [Bool.beq_comm (a := Record.modified a), Bool.beq_comm (a := Record.revision a)]

/-- Among the writes a key and a mark belong to one version. -/
theorem eq_of_sameVersion (h : Chronicle (Admissible skew) written) (hr : r ∈ written)
    (he : e ∈ written) (hkey : Record.key r = Record.key e)
    (hsame : Record.sameVersion r e = true) : r = e := by
  induction written with
  | nil => cases hr
  | cons w written ih =>
    obtain ⟨hadm, h⟩ := Chronicle.chronicle_cons.mp h
    rcases List.mem_cons.mp hr with rfl | hr'
    · rcases List.mem_cons.mp he with rfl | he'
      · rfl
      · rw [sameVersion_comm] at hsame
        exact (hadm.marked e he' hkey.symm hsame).symm
    · rcases List.mem_cons.mp he with rfl | he'
      · exact hadm.marked r hr' hkey hsame
      · exact ih h hr' he'

/-! ## Snapshots -/

/-- What a table holds and what was written to it, the newest first. -/
structure Snapshot (R : Type) where
  rows : Std.ExtTreeMap String R := ∅
  written : List R := []

namespace Snapshot

variable {a b c s : Snapshot R} {key : String}

/-- Every row stands under its key and was written. -/
structure Sound (s : Snapshot R) : Prop where
  keyed : Keyed s.rows
  written : ∀ (key : String) (r : R), s.rows[key]? = some r → r ∈ s.written

theorem Sound.empty : ({} : Snapshot R).Sound := ⟨Keyed.empty, fun key r h => by simp at h⟩

/-- The live row of a key. -/
def image (s : Snapshot R) (key : String) : Option R := s.rows[key]?.filter Record.valid

/-- The second snapshot is of a later moment: no row has gone, and a row that was written since lies
within the skew of everything written before. -/
structure Later (skew : Span) (a b : Snapshot R) : Prop where
  kept : ∀ key : String, b.rows[key]? = none → a.rows[key]? = none
  recent : ∀ (key : String) (r : R), b.rows[key]? = some r → a.rows[key]? = some r ∨
    ∀ w ∈ a.written, (Record.modified w).nanos + skew ≤ (Record.modified r).nanos
  written : ∀ w ∈ a.written, w ∈ b.written

namespace Later

theorem refl (skew : Span) (s : Snapshot R) : Later skew s s :=
  ⟨fun _ => id, fun _ _ => Or.inl, fun _ => id⟩

theorem trans (hab : Later skew a b) (hbc : Later skew b c) : Later skew a c := by
  refine ⟨fun key hc => hab.kept key (hbc.kept key hc), ?_,
    fun w hw => hbc.written w (hab.written w hw)⟩
  intro key r hr
  rcases hbc.recent key r hr with hb | hwindow
  · exact hab.recent key r hb
  · exact Or.inr fun w hw => hwindow w (hab.written w hw)

theorem of_empty (skew : Span) (s : Snapshot R) : Later skew {} s :=
  ⟨fun _ _ => by simp, fun _ _ _ => Or.inr (by simp), by simp⟩

end Later

/-- The snapshot after a write. -/
def write (s : Snapshot R) (r : R) : Snapshot R :=
  { rows := s.rows.insert (Record.key r) r, written := r :: s.written }

theorem Sound.write (h : s.Sound) (r : R) : (s.write r).Sound := by
  refine ⟨h.keyed.insert r, ?_⟩
  intro key t ht
  unfold Snapshot.write at ht
  rw [getElem?_insert_eq] at ht
  split at ht
  · rw [← Option.some.inj ht]
    exact List.mem_cons_self
  · exact List.mem_cons_of_mem _ (h.written key t ht)

theorem later_write (h : Admissible skew s.written r) : Later skew s (s.write r) := by
  refine ⟨?_, ?_, fun w hw => List.mem_cons_of_mem _ hw⟩
  · intro key hnone
    unfold write at hnone
    rw [getElem?_insert_eq] at hnone
    split at hnone
    · cases hnone
    · exact hnone
  · intro key t ht
    unfold write at ht
    rw [getElem?_insert_eq] at ht
    split at ht
    · rw [← Option.some.inj ht]
      exact Or.inr h.inWindow
    · exact Or.inl ht

end Snapshot

/-! ## Answers -/

/-- What a store answers to a pull: rows that it holds, and every one from the given time on, except
that a first load may leave out deleted rows. -/
structure Answers (rows : Std.ExtTreeMap String R) (since : Instant) (firstLoad : Bool)
    (batch : List R) : Prop where
  held : ∀ r ∈ batch, rows[Record.key r]? = some r ∧ since ≤ Record.modified r
  complete : ∀ (key : String) (r : R), rows[key]? = some r → since ≤ Record.modified r →
    r ∈ batch ∨ firstLoad = true ∧ Record.valid r = false

/-- The rows that a table selects are such an answer. -/
theorem Table.select_answers (t : Table R) (h : Keyed t.rows) (since : Instant)
    (firstLoad : Bool) : Answers t.rows since firstLoad (t.select since firstLoad) := by
  have hmem : ∀ r, r ∈ t.select since firstLoad ↔
      t.rows[Record.key r]? = some r ∧ Table.isSelected since firstLoad r = true := by
    intro r
    unfold select Record.sort
    rw [List.mem_mergeSort, List.mem_filter, h.mem_values]
  refine ⟨?_, ?_⟩
  · intro r hr
    obtain ⟨hrow, hsel⟩ := (hmem r).mp hr
    unfold isSelected at hsel
    exact ⟨hrow, of_decide_eq_true (Bool.and_eq_true_iff.mp hsel).1⟩
  · intro key r hrow hsince
    obtain rfl := h key r hrow
    by_cases hleft : firstLoad = true ∧ Record.valid r = false
    · exact Or.inr hleft
    · refine Or.inl ((hmem r).mpr ⟨hrow, ?_⟩)
      unfold isSelected
      cases firstLoad <;> cases hv : Record.valid r <;> simp_all

/-- A live row that is deleted is replaced by its buried form. -/
theorem Table.delete_rows [LawfulRecord R] (t : Table R) (h : Keyed t.rows) {key : String}
    (time : Instant) (hr : t.rows[key]? = some r) (hv : Record.valid r = true) :
    (t.delete key time).1.rows = (t.put (Table.buried time r)).rows := by
  have hkey : Record.key (buried time r) = key := by
    unfold buried
    rw [LawfulRecord.key_withModified, LawfulRecord.key_withValid]
    exact h key r hr
  unfold delete put
  rw [hr]
  simp only [hv, if_true, hkey]

/-! ## Pictures -/

section

variable {ι : Type} {m : Replica R ι} {a b : Snapshot R} {batch : List R} {key : String}

/-- A replica pictures a snapshot if it holds its image, if its watermark is the time of a write,
and if there was nothing to hold before its first load. -/
structure Pictures (m : Replica R ι) (s : Snapshot R) : Prop where
  entries : ∀ key : String, m.entries[key]? = s.image key
  watermark : m.watermark.lastModified = .epoch ∨
    ∃ e ∈ s.written, Record.modified e = m.watermark.lastModified
  nothing : m.firstLoad = true → s.rows = ∅

namespace Pictures

/-- The watermark of a picture reaches whatever lies within the skew of all that was written. -/
theorem reaches (h : Pictures m a) (hw : Chronicle (Admissible m.skew) written)
    (hsub : ∀ e ∈ a.written, e ∈ written)
    (hwindow : ∀ e ∈ a.written, (Record.modified e).nanos + m.skew ≤ (Record.modified r).nanos) :
    m.watermark.Reaches m.skew (Record.modified r) := by
  rcases h.watermark with hepoch | ⟨e, he, hmod⟩
  · exact Or.inl hepoch
  · refine Or.inr ?_
    rw [← hmod]
    exact ⟨(ordinary_of_written hw (hsub e he)).1, hwindow e he⟩

/-- **Catching up.** The answer that a later snapshot gives to the watermark of an earlier one turns
the image of the earlier one into that of the later one. -/
theorem catch_up (h : Pictures m a) (ha : a.Sound) (hb : b.Sound) (hl : a.Later m.skew b)
    (hw : Chronicle (Admissible m.skew) written) (hsub : ∀ e ∈ b.written, e ∈ written)
    (hans : Answers b.rows (m.watermark.since m.skew) m.firstLoad batch) (key : String) :
    (merge m.entries batch).entries[key]? = b.image key := by
  have hpast : m.entries[key]? = a.image key := h.entries key
  rw [merge_getElem?]
  unfold Snapshot.image at hpast ⊢
  rcases hn : newestFor key batch with _ | r
  · -- the batch has nothing of the key
    have hnone : ∀ r ∈ batch, Record.key r ≠ key := by
      rintro r hr rfl
      have hsome := newestFor_isSome hr
      rw [hn] at hsome
      cases hsome
    show m.entries[key]? = _
    rcases hrow : b.rows[key]? with _ | r
    · rw [hpast, hl.kept key hrow]
    · by_cases hsince : m.watermark.since m.skew ≤ Record.modified r
      · rcases hans.complete key r hrow hsince with hmem | ⟨hfirst, hdead⟩
        · exact absurd (hb.keyed key r hrow) (hnone r hmem)
        · -- a first load left out a deleted row
          rw [hpast, h.nothing hfirst, Option.filter_some, if_neg (by rw [hdead]; nofun)]
          simp
      · -- the row is older than the answer, so it was there before
        rcases hl.recent key r hrow with hrow' | hwindow
        · rw [hpast, hrow']
        · obtain ⟨hord, hepoch⟩ := ordinary_of_written hw (hsub r (hb.written key r hrow))
          have hreach := h.reaches hw (fun e he => hsub e (hl.written e he)) hwindow
          exact absurd (hreach.since_le hord hepoch) hsince
  · -- what the batch has of the key is its row
    obtain ⟨hmem, hkey⟩ := newestFor_mem hn
    have hrow := (hans.held r hmem).1
    rw [hkey] at hrow
    rw [hrow]
    refine entryAfter_eq_filter fun s hs hsame => ?_
    rw [hpast] at hs
    obtain ⟨hs, -⟩ := Option.filter_eq_some_iff.mp hs
    refine eq_of_sameVersion hw (hsub s (hl.written s (ha.written key s hs)))
      (hsub r (hb.written key r hrow)) ?_ hsame
    rw [ha.keyed key s hs, hkey]

/-- A replica that merges the answer of a later snapshot pictures it. -/
theorem merge [Index R ι] (h : Pictures m a) (ha : a.Sound) (hb : b.Sound)
    (hl : a.Later m.skew b) (hw : Chronicle (Admissible m.skew) written)
    (hsub : ∀ e ∈ b.written, e ∈ written)
    (hans : Answers b.rows (m.watermark.since m.skew) m.firstLoad batch) (ticket : Ticket) :
    Pictures (m.mergeBatch ticket batch).1 b where
  entries := h.catch_up ha hb hl hw hsub hans
  watermark := by
    have hold : m.watermark.lastModified = .epoch ∨
        ∃ e ∈ b.written, Record.modified e = m.watermark.lastModified := by
      rcases h.watermark with hepoch | ⟨e, he, hmod⟩
      · exact Or.inl hepoch
      · exact Or.inr ⟨e, hl.written e he, hmod⟩
    unfold Replica.mergeBatch Replica.absorb Watermark.advance
    rcases ht : latestTime batch with _ | t
    · exact hold
    · simp only
      split
      · obtain ⟨r, hr, hmod⟩ := latestTime_mem ht
        exact Or.inr ⟨r, hb.written _ r (hans.held r hr).1, hmod⟩
      · exact hold
  nothing := nofun

/-- A replica that was reset pictures the empty table. -/
theorem reset [Index R ι] (m : Replica R ι) : Pictures m.reset ({} : Snapshot R) where
  entries key := by
    unfold Replica.reset Snapshot.image
    simp
  watermark := Or.inl rfl
  nothing _ := rfl

theorem alike {m' : Replica R ι} (h : Pictures m a) (hm : m.Alike m') : Pictures m' a where
  entries key := by
    rw [hm.entries]
    exact h.entries key
  watermark := by
    rw [hm.watermark]
    exact h.watermark
  nothing hf := by
    rw [hm.firstLoad] at hf
    exact h.nothing hf

end Pictures

end

end GovernanceCache
