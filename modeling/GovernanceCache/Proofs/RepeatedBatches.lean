import GovernanceCache.Proofs.BatchOutcome
import GovernanceCache.Record.Service
import GovernanceCache.Services
import Mathlib.Data.List.Nodup

/-!
# Batches that come again

A batch that is merged a second time changes nothing: what it left behind is what it makes of it. A
batch without two versions of a key at one time may come in any order.

1. An entry that a record has settled does not move by that record again (`changeOf?_entryAfter`).
2. Without ties the record that prevails is one that is not older than any other, which says nothing
   of their order (`newestFor_eq_some_of_untied`).
-/

namespace GovernanceCache

variable {R ι : Type} [Record R] {key : String} {r : R} {batch batch' : List R}

/-! ## The same batch again -/

theorem changeOf?_entryAfter (old : Option R) (r : R) : changeOf? (entryAfter old r) r = none := by
  unfold entryAfter changeOf?
  rcases hv : Record.valid r with _ | _
  · rfl
  · rcases old with _ | s
    · simp [sameVersion_refl]
    · by_cases hsame : Record.sameVersion s r = true
      · simp [hsame]
      · simp [hsame, sameVersion_refl]

theorem merge_again_changes (entries : Std.ExtTreeMap String R) (batch : List R) :
    (merge (merge entries batch).entries batch).changes = [] := by
  rw [merge_changes, List.filterMap_eq_nil_iff]
  intro r hr
  rw [merge_getElem?_of_prevails entries (mem_arrange_iff.mp hr)]
  exact changeOf?_entryAfter _ r

theorem merge_again_entries (entries : Std.ExtTreeMap String R) (batch : List R) :
    (merge (merge entries batch).entries batch).entries = (merge entries batch).entries := by
  obtain ⟨-, hent, -⟩ := merge_replays (merge entries batch).entries batch
  rw [← hent, merge_again_changes]
  rfl

theorem Watermark.advance_again (w : Watermark) (latest : Option Instant)
    (fetched again : Instant) :
    ((w.advance latest fetched).advance latest again).lastModified =
      (w.advance latest fetched).lastModified := by
  unfold advance
  rcases latest with _ | t
  · rfl
  · by_cases h : w.lastModified < t
    · simp [h]
    · simp [h]

/-! ## The batch in another order -/

/-- No two records of the batch are versions of one key at one time. -/
def Untied (batch : List R) : Prop :=
  ∀ a ∈ batch, ∀ b ∈ batch, Record.key a = Record.key b → Record.modified a = Record.modified b →
    a = b

theorem newestFor_eq_some_of_untied (h : Untied batch) : newestFor key batch = some r ↔
    r ∈ batch ∧ Record.key r = key ∧
      ∀ s ∈ batch, Record.key s = key → Record.modified s ≤ Record.modified r := by
  constructor
  · intro hr
    obtain ⟨hmem, rfl⟩ := newestFor_mem hr
    refine ⟨hmem, rfl, fun s hs hkey => ?_⟩
    rw [← hkey] at hr
    exact le_newestFor hs hr
  · rintro ⟨hmem, rfl, hmax⟩
    obtain ⟨n, hn⟩ := Option.isSome_iff_exists.mp (newestFor_isSome hmem)
    obtain ⟨hn', hkey⟩ := newestFor_mem hn
    have htime := Instant.le_antisymm (le_newestFor hmem hn) (hmax n hn' hkey)
    rw [hn, h r hmem n hn' hkey.symm htime]

variable (h : Untied batch) (hp : batch'.Perm batch)

include h hp

theorem Untied.perm : Untied batch' := fun a ha b hb => h a (hp.mem_iff.mp ha) b (hp.mem_iff.mp hb)

theorem newestFor_perm (key : String) : newestFor key batch' = newestFor key batch := by
  ext r
  rw [newestFor_eq_some_of_untied (h.perm hp), newestFor_eq_some_of_untied h]
  simp only [hp.mem_iff]

theorem arrange_perm : arrange batch' = arrange batch := by
  have hnewest : newestOf batch' = newestOf batch := by
    ext key r
    rw [newestOf_getElem?, newestOf_getElem?, newestFor_perm h hp]
  unfold arrange
  rw [hnewest]

theorem merge_perm (entries : Std.ExtTreeMap String R) :
    merge entries batch' = merge entries batch := by
  unfold merge
  rw [arrange_perm h hp]

omit h in
theorem latestTime_perm : latestTime batch' = latestTime batch := by
  ext t
  rw [latestTime_eq_some, latestTime_eq_some]
  simp only [hp.mem_iff]

omit h hp

/-! ## Closing pulls -/

namespace Replica

variable [Index R ι]

/-- **Batches that come again.** A sound batch that closes a pull in time is merged; in a second
pull it moves neither the entries, nor the index, nor the time of the watermark, and tells nothing.
If it has no ties, the replica and what it tells are the same for every order of its records. -/
theorem closePull_again (m : Replica R ι) (ticket again : Ticket) (batch : List R)
    (hsound : ∀ r ∈ batch, Record.defect? r = none) (hopen : m.closed = false)
    (hticket : m.generation = ticket.generation) (hagain : m.generation = again.generation) :
    let first := m.closePull ticket (.ok batch)
    let second := first.1.closePull again (.ok batch)
    (∃ told, first.2 = .ok told) ∧
      (second.2 = .ok [] ∧ second.1.entries = first.1.entries ∧ second.1.index = first.1.index ∧
        second.1.watermark.lastModified = first.1.watermark.lastModified ∧
        second.1.feed = first.1.feed) ∧
      (Untied batch → ∀ batch', batch'.Perm batch → m.closePull ticket (.ok batch') = first) := by
  intro first second
  have hdefect := defect?_eq_none.mpr hsound
  have hfirst : first = _ := closePull_of_ok (verdict_eq_ok.mpr ⟨rfl, hdefect, hopen, hticket⟩)
  have hentries : first.1.entries = (merge m.entries batch).entries := by rw [hfirst]; rfl
  have hverdict : first.1.verdict again (.ok batch) = .ok batch := by
    refine verdict_eq_ok.mpr ⟨rfl, hdefect, ?_, ?_⟩
    · rw [hfirst]
      exact hopen
    · rw [hfirst]
      exact hagain
  have hsecond : second = _ := closePull_of_ok hverdict
  have hnone : (merge first.1.entries batch).changes = [] := by
    rw [hentries, merge_again_changes]
  refine ⟨⟨_, congrArg Prod.snd hfirst⟩, ⟨?_, ?_, ?_, ?_, ?_⟩, ?_⟩
  · rw [hsecond, hnone]
  · rw [hsecond]
    show (merge first.1.entries batch).entries = _
    rw [hentries, merge_again_entries]
  · rw [hsecond]
    show Index.observeAll first.1.index (merge first.1.entries batch).changes = _
    rw [hnone]
    rfl
  · rw [hsecond]
    show (first.1.watermark.advance (latestTime batch) again.openedAt).lastModified = _
    rw [hfirst]
    exact Watermark.advance_again _ _ _ _
  · rw [hsecond]
    show (merge first.1.entries batch).changes.foldl _ first.1.feed = _
    rw [hnone]
    rfl
  · intro hu batch' hp
    have hdefect' : defect? batch' = none :=
      defect?_eq_none.mpr fun r hr => hsound r (hp.mem_iff.mp hr)
    have hmerge : m.mergeBatch ticket batch' = m.mergeBatch ticket batch := by
      unfold mergeBatch
      rw [merge_perm hu hp, latestTime_perm hp]
    rw [closePull_of_ok (verdict_eq_ok.mpr ⟨rfl, hdefect', hopen, hticket⟩), hmerge, merge_perm hu hp]
    exact hfirst.symm

/-- A service is renamed and deleted within one batch, and another one falls back to an older
version. -/
theorem mixed_batch_again :
    let one : Instant := ⟨1, 0, by decide, by decide, by decide⟩
    let two : Instant := ⟨2, 0, by decide, by decide, by decide⟩
    let service (id name : String) (modified : Instant) : Service :=
      { id, name, namespaceName := "shop", modified }
    let batch := [{ service "a" "cart" two with valid := false }, service "a" "till" one,
      service "b" "till" one]
    let m : Replica Service ServiceIndex :=
      { create .services (.seconds (-2)) 4 with
        entries := .ofList [("a", service "a" "cart" one), ("b", service "b" "door" two)] }
    let ticket : Ticket := ⟨.epoch, true, 0, two⟩
    let first := m.closePull ticket (.ok batch)
    (∀ r ∈ batch, Record.defect? r = none) ∧ Untied batch ∧ first.1.entries.keys = ["b"] ∧
      (first.1.closePull ticket (.ok batch)).2 = .ok [] ∧
      m.closePull ticket (.ok batch.reverse) = first := by
  intro one two service batch m ticket first
  have hsound : ∀ r ∈ batch, Record.defect? r = none := by decide
  have hu : Untied batch := by
    intro a ha b hb hkey htime
    have hd : (batch.map fun r => (Record.key r, Record.modified r)).Nodup := by decide
    exact List.inj_on_of_nodup_map hd ha hb (Prod.ext hkey htime)
  obtain ⟨-, ⟨hagain, -⟩, horder⟩ := closePull_again m ticket ticket batch hsound rfl rfl rfl
  exact ⟨hsound, hu, by cbv, hagain, horder hu _ batch.reverse_perm⟩

end Replica

end GovernanceCache
