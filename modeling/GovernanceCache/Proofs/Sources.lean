import GovernanceCache.Namespaces
import GovernanceCache.Proofs.Snapshots

/-!
# Sources

A source is a table with everything that was written to it, and the snapshots from which pulls
selected their rows.

1. `Source.Lawful` holds of every source that is written to as allowed, and from which pulls select.
2. `Source.Follows` says that a replica pictures an earlier snapshot, which is the base of what the
   pulls under way selected. Writes, selections and steps that leave the replica alike keep the
   base, a reset makes it the empty snapshot, and a merge the one from which its call selected.
-/

namespace GovernanceCache

variable {R ι : Type}

/-- A table that a store keeps. -/
structure Source (R : Type) where
  table : Table R := {}
  /-- Every row that was written to the table, the newest first. -/
  written : List R := []
  /-- The snapshot from which the pull of a call selected its rows. -/
  selected : Nat → Option (Snapshot R) := fun _ => none

namespace Source

/-- The table as it is. -/
def present (o : Source R) : Snapshot R := { rows := o.table.rows, written := o.written }

/-- The pull of a call selects its rows. -/
def select (o : Source R) (call : Nat) : Source R :=
  { o with selected := fun n => if n = call then some o.present else o.selected n }

variable [Record R]

/-- A row is written to the table. -/
inductive Write (skew : Span) (o : Source R) : Source R → Prop
  /-- A row is inserted or replaced. -/
  | put (r : R) (h : Admissible skew o.written r) :
    Write skew o { o with table := o.table.put r, written := r :: o.written }
  /-- The live row of a key is deleted. -/
  | delete (key : String) (time : Instant) (r : R) (hr : o.table.rows[key]? = some r)
    (hv : Record.valid r = true) (h : Admissible skew o.written (Table.buried time r)) :
    Write skew o
      { o with
        table := (o.table.delete key time).1
        written := Table.buried time r :: o.written }

/-- A call selected from the snapshot, and the batch answers its ticket from there. -/
def Answered (o : Source R) (call : Nat) (ticket : Ticket) (batch : List R) : Prop :=
  ∃ snapshot, o.selected call = some snapshot ∧
    Answers snapshot.rows ticket.since ticket.firstLoad batch

/-- What holds of every source. -/
structure Lawful (skew : Span) (o : Source R) : Prop where
  admissible : Chronicle (Admissible skew) o.written
  sound : o.present.Sound
  /-- Calls select from the table as it was at some moment. -/
  past : ∀ call snapshot, o.selected call = some snapshot →
    snapshot.Sound ∧ snapshot.Later skew o.present

/-- The replica pictures the base, and whatever the pulls under way selected from is later. -/
structure Follows (o : Source R) (m : Replica R ι) (base : Snapshot R) (pulls : Nat → Prop) :
    Prop where
  sound : base.Sound
  past : base.Later m.skew o.present
  pictures : Pictures m base
  ahead : ∀ call, pulls call → ∀ snapshot, o.selected call = some snapshot →
    base.Later m.skew snapshot

variable {o o' : Source R} {skew : Span} {call n : Nat} {snapshot base : Snapshot R}
  {m m' : Replica R ι} {pulls pulls' : Nat → Prop} {ticket : Ticket} {batch : List R}

omit [Record R] in
theorem select_selected (o : Source R) (call n : Nat) :
    (o.select call).selected n = if n = call then some o.present else o.selected n := rfl

omit [Record R] in
/-- Who selected before keeps its snapshot. -/
theorem selected_select (hnone : o.selected call = none) (h : o.selected n = some snapshot) :
    (o.select call).selected n = some snapshot := by
  rw [select_selected, if_neg, h]
  rintro rfl
  rw [hnone] at h
  cases h

omit [Record R] in
theorem of_selected_select (h : (o.select call).selected n = some snapshot) :
    n = call ∧ snapshot = o.present ∨ o.selected n = some snapshot := by
  rw [select_selected] at h
  split at h
  · exact .inl ⟨‹_›, (Option.some.inj h).symm⟩
  · exact .inr h

theorem Answered.select (h : o.Answered n ticket batch) (hnone : o.selected call = none) :
    (o.select call).Answered n ticket batch := by
  obtain ⟨snapshot, hs, hans⟩ := h
  exact ⟨snapshot, selected_select hnone hs, hans⟩

/-- A write puts an admissible row under its key, and nobody selects. -/
theorem Write.present_eq [LawfulRecord R] (h : Write skew o o') (hs : o.present.Sound) :
    o'.selected = o.selected ∧
      ∃ r, Admissible skew o.written r ∧ o'.present = o.present.write r := by
  cases h with
  | put r hadm => exact ⟨rfl, r, hadm, rfl⟩
  | delete key time r hr hv hadm =>
    refine ⟨rfl, Table.buried time r, hadm, ?_⟩
    unfold present Snapshot.write
    rw [Table.delete_rows o.table hs.keyed time hr hv]
    rfl

namespace Lawful

theorem start (skew : Span) : Lawful skew ({} : Source R) where
  admissible := trivial
  sound := .empty
  past call snapshot h := by cases h

theorem write [LawfulRecord R] (h : Lawful skew o) (hw : Write skew o o') : Lawful skew o' := by
  obtain ⟨hsel, r, hadm, hnow⟩ := hw.present_eq h.sound
  refine ⟨?_, ?_, ?_⟩
  · rw [show o'.written = r :: o.written from congrArg Snapshot.written hnow]
    exact ⟨hadm, h.admissible⟩
  · rw [hnow]
    exact h.sound.write r
  · intro call snapshot hs
    rw [hsel] at hs
    obtain ⟨hsound, hpast⟩ := h.past call snapshot hs
    rw [hnow]
    exact ⟨hsound, hpast.trans (Snapshot.later_write hadm)⟩

theorem select (h : Lawful skew o) (call : Nat) : Lawful skew (o.select call) := by
  refine ⟨h.admissible, h.sound, ?_⟩
  intro n snapshot hs
  rcases of_selected_select hs with ⟨-, rfl⟩ | hs
  · exact ⟨h.sound, .refl _ _⟩
  · exact h.past n snapshot hs

end Lawful

namespace Follows

theorem write [LawfulRecord R] (h : o.Follows m base pulls) (hs : o.present.Sound)
    (hw : Write m.skew o o') : o'.Follows m base pulls := by
  obtain ⟨hsel, r, hadm, hnow⟩ := hw.present_eq hs
  refine ⟨h.sound, ?_, h.pictures, ?_⟩
  · rw [hnow]
    exact h.past.trans (Snapshot.later_write hadm)
  · rw [hsel]
    exact h.ahead

theorem select (h : o.Follows m base pulls) (call : Nat) :
    (o.select call).Follows m base pulls := by
  refine ⟨h.sound, h.past, h.pictures, ?_⟩
  intro n hn snapshot hs
  rcases of_selected_select hs with ⟨-, rfl⟩ | hs
  · exact h.past
  · exact h.ahead n hn snapshot hs

/-- The replica stays alike, and pulls that come up have not selected. -/
theorem alike (h : o.Follows m base pulls) (hm : m.Alike m')
    (hp : ∀ call, pulls' call → pulls call ∨ o.selected call = none) :
    o.Follows m' base pulls' := by
  refine ⟨h.sound, hm.skew ▸ h.past, h.pictures.alike hm, ?_⟩
  intro call hcall snapshot hs
  rw [hm.skew]
  rcases hp call hcall with hwas | hnone
  · exact h.ahead call hwas snapshot hs
  · rw [hnone] at hs
    cases hs

variable [Index R ι]

/-- A replica that was reset begins anew, and so do the pulls under way. -/
theorem reset (o : Source R) (m : Replica R ι) (pulls : Nat → Prop) :
    o.Follows m.reset ({} : Snapshot R) pulls where
  sound := .empty
  past := .of_empty _ _
  pictures := .reset m
  ahead _ _ _ _ := .of_empty _ _

/-- A pull that merges its answer leaves the replica with what its call selected from. No other pull
is under way then. -/
theorem merge (h : o.Follows m base pulls) (hl : o.Lawful m.skew) (hcall : pulls call)
    (hs : o.selected call = some snapshot) (ticket : Ticket)
    (hans : Answers snapshot.rows (m.watermark.since m.skew) m.firstLoad batch)
    (hp : ∀ call, ¬ pulls' call) : o.Follows (m.mergeBatch ticket batch).1 snapshot pulls' := by
  obtain ⟨hsound, hpast⟩ := hl.past call snapshot hs
  refine ⟨hsound, hpast, ?_, fun call hcall => absurd hcall (hp call)⟩
  exact h.pictures.merge h.sound hsound (h.ahead call hcall snapshot hs) hl.admissible
    hpast.written hans ticket

end Follows

end Source

end GovernanceCache
