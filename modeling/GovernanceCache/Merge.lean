import GovernanceCache.Change
import GovernanceCache.Record
import Std.Data.ExtTreeMap

/-!
# Merging a batch

A batch of pulled records is merged into the entries of a cache, which are live records by key. Of
several versions of a key the newest counts, the last one among equally new ones. They are applied
in the order of records: a live record creates or replaces the entry of its key unless it is the
version already held, and a soft delete removes the entry if there is one.
-/

namespace GovernanceCache

variable {R : Type} [Record R]

/-- Adds a record to the newest versions by key. -/
def keepNewest (newest : Std.ExtTreeMap String R) (r : R) : Std.ExtTreeMap String R :=
  match newest[Record.key r]? with
  | some seen =>
    if Record.modified r < Record.modified seen then newest else newest.insert (Record.key r) r
  | none => newest.insert (Record.key r) r

/-- The newest version of each key of a batch. -/
def newestOf (batch : List R) : Std.ExtTreeMap String R := batch.foldl keepNewest ∅

/-- The newest versions of a batch in the order in which they are applied. -/
def arrange (batch : List R) : List R := Record.sort (newestOf batch).values

/-- The largest modification time of a batch. -/
def latestTime (batch : List R) : Option Instant :=
  batch.foldl (fun latest r =>
    match latest with
    | some t => some (max t (Record.modified r))
    | none => some (Record.modified r)) none

/-- The entries while a batch is merged, what changed so far, and the count of records that were
the version already held. -/
structure Merged (R : Type) where
  entries : Std.ExtTreeMap String R
  changes : List (Change R) := []
  unchanged : Nat := 0

/-- Applies one record. -/
def Merged.apply (m : Merged R) (r : R) : Merged R :=
  match m.entries[Record.key r]?, Record.valid r with
  | some old, true =>
    if Record.sameVersion old r then { m with unchanged := m.unchanged + 1 }
    else
      { m with
        entries := m.entries.insert (Record.key r) r
        changes := m.changes ++ [⟨.updated, some old, r⟩] }
  | none, true =>
    { m with
      entries := m.entries.insert (Record.key r) r
      changes := m.changes ++ [⟨.created, none, r⟩] }
  | some old, false =>
    { m with
      entries := m.entries.erase (Record.key r)
      changes := m.changes ++ [⟨.deleted, some old, r⟩] }
  | none, false => m

/-- Merges a batch into entries. -/
def merge (entries : Std.ExtTreeMap String R) (batch : List R) : Merged R :=
  (arrange batch).foldl Merged.apply { entries }

end GovernanceCache
