import GovernanceCache.Record
import Std.Data.ExtTreeMap

/-!
# Tables

The rows of one kind as the store keeps them. A deleted row stays, marked as such, with the time of
its deletion. A table counts its pulls, those in flight, and the most that were in flight at once.
-/

namespace GovernanceCache

/-- The rows of one kind and the counts of their pulls. -/
structure Table (R : Type) where
  rows : Std.ExtTreeMap String R := ∅
  /-- The pulls that were begun since the counts were last reset. -/
  pulls : Nat := 0
  /-- The pulls that have not ended. -/
  inFlight : Nat := 0
  /-- The most pulls in flight at once since the counts were last reset. -/
  mostInFlight : Nat := 0

namespace Table

variable {R : Type} [Record R]

/-- Inserts or replaces a row. -/
def put (t : Table R) (r : R) : Table R := { t with rows := t.rows.insert (Record.key r) r }

/-- The row of a key, deleted or not. -/
def get? (t : Table R) (key : String) : Option R := t.rows[key]?

/-- A row as it stays after its deletion. -/
def buried (time : Instant) (r : R) : R := Record.withModified time (Record.withValid false r)

/-- Deletes the live row of a key, and tells whether there was one. -/
def delete (t : Table R) (key : String) (time : Instant) : Table R × Bool :=
  match t.rows[key]? with
  | some r =>
    if Record.valid r then ({ t with rows := t.rows.insert key (buried time r) }, true)
    else (t, false)
  | none => (t, false)

/-- A pull that asks from a time on is answered with the row; a first load leaves out deleted
rows. -/
def isSelected (since : Instant) (firstLoad : Bool) (r : R) : Bool :=
  decide (since ≤ Record.modified r) && (!firstLoad || Record.valid r)

/-- The rows that answer a pull, in order. -/
def select (t : Table R) (since : Instant) (firstLoad : Bool) : List R :=
  Record.sort (t.rows.values.filter (isSelected since firstLoad))

def enter (t : Table R) : Table R :=
  { t with
    pulls := t.pulls + 1
    inFlight := t.inFlight + 1
    mostInFlight := max t.mostInFlight (t.inFlight + 1) }

/-- A pull ends or is dropped. -/
def leave (t : Table R) : Table R := { t with inFlight := t.inFlight - 1 }

def resetCounts (t : Table R) : Table R := { t with pulls := 0, mostInFlight := 0 }

end Table

end GovernanceCache
