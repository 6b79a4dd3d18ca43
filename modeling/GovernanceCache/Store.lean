import GovernanceCache.Catalog
import GovernanceCache.Clock
import GovernanceCache.Table

/-!
# Stores

A store in memory with one table for each kind. Its clock stamps every write, and moves on by one
second each time. Pulls can be made slow or made to fail: their answer is settled when they begin,
and is there when their delay is over. Delays count milliseconds.
-/

namespace GovernanceCache

/-- A pull that the store has begun to answer. -/
structure OpenPull (R : Type) where
  answer : Answer R
  /-- When the answer is there. -/
  readyAt : Nat

/-- The tables of every kind, their clock, and how pulls are to be answered. -/
structure Store where
  /-- The time of the next write. -/
  clock : Instant
  /-- The delay of pulls. -/
  latency : Option Nat := none
  /-- Why every pull fails. -/
  failure : Option String := none
  /-- Why the next pull fails. -/
  nextFailure : Option String := none
  tables : ByKind fun k => Table k.Row := .tabulate fun _ => {}

namespace Store

/-- The time at which the clock of a store starts: the 14th of November 2023, 22:13:20. -/
def start : Instant :=
  { Instant.epoch with second := 1700000000, second_ge := by decide, second_le := by decide }

def empty : Store := { clock := start }

def table (s : Store) (k : CacheKind) : Table k.Row := s.tables.get k

/-- The store with the table of a kind changed. -/
def mapTable (s : Store) (k : CacheKind) (f : Table k.Row → Table k.Row) : Store :=
  { s with tables := s.tables.modify k f }

/-! ## Writes -/

/-- Takes the time for a write; fails if there is no second left after it. -/
def tick? (s : Store) : Option (Store × Instant) :=
  (s.clock.add? (Span.seconds 1)).map fun next => ({ s with clock := next }, s.clock)

/-- Moves the clock, unless it would leave its range. -/
def advance (s : Store) (span : Span) : Store :=
  { s with clock := (s.clock.add? span).getD s.clock }

/-- A live record stamped with the time of its write and a revision bound to it. -/
def stamped {R : Type} [Record R] (time : Instant) (r : R) : R :=
  let revision := Revision.compose [Record.key r, toString time.micros]
  Record.withRevision revision.text (Record.withValid true (Record.withModified time r))

/-- Stores a record exactly as given. -/
def putRaw (s : Store) (k : CacheKind) (r : k.Row) : Store := s.mapTable k fun t => t.put r

/-- Stores a stamped record, and tells it. -/
def put? (s : Store) (k : CacheKind) (r : k.Row) : Option (Store × k.Row) :=
  s.tick?.map fun (s, time) => (s.putRaw k (stamped time r), stamped time r)

/-- Deletes the live row of a key, and tells whether there was one. -/
def delete? (s : Store) (k : CacheKind) (key : String) : Option (Store × Bool) :=
  s.tick?.map fun (s, time) =>
    let (table, found) := (s.table k).delete key time
    (s.mapTable k fun _ => table, found)

/-! ## Pulls -/

/-- How a pull that begins now is answered. A lasting failure comes at once, and leaves the failure
of the next pull for later. -/
def answerNow (s : Store) (k : CacheKind) (since : Instant) (firstLoad : Bool) (now : Nat) :
    Store × OpenPull k.Row :=
  match s.failure with
  | some message => (s, { answer := .error (.unavailable message), readyAt := now })
  | none =>
    let answer := match s.nextFailure with
      | some message => .error (.unavailable message)
      | none => .ok ((s.table k).select since firstLoad)
    ({ s with nextFailure := none }, { answer, readyAt := Clock.wake now (s.latency.getD 0) })

/-- A pull begins. -/
def beginPull (s : Store) (k : CacheKind) (since : Instant) (firstLoad : Bool) (now : Nat) :
    Store × OpenPull k.Row :=
  answerNow (s.mapTable k Table.enter) k since firstLoad now

/-- A pull ends or is dropped. -/
def endPull (s : Store) (k : CacheKind) : Store := s.mapTable k Table.leave

/-- Resets the counts of pulls of every kind. -/
def resetCounts (s : Store) : Store := { s with tables := s.tables.map fun _ t => t.resetCounts }

end Store

end GovernanceCache
