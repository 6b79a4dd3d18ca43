import GovernanceCache.Fault
import GovernanceCache.Feed
import GovernanceCache.Index
import GovernanceCache.Kind
import GovernanceCache.Merge
import GovernanceCache.Tally
import GovernanceCache.Watermark

/-!
# Replicas

A replica holds in memory the live records of one kind. It follows its store by pulls. A pull opens
with a ticket that says from when on the store is asked; it closes with the store's answer, which is
merged as a whole or not at all. A clear starts a new generation, and a pull of an older generation
is discarded when it closes.

The contents of a replica lie behind a lock, the closed flag and the metrics beside it. What is done
under the lock is one operation here (`takeTicket`, `absorb`, `reset`), and so is what is done
outside it before (the look at the flag) and after it (`countMerged`, `showSize`). `openPull`,
`closePull`, `clear` and `close` put them together for a caller whom no other thread comes between;
the threads of a `Crew` do them one by one.
-/

namespace GovernanceCache

/-- What an open pull remembers of the replica. -/
structure Ticket where
  /-- The lower bound of the modification times that the store is asked for. -/
  since : Instant
  /-- The replica holds nothing, so that soft deletes may be left out. -/
  firstLoad : Bool
  /-- The generation in which the pull was opened. -/
  generation : Nat
  /-- The wall-clock time at which the pull was opened. -/
  openedAt : Instant
deriving DecidableEq, Repr

/-- The answer of a store to a pull. -/
abbrev Answer (R : Type) : Type := Except StoreFault (List R)

/-- The live records of one kind, with an index of type `ι`. -/
structure Replica (R ι : Type) where
  kind : CacheKind
  /-- The offset, meant to be negative, from which pulls reach back. -/
  skew : Span
  entries : Std.ExtTreeMap String R := ∅
  index : ι
  watermark : Watermark := .zero
  /-- The next pull is a first load. -/
  firstLoad : Bool := true
  /-- The number of clears so far. -/
  generation : Nat := 0
  closed : Bool := false
  feed : Feed (Change R)
  tally : Tally := {}
  meter : Meter := {}

namespace Replica

variable {R ι : Type}

/-- The name of the replica, which is also the topic of its feed. -/
def name (m : Replica R ι) : String := m.kind.name

/-- A replica that holds nothing. -/
def create [Index R ι] (kind : CacheKind) (skew : Span) (buffer : Nat) : Replica R ι :=
  { kind, skew, index := Index.empty R, feed := .create kind.name buffer }

/-! ## Reads -/

/-- Looks an entry up, and counts a hit or a miss. -/
def get (m : Replica R ι) (key : String) : Replica R ι × Option R :=
  let found := m.entries[key]?
  ({ m with tally := m.tally.countRead found.isSome }, found)

/-- Looks several entries up in turn, and keeps those that are there. -/
def getAll (m : Replica R ι) (keys : List String) : Replica R ι × List R :=
  keys.foldl (fun (m, found) key =>
    let (m, r) := m.get key
    (m, found ++ r.toList)) (m, [])

def contains (m : Replica R ι) (key : String) : Bool := m.entries.contains key

/-- Every entry, in the order of the keys. -/
def list (m : Replica R ι) : List R := m.entries.values

def size (m : Replica R ι) : Nat := m.entries.size

/-! ## Pulls -/

/-- A pull takes its ticket, and is counted. -/
def takeTicket (m : Replica R ι) (now : Instant) : Replica R ι × Ticket :=
  ({ m with tally := m.tally.countPull, meter := m.meter.countRefresh },
    { since := m.watermark.since m.skew, firstLoad := m.firstLoad,
      generation := m.generation, openedAt := now })

/-- Opens a pull, unless the replica is closed. -/
def openPull (m : Replica R ι) (now : Instant) : Option (Replica R ι × Ticket) :=
  if m.closed then none else some (m.takeTicket now)

/-- The first malformed record of a batch and what is wrong with it. -/
def defect? [Record R] (batch : List R) : Option (R × String) :=
  batch.findSome? fun r => (Record.defect? r).map fun reason => (r, reason)

/-- What becomes of a pull: its batch, or the fault that it ends with. -/
def verdict [Record R] (m : Replica R ι) (ticket : Ticket) (answer : Answer R) :
    Except Fault (List R) :=
  match answer with
  | .error fault => .error (.ofStore m.name fault)
  | .ok batch =>
    match defect? batch with
    | some (r, reason) => .error (.invalidRecord m.name (Record.key r) reason)
    | none =>
      if m.closed then .error (.closed m.name)
      else if m.generation = ticket.generation then .ok batch
      else .error (.refreshDiscarded m.name)

/-- A pull ends with a fault, and its duration is taken. -/
def giveUp (m : Replica R ι) (fault : Fault) : Replica R ι :=
  if fault.isFailure then
    { m with tally := m.tally.countFailure, meter := m.meter.countFailure.countLatency }
  else { m with meter := m.meter.countLatency }

/-- The statistics after a merge. -/
def tallyMerged (tally : Tally) (merged : Merged R) : Tally :=
  (merged.changes.foldl (fun t c => t.countChange c.kind) tally).countUnchanged merged.unchanged

def countKind (changes : List (Change R)) (kind : ChangeKind) : Nat :=
  (changes.filter fun c => c.kind == kind).length

/-- Takes over a merged batch: entries, index, subscribers and watermark move together. -/
def absorb [Index R ι] (m : Replica R ι) (ticket : Ticket) (latest : Option Instant)
    (merged : Merged R) : Replica R ι :=
  { m with
    entries := merged.entries
    index := Index.observeAll m.index merged.changes
    feed := merged.changes.foldl (fun feed c => (feed.publish c).1) m.feed
    watermark := m.watermark.advance latest ticket.openedAt
    firstLoad := false
    tally := tallyMerged m.tally merged }

/-- A batch is merged into the replica; tells the changes that it made. -/
def mergeBatch [Record R] [Index R ι] (m : Replica R ι) (ticket : Ticket) (batch : List R) :
    Replica R ι × List (Change R) :=
  let merged := merge m.entries batch
  (m.absorb ticket (latestTime batch) merged, merged.changes)

/-- Counts the changes of a merge in the metrics. -/
def countMerged (m : Replica R ι) (changes : List (Change R)) : Replica R ι :=
  let count (kind : ChangeKind) (meter : Meter) : Meter :=
    meter.countMerged kind (countKind changes kind)
  { m with meter := count .deleted (count .updated (count .created m.meter)) }

/-- Publishes a number of entries. -/
def showSize (m : Replica R ι) (size : Nat) : Replica R ι :=
  { m with meter := m.meter.setEntries size }

/-- A pull that merged publishes the number of entries, and its duration is taken. -/
def finishPull (m : Replica R ι) (size : Nat) : Replica R ι :=
  { m with meter := (m.meter.setEntries size).countLatency }

/-- What a pull does after it merged: the metrics are told its changes and the number of entries. -/
def publish (m : Replica R ι) (changes : List (Change R)) : Replica R ι :=
  (m.countMerged changes).finishPull m.size

/-- Closes a pull with the store's answer; tells the changes that it made, or why it made none. -/
def closePull [Record R] [Index R ι] (m : Replica R ι) (ticket : Ticket) (answer : Answer R) :
    Replica R ι × Except Fault (List (Change R)) :=
  match m.verdict ticket answer with
  | .ok batch =>
    let (m, changes) := m.mergeBatch ticket batch
    (m.publish changes, .ok changes)
  | .error fault => (m.giveUp fault, .error fault)

/-- Counts a refresh that joined another caller's pull. -/
def countShared (m : Replica R ι) : Replica R ι :=
  { m with tally := m.tally.countShared, meter := m.meter.countShared }

/-! ## Clearing and closing -/

/-- Drops every entry and starts a new generation. -/
def reset [Index R ι] (m : Replica R ι) : Replica R ι :=
  { m with
    entries := ∅
    index := Index.empty R
    watermark := .zero
    firstLoad := true
    generation := m.generation + 1 }

/-- Clears the replica, and publishes that it holds nothing. -/
def clear [Index R ι] (m : Replica R ι) : Replica R ι := m.reset.showSize 0

/-- Refuses pulls from now on. -/
def bar (m : Replica R ι) : Replica R ι := { m with closed := true }

/-- Lets every subscriber go. -/
def dismiss (m : Replica R ι) : Replica R ι := { m with feed := m.feed.close }

/-- Refuses pulls from now on, and lets every subscriber go. -/
def close (m : Replica R ι) : Replica R ι := m.bar.dismiss

def resetTally (m : Replica R ι) : Replica R ι := { m with tally := {} }

/-- Adds a subscriber to the feed and tells its number; fails if its inbox would be too large. -/
def subscribe? (m : Replica R ι) : Option (Replica R ι × Nat) :=
  m.feed.subscribe?.map fun (feed, id) => ({ m with feed }, id)

end Replica

end GovernanceCache
