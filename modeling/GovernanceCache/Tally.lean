import GovernanceCache.Change
import GovernanceCache.Decimal.Places
import GovernanceCache.Document

/-!
# Statistics and metrics

Two sets of counters of one cache: statistics, which can be reset, and metrics, which cannot. Of the
durations that are measured only the number is kept.
-/

namespace GovernanceCache

structure Tally where
  /-- Pulls that the cache led. -/
  pulls : Nat := 0
  /-- Refreshes that joined another caller's pull. -/
  shared : Nat := 0
  /-- Pulls that failed in the store or brought a malformed record. -/
  failures : Nat := 0
  created : Nat := 0
  updated : Nat := 0
  deleted : Nat := 0
  /-- Records that were the version already held. -/
  unchanged : Nat := 0
  /-- Point reads that found an entry. -/
  hits : Nat := 0
  /-- Point reads that found none. -/
  misses : Nat := 0
deriving DecidableEq, Repr

namespace Tally

def countPull (t : Tally) : Tally := { t with pulls := t.pulls + 1 }

def countShared (t : Tally) : Tally := { t with shared := t.shared + 1 }

def countFailure (t : Tally) : Tally := { t with failures := t.failures + 1 }

def countChange (t : Tally) : ChangeKind → Tally
  | .created => { t with created := t.created + 1 }
  | .updated => { t with updated := t.updated + 1 }
  | .deleted => { t with deleted := t.deleted + 1 }

def countUnchanged (t : Tally) (count : Nat) : Tally := { t with unchanged := t.unchanged + count }

/-- Counts a point read as a hit or a miss. -/
def countRead (t : Tally) (found : Bool) : Tally :=
  if found then { t with hits := t.hits + 1 } else { t with misses := t.misses + 1 }

/-- The share of point reads that found an entry; zero if there were none. -/
def hitRate (t : Tally) : Float :=
  if t.hits + t.misses = 0 then 0 else t.hits.toFloat / (t.hits.toFloat + t.misses.toFloat)

/-- The hit rate with six decimal places. -/
def hitRateText (t : Tally) : String := Decimal.fixed 6 t.hitRate

def toDocument (t : Tally) : Document :=
  .ofFields [("pulls", .integer t.pulls), ("shared", .integer t.shared),
    ("failures", .integer t.failures), ("created", .integer t.created),
    ("updated", .integer t.updated), ("deleted", .integer t.deleted),
    ("unchanged", .integer t.unchanged), ("hits", .integer t.hits), ("misses", .integer t.misses)]

end Tally

/-- The metrics of a cache. A counter that is zero was never touched. -/
structure Meter where
  refreshes : Nat := 0
  refreshesShared : Nat := 0
  refreshFailures : Nat := 0
  mergedCreated : Nat := 0
  mergedUpdated : Nat := 0
  mergedDeleted : Nat := 0
  /-- The number of entries as last published. -/
  entries : Option Nat := none
  /-- The number of pulls whose duration was taken. -/
  latencySamples : Nat := 0
deriving DecidableEq, Repr

namespace Meter

def countRefresh (m : Meter) : Meter := { m with refreshes := m.refreshes + 1 }

def countShared (m : Meter) : Meter := { m with refreshesShared := m.refreshesShared + 1 }

def countFailure (m : Meter) : Meter := { m with refreshFailures := m.refreshFailures + 1 }

def countLatency (m : Meter) : Meter := { m with latencySamples := m.latencySamples + 1 }

/-- Counts merged records of one classification. -/
def countMerged (m : Meter) (kind : ChangeKind) (count : Nat) : Meter :=
  match kind with
  | .created => { m with mergedCreated := m.mergedCreated + count }
  | .updated => { m with mergedUpdated := m.mergedUpdated + count }
  | .deleted => { m with mergedDeleted := m.mergedDeleted + count }

def setEntries (m : Meter) (count : Nat) : Meter := { m with entries := some count }

/-- The metrics that were touched, named with their labels. -/
def readings (m : Meter) (cache : String) : List (String × Nat) :=
  let label := "\x7bcache=" ++ cache ++ "\x7d"
  let counter (name : String) (count : Nat) : List (String × Nat) :=
    if count = 0 then [] else [(name ++ label, count)]
  let merged (kind : ChangeKind) (count : Nat) : List (String × Nat) :=
    if count = 0 then []
    else [("records_merged_total\x7bcache=" ++ cache ++ ",change=" ++ kind.name ++ "\x7d", count)]
  counter "refresh_total" m.refreshes ++
    counter "refresh_shared_total" m.refreshesShared ++
    counter "refresh_failures_total" m.refreshFailures ++
    merged .created m.mergedCreated ++
    merged .updated m.mergedUpdated ++
    merged .deleted m.mergedDeleted ++
    (match m.entries with
      | some count => [("entries" ++ label, count)]
      | none => []) ++
    counter "refresh_latency_ms" m.latencySamples

end Meter

end GovernanceCache
