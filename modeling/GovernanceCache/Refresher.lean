import GovernanceCache.Replica
import GovernanceCache.SingleFlight.Callers

/-!
# Refreshing a replica

A refresh goes through the flights of the replica's name: its leader opens a pull and closes it with
the store's answer, its followers wait for the leader. A caller that needs to read what was written
before its call refreshes again after a shared or a discarded result.

The flights have a lock of their own, beside the one of the replica. An entry, the end of a pull and
a clear take both, one after the other, and are whole here (`enter`, `settle`, `clear`): they belong
to callers that are polled one at a time. `Crew` takes them apart, for threads that come in between.
-/

namespace GovernanceCache

/-- A replica and the flights through which it is refreshed. -/
structure Refresher (R ι : Type) where
  flights : SingleFlight Outcome
  replica : Replica R ι

/-- What a refreshing caller waits for: its own pull, of which the store keeps a `φ`, or the call of
another caller. -/
inductive Stage (φ : Type) where
  | pulling (call : Nat) (ticket : Ticket) (pull : φ)
  | following (call : Nat)
deriving Repr

/-- How a caller enters a refresh. -/
inductive Entry where
  /-- It leads, and the store is to be asked. -/
  | pull (call : Nat) (ticket : Ticket)
  /-- It follows a call. -/
  | follow (call : Nat)
  /-- It leads, and the replica refused the pull. -/
  | refused (result : Outcome)

namespace Refresher

variable {R ι : Type}

def key (s : Refresher R ι) : String := s.replica.name

/-- A caller enters. A leader that the replica refuses ends its call at once. -/
def enter (s : Refresher R ι) (now : Instant) : Refresher R ι × Entry :=
  let (flights, role, call) := s.flights.enter s.key
  match role with
  | .follower => ({ s with flights }, .follow call)
  | .leader =>
    match s.replica.openPull now with
    | some (replica, ticket) => ({ flights, replica }, .pull call ticket)
    | none =>
      let result : Outcome := .error (.closed s.key)
      ({ s with flights := flights.finish s.key call result }, .refused result)

/-- The outcome of a pull that made changes or failed. -/
def outcomeOf (pulled : Except Fault (List (Change R))) : Outcome := pulled.map fun _ => ()

/-- The leader of a call closes its pull with the store's answer; tells the changes that it made. -/
def settle [Record R] [Index R ι] (s : Refresher R ι) (call : Nat) (ticket : Ticket)
    (answer : Answer R) : Refresher R ι × Except Fault (List (Change R)) :=
  let (replica, pulled) := s.replica.closePull ticket answer
  ({ replica, flights := s.flights.finish s.key call (outcomeOf pulled) }, pulled)

def abandon (s : Refresher R ι) (call : Nat) : Refresher R ι :=
  { s with flights := s.flights.abandon s.key call }

/-- A follower takes the result of its call, if there is one. -/
def share? (s : Refresher R ι) (call : Nat) : Option (Refresher R ι × Outcome) :=
  (s.flights.resultFor s.key call).map fun result =>
    ({ s with replica := s.replica.countShared }, result)

/-- Clears the replica; the next caller leads a call of its own. -/
def clear [Index R ι] (s : Refresher R ι) : Refresher R ι :=
  { replica := s.replica.clear, flights := s.flights.forget s.key }

end Refresher

/-- How a refresh ended: the part of the caller and its result. -/
structure Refreshed where
  role : Role
  result : Outcome
deriving Repr

/-- A caller that is to read what was written before its call has to refresh again. -/
def Refreshed.needsAgain (r : Refreshed) : Bool :=
  r.role == .follower || Outcome.isDiscarded r.result

end GovernanceCache
