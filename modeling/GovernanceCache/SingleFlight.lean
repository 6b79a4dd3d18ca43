import Std.Data.ExtTreeMap

/-!
# Single flights

At most one call runs for each key. The first caller of a key leads its call and does the work; the
callers that come while it runs follow it and get its result. A finished call is taken off before
its result is published, so a later caller never joins it. A leader that is dropped abandons its
call; a key can be forgotten, so that the next caller leads a call of its own.
-/

namespace GovernanceCache

/-- How far a call is. -/
inductive Progress (ρ : Type) where
  | running
  | finished (result : ρ)
  | abandoned
deriving DecidableEq, Repr

/-- The part that a caller takes in a call. -/
inductive Role where
  | leader
  | follower
deriving DecidableEq, Repr

/-- The calls of all keys, with results of type `ρ`. -/
structure SingleFlight (ρ : Type) where
  /-- The call that a caller of each key would join. -/
  current : Std.ExtTreeMap String Nat := ∅
  /-- How far each call is, by its number. -/
  progress : Std.ExtTreeMap Nat (Progress ρ) := ∅
  /-- The number of the next call. -/
  next : Nat := 0

namespace SingleFlight

variable {ρ : Type}

/-- A caller enters: it follows the current call of the key, or leads a new one. -/
def enter (flights : SingleFlight ρ) (key : String) : SingleFlight ρ × Role × Nat :=
  match flights.current[key]? with
  | some call => (flights, .follower, call)
  | none =>
    ({ current := flights.current.insert key flights.next
       progress := flights.progress.insert flights.next .running
       next := flights.next + 1 }, .leader, flights.next)

/-- Takes the call off its key, unless a newer call took its place. -/
def unregister (flights : SingleFlight ρ) (key : String) (call : Nat) : SingleFlight ρ :=
  if flights.current[key]? = some call then { flights with current := flights.current.erase key }
  else flights

/-- The leader of a call ends with a result. -/
def finish (flights : SingleFlight ρ) (key : String) (call : Nat) (result : ρ) : SingleFlight ρ :=
  let flights := flights.unregister key call
  { flights with progress := flights.progress.insert call (.finished result) }

/-- The leader of a call is dropped. -/
def abandon (flights : SingleFlight ρ) (key : String) (call : Nat) : SingleFlight ρ :=
  let flights := flights.unregister key call
  { flights with progress := flights.progress.insert call .abandoned }

/-- Forgets the current call of a key; its callers still get its result. -/
def forget (flights : SingleFlight ρ) (key : String) : SingleFlight ρ :=
  { flights with current := flights.current.erase key }

/-- A caller of the key would follow a call. -/
def inFlight (flights : SingleFlight ρ) (key : String) : Bool := flights.current.contains key

def progressOf (flights : SingleFlight ρ) (call : Nat) : Progress ρ :=
  (flights.progress[call]?).getD .abandoned

end SingleFlight

end GovernanceCache
