import GovernanceCache.Fault
import GovernanceCache.SingleFlight
import GovernanceCache.Waiting

/-!
# Callers of single flights

Callers wait for a refresh of their key. A leader ends when the result of its work is supplied, a
follower when its leader has ended or was dropped. Several callers may go by one name. Callers are
polled in the order in which they entered, round by round until a round ends none of them.
-/

namespace GovernanceCache.SingleFlight

/-- The fault of a follower whose leader was dropped. -/
def abandonedResult (key : String) : Outcome := .error (.refreshAbandoned key)

/-- What a follower of a call can see: the result of its leader, once there is one. -/
def resultFor (flights : SingleFlight Outcome) (key : String) (call : Nat) : Option Outcome :=
  match flights.progressOf call with
  | .running => none
  | .finished result => some result
  | .abandoned => some (abandonedResult key)

structure Caller where
  name : String
  key : String
  role : Role
  call : Nat
  /-- The result of its own work, once supplied; a follower has no use for it. -/
  supplied : Option Outcome
deriving Repr

structure Ended where
  name : String
  role : Role
  result : Outcome
deriving Repr

/-- The flights and the callers that wait, in the order in which they entered. -/
structure Callers where
  flights : SingleFlight Outcome := {}
  waiting : List Caller := []
  /-- How often work was begun. -/
  runs : Nat := 0

namespace Callers

/-- A caller enters, possibly with the result of its work at hand. -/
def enter (s : Callers) (name key : String) (supplied : Option Outcome) : Callers :=
  let (flights, role, call) := s.flights.enter key
  { flights
    waiting := s.waiting ++ [{ name, key, role, call, supplied }]
    runs := if role = .leader then s.runs + 1 else s.runs }

def isWaiting (s : Callers) (name : String) : Bool := s.waiting.any fun c => c.name == name

/-- The result of the caller's own work can be supplied under the name. -/
def Caller.isOpen (name : String) (c : Caller) : Bool := c.name == name && c.supplied.isNone

/-- Supplies the result of a caller's work, once for each; absent if no caller of the name is open
to it. -/
def supply? (s : Callers) (name : String) (result : Outcome) : Option Callers :=
  (Waiting.changeLast? (Caller.isOpen name) (fun c => { c with supplied := some result })
    s.waiting).map fun waiting => { s with waiting }

/-- A dropped caller abandons the call that it leads. -/
def release (flights : SingleFlight Outcome) (c : Caller) : SingleFlight Outcome :=
  match c.role with
  | .leader => flights.abandon c.key c.call
  | .follower => flights

/-- Drops the callers of a name. -/
def cancel (s : Callers) (name : String) : Callers :=
  { s with
    flights := (s.waiting.filter fun c => c.name == name).foldl release s.flights
    waiting := s.waiting.filter fun c => c.name != name }

/-- Forgets the current call of a key. -/
def forget (s : Callers) (key : String) : Callers := { s with flights := s.flights.forget key }

/-- Polls one caller, which ends or stays. -/
def pollCaller (flights : SingleFlight Outcome) (c : Caller) :
    SingleFlight Outcome × Option Caller × List Ended :=
  let ended (result : Outcome) : List Ended := [{ name := c.name, role := c.role, result }]
  match c.role, c.supplied, flights.resultFor c.key c.call with
  | .leader, some result, _ => (flights.finish c.key c.call result, none, ended result)
  | .follower, _, some result => (flights, none, ended result)
  | _, _, _ => (flights, some c, [])

def pollRound (s : Callers) : Callers × List Ended :=
  let (flights, waiting, ended) := Waiting.pollAll pollCaller s.flights s.waiting
  ({ s with flights, waiting }, ended)

/-- Polls round by round, at most `rounds` times, until a round ends no caller. -/
def settleRounds : Nat → Callers → List Ended → Callers × List Ended
  | 0, s, ended => (s, ended)
  | rounds + 1, s, ended =>
    let (s, more) := s.pollRound
    if more.isEmpty then (s, ended) else settleRounds rounds s (ended ++ more)

/-- Polls until no caller can end; every round but the last one ends a caller. -/
def settle (s : Callers) : Callers × List Ended := settleRounds (s.waiting.length + 1) s []

end Callers

end GovernanceCache.SingleFlight
