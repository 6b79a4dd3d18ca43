import GovernanceCache.Refresher
import GovernanceCache.Waiting

/-!
# Callers of one replica

A desk is one replica with the callers that refresh it. Callers enter, the store answers the pulls
of leaders, callers are polled or dropped, and the replica is cleared and closed, in any order. A
thorough caller refreshes a second time after a shared or a discarded result. Several callers may go
by one name.

One thing happens at a time. A caller is polled to the point where it waits again, and to enter, to
close a pull, to clear and to close the replica are each one step.
-/

namespace GovernanceCache

/-- Who calls at a desk, and how. -/
structure Desk.Client where
  name : String
  /-- A shared or a discarded result is followed by a second refresh. -/
  thorough : Bool := false
  /-- The part played in a refresh is of interest only if that succeeds. -/
  strict : Bool := false
deriving DecidableEq, Repr

/-- A caller that waits at a desk. -/
structure Desk.Caller (R : Type) where
  client : Desk.Client
  /-- Where its refresh stands. -/
  stage : Stage Unit
  /-- The answer of the store to its own pull, once it is there; a follower has no use for it. -/
  answer : Option (Answer R)

/-- What happens at a desk. -/
inductive Desk.Event (R : Type) where
  /-- The store was asked on behalf of a caller. -/
  | asked (client : Desk.Client) (ticket : Ticket)
  /-- A pull changed the entry of a key. -/
  | changed (change : Change R)
  /-- A caller ended. -/
  | ended (client : Desk.Client) (refreshed : Refreshed)

def Desk.Event.isEnded {R : Type} : Desk.Event R → Bool
  | .ended .. => true
  | _ => false

/-- A replica and its callers, in the order in which they entered. -/
structure Desk (R ι : Type) where
  refresher : Refresher R ι
  waiting : List (Desk.Caller R) := []
  /-- The wall clock. -/
  now : Instant

namespace Desk

variable {R ι : Type} [Record R] [Index R ι]

def replica (d : Desk R ι) : Replica R ι := d.refresher.replica

def mapReplica (d : Desk R ι) (f : Replica R ι → Replica R ι) : Desk R ι :=
  { d with refresher := { d.refresher with replica := f d.replica } }

/-- A refresh begins: the caller waits for the store or for another caller, or it ends at once. The
answer of the store may be at hand. -/
def begin (now : Instant) (refresher : Refresher R ι) (client : Client)
    (answer : Option (Answer R)) : Refresher R ι × Option (Caller R) × List (Event R) :=
  let (refresher, entry) := refresher.enter now
  match entry with
  | .pull call ticket =>
    (refresher, some { client, stage := .pulling call ticket (), answer }, [.asked client ticket])
  | .follow call => (refresher, some { client, stage := .following call, answer }, [])
  | .refused result => (refresher, none, [.ended client ⟨.leader, result⟩])

def enter (d : Desk R ι) (client : Client) (answer : Option (Answer R)) :
    Desk R ι × List (Event R) :=
  let (refresher, stays, events) := begin d.now d.refresher client answer
  ({ d with refresher, waiting := d.waiting ++ stays.toList }, events)

def isWaiting (d : Desk R ι) (name : String) : Bool := d.waiting.any fun c => c.client.name == name

/-- The answer of the store to the caller's own pull can be supplied under the name. -/
def Caller.isOpen (name : String) (c : Caller R) : Bool :=
  c.client.name == name && c.answer.isNone

/-- The store answers the pull of a caller, once for each; absent if no caller of the name is open
to it. -/
def supply? (d : Desk R ι) (name : String) (answer : Answer R) : Option (Desk R ι) :=
  (Waiting.changeLast? (Caller.isOpen name) (fun c => { c with answer := some answer })
    d.waiting).map fun waiting => { d with waiting }

/-- A dropped caller abandons the call that it leads. -/
def release (refresher : Refresher R ι) (c : Caller R) : Refresher R ι :=
  match c.stage with
  | .pulling call _ _ => refresher.abandon call
  | .following _ => refresher

/-- Drops the callers of a name. -/
def cancel (d : Desk R ι) (name : String) : Desk R ι :=
  { d with
    refresher := (d.waiting.filter fun c => c.client.name == name).foldl release d.refresher
    waiting := d.waiting.filter fun c => c.client.name != name }

/-- The refresh of a caller ended: the caller ends, or refreshes a second time. -/
def conclude (now : Instant) (refresher : Refresher R ι) (client : Client) (r : Refreshed) :
    Refresher R ι × Option (Caller R) × List (Event R) :=
  if client.thorough && r.needsAgain then
    begin now refresher { client with thorough := false } none
  else (refresher, none, [.ended client r])

/-- Polls one caller; nothing happens if it has to wait on. -/
def pollCaller (now : Instant) (refresher : Refresher R ι) (c : Caller R) :
    Refresher R ι × Option (Caller R) × List (Event R) :=
  match c.stage, c.answer with
  | .pulling call ticket _, some answer =>
    let (refresher, pulled) := refresher.settle call ticket answer
    let (refresher, stays, events) :=
      conclude now refresher c.client ⟨.leader, Refresher.outcomeOf pulled⟩
    (refresher, stays, (pulled.toOption.getD []).map Event.changed ++ events)
  | .following call, _ =>
    match refresher.share? call with
    | some (refresher, result) => conclude now refresher c.client ⟨.follower, result⟩
    | none => (refresher, some c, [])
  | .pulling .., none => (refresher, some c, [])

/-- Polls every waiting caller once. -/
def pollRound (d : Desk R ι) : Desk R ι × List (Event R) :=
  let (refresher, waiting, events) := Waiting.pollAll (pollCaller d.now) d.refresher d.waiting
  ({ d with refresher, waiting }, events)

/-- Polls round by round, at most `rounds` times, until a round ends no caller. -/
def settleRounds : Nat → Desk R ι → List (Event R) → Desk R ι × List (Event R)
  | 0, d, events => (d, events)
  | rounds + 1, d, events =>
    let (d, more) := d.pollRound
    if more.any Event.isEnded then settleRounds rounds d (events ++ more) else (d, events ++ more)

/-- Polls until no caller can end; every round but the last one ends a caller. -/
def settle (d : Desk R ι) : Desk R ι × List (Event R) := settleRounds (d.waiting.length + 1) d []

def clear (d : Desk R ι) : Desk R ι := { d with refresher := d.refresher.clear }

def close (d : Desk R ι) : Desk R ι := d.mapReplica Replica.close

end Desk

end GovernanceCache
