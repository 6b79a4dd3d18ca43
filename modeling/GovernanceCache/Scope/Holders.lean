import GovernanceCache.Clock
import GovernanceCache.Scope
import Std.Data.ExtTreeMap
import Std.Data.ExtTreeSet

/-!
# Holders of a scope

A scope is held by its owner, by the guards of operations and by running stops. Signals are held
without keeping the scope. A wait for the signal ends when a stop has begun or when nobody holds the
scope any more. After each step, stops and waits that can end do so.
-/

namespace GovernanceCache.Scope

/-- A stop that waits. -/
structure Waiter where
  name : String
  stop : Stop
  /-- The notices there had been when it last looked at the count; none before its first look. -/
  seen : Option Nat := none
deriving DecidableEq, Repr

/-- A scope, who holds it, and who waits for it. -/
structure Holders where
  scope : Scope := {}
  /-- The clock. -/
  now : Nat := 0
  /-- The owner holds the scope. -/
  owned : Bool := true
  /-- The guards of operations. -/
  guards : Std.ExtTreeSet String := ∅
  /-- The signals that were made. -/
  signals : Std.ExtTreeSet String := ∅
  /-- The waits for the signal, and whether each has ended. -/
  waits : Std.ExtTreeMap String Bool := ∅
  /-- The notices given so far that no operation is left. -/
  notices : Nat := 0
  /-- The stops that wait. -/
  stops : List Waiter := []

namespace Holders

def signal (h : Holders) (name : String) : Holders := { h with signals := h.signals.insert name }

/-- Begins to wait for the signal. -/
def wait (h : Holders) (name : String) : Holders := { h with waits := h.waits.insert name false }

/-- Registers an operation under a new guard. -/
def register (h : Holders) (name : String) : Holders :=
  if h.guards.contains name then h
  else { h with guards := h.guards.insert name, scope := h.scope.register }

/-- Gives up a guard, with notice if it was the last one. -/
def release (h : Holders) (name : String) : Holders :=
  if h.guards.contains name then
    { h with
      guards := h.guards.erase name
      scope := h.scope.release
      notices := if h.scope.active = 1 then h.notices + 1 else h.notices }
  else h

/-- Begins a stop, which ends at once if it is not the first. -/
def stop (h : Holders) (name : String) (grace : Nat) : Holders × List (String × Bool) :=
  match h.scope.beginStop h.now grace with
  | (scope, some stop) => ({ h with scope, stops := h.stops ++ [{ name, stop }] }, [])
  | (scope, none) => ({ h with scope }, [(name, true)])

/-- Sleeps while the clock moves. -/
def sleep (h : Holders) (span : Nat) : Holders := { h with now := Clock.wake h.now span }

/-- The owner gives the scope up. -/
def disown (h : Holders) : Holders := { h with owned := false }

/-- Nobody holds the scope. -/
def isLost (h : Holders) : Bool := !h.owned && h.stops.isEmpty && h.guards.isEmpty

/-- How a stop ends, if it ends now. It sees the count only if there was notice since its last look;
its time runs out in any case. -/
def resultOf (h : Holders) (w : Waiter) : Option Bool :=
  if w.seen = some h.notices then
    if w.stop.deadline ≤ h.now then some false else none
  else w.stop.result? h.scope h.now

/-- How the stops end that can end now. -/
def endedStops (h : Holders) : List (String × Bool) :=
  h.stops.filterMap fun w => (h.resultOf w).map fun success => (w.name, success)

/-- Without the stops that can end now; the others have looked. -/
def withoutEndedStops (h : Holders) : Holders :=
  { h with
    stops := (h.stops.filter fun w => (h.resultOf w).isNone).map fun w =>
      { w with seen := some h.notices } }

/-- With every wait ended that can end now. -/
def endWaits (h : Holders) : Holders :=
  if h.scope.signalled || h.isLost then { h with waits := h.waits.map fun _ _ => true } else h

/-- Everything that can end does so; tells how stops ended. -/
def settle (h : Holders) : Holders × List (String × Bool) :=
  (h.withoutEndedStops.endWaits, h.endedStops)

end Holders

end GovernanceCache.Scope
