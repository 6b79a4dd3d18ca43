/-!
# Scopes of background work

A scope ends its background work gracefully. A stop raises the signal that every task of the scope
watches, and then waits for the operations that are registered, for a limited time. Only the first
stop waits; a later one succeeds at once. Clocks count milliseconds.
-/

namespace GovernanceCache

/-- The signal of a scope and the count of its operations. -/
structure Scope where
  /-- A stop has begun. -/
  signalled : Bool := false
  /-- The registered operations. -/
  active : Nat := 0
deriving DecidableEq, Repr

/-- A stop that waits for the operations of its scope. -/
structure Stop where
  /-- When it gives up. -/
  deadline : Nat
deriving DecidableEq, Repr

namespace Scope

def register (s : Scope) : Scope := { s with active := s.active + 1 }

/-- A registered operation is over. -/
def release (s : Scope) : Scope := { s with active := s.active - 1 }

/-- Begins a stop with a grace period; absent if another one began before. -/
def beginStop (s : Scope) (now grace : Nat) : Scope × Option Stop :=
  if s.signalled then (s, none)
  else ({ s with signalled := true }, some { deadline := now + grace })

end Scope

/-- How a stop ends, if it ends now: with success once no operation is left, without it when its
time is over. -/
def Stop.result? (stop : Stop) (s : Scope) (now : Nat) : Option Bool :=
  if s.active = 0 then some true
  else if stop.deadline ≤ now then some false
  else none

end GovernanceCache
