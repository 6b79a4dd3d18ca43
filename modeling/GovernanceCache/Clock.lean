/-!
# Clocks

Moments and spans of a clock are whole milliseconds. A sleep lasts thirty years at most: a longer
one ends then. Time limits know no such bound.
-/

namespace GovernanceCache.Clock

/-- The longest sleep: thirty years of 365 days. -/
def longestSleep : Nat := 30 * 365 * 24 * 60 * 60 * 1000

/-- How long a sleep of the given span lasts. -/
def slept (span : Nat) : Nat := min span longestSleep

/-- When a sleep that begins now is over. -/
def wake (now span : Nat) : Nat := now + slept span

end GovernanceCache.Clock
