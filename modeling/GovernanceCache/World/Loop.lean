import GovernanceCache.World

/-!
# Refresh loops

A loop updates its cache each time its period is over, and registers an operation of the scope while
it does. Between updates it first looks at the stop signal, and ends once that is raised. An update
that comes late, because the one before it was slow, counts the next period from now; up to five
milliseconds do not count as late. A loop without a period ends at once.

The loop that writes the statistics to the log is left out.
-/

namespace GovernanceCache.World

/-- Lateness in milliseconds that does not shift the following updates. -/
def tolerance : Nat := 5

/-- When the next update is due, for one that was due at `dueAt` and begins now. -/
def nextDue (dueAt now period : Nat) : Nat :=
  if dueAt + tolerance < now then now + period else dueAt + period

def mapScope (w : World) (f : Scope → Scope) : World := { w with scope := f w.scope }

/-- Goes on with a loop between two updates; absent if it has to wait on. -/
def pollIdle (w : World) (loop : Loop) : World × Option (Activity ⊕ Reply) :=
  if loop.period = 0 ∨ w.scope.signalled then (w, some (.inr .nothing))
  else if loop.dueAt ≤ w.now then
    let dueAt := nextDue loop.dueAt w.now loop.period
    match (w.mapScope Scope.register).beginRefreshing loop.kind false with
    | (w, .inl r) => (w, some (.inl (.loop { loop with dueAt, update := some r })))
    | (w, .inr _) =>
      (w.mapScope Scope.release, some (.inl (.loop { loop with dueAt, update := none })))
  else (w, none)

/-- Polls a loop; absent if it has to wait on. -/
def pollLoop (w : World) (loop : Loop) : World × Option (Activity ⊕ Reply) :=
  match loop.update with
  | none => w.pollIdle loop
  | some r =>
    match w.pollRefreshing loop.kind r with
    | (w, none) => (w, none)
    | (w, some (.inl r)) => (w, some (.inl (.loop { loop with update := some r })))
    | (w, some (.inr _)) =>
      let loop := { loop with update := none }
      match (w.mapScope Scope.release).pollIdle loop with
      | (w, none) => (w, some (.inl (.loop loop)))
      | (w, some next) => (w, some next)

def dropLoop (w : World) (loop : Loop) : World :=
  match loop.update with
  | some r => (w.dropRefreshing loop.kind r).mapScope Scope.release
  | none => w

end GovernanceCache.World
