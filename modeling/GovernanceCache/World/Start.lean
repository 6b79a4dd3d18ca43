import GovernanceCache.World

/-!
# Starting the manager

A start loads every scheduled kind at once, each within the same time limit. If one of them fails,
the start fails with the faults of all that did, and can be repeated; otherwise a refresh loop
begins for each kind.
-/

namespace GovernanceCache.World

/-- The fault of a start while another one has succeeded or has not ended. -/
def alreadyStarted : Fault := .configuration "cache manager already started"

/-- The fault of a first load that took too long. -/
def warmUpTimeout (k : CacheKind) : Fault := .timeout ("warm-up of " ++ k.name)

/-- A first load that is not over by the deadline is dropped. -/
def expire (w : World) (k : CacheKind) (deadline : Nat) (warmUp : WarmUp k) : World × WarmUp k :=
  match warmUp with
  | .loading r =>
    if deadline ≤ w.now then (w.dropRefreshing k r, .ended (.error (warmUpTimeout k)))
    else (w, warmUp)
  | .ended _ => (w, warmUp)

/-- The first load that a caller stands for. -/
def warmUpOf {k : CacheKind} : Refreshing k ⊕ Refreshed → WarmUp k
  | .inl r => .loading r
  | .inr refreshed => .ended refreshed.result

def beginWarmUp (w : World) (k : CacheKind) (deadline : Nat) : World × WarmUp k :=
  let (w, next) := w.beginRefreshing k true
  w.expire k deadline (warmUpOf next)

/-- Polls a first load; the flag tells whether anything happened. -/
def pollWarmUp (w : World) (k : CacheKind) (deadline : Nat) (warmUp : WarmUp k) :
    World × WarmUp k × Bool :=
  match warmUp with
  | .ended _ => (w, warmUp, false)
  | .loading r =>
    match w.pollRefreshing k r with
    | (w, some next) =>
      let (w, warmUp) := w.expire k deadline (warmUpOf next)
      (w, warmUp, true)
    | (w, none) =>
      let (w, warmUp) := w.expire k deadline warmUp
      (w, warmUp, deadline ≤ w.now)

/-- The first loads of a start, and how each stands. -/
abbrev WarmUps : Type := List ((k : CacheKind) × WarmUp k)

/-- First loads begin in turn. -/
def beginWarmUps (w : World) (deadline : Nat) : List CacheKind → World × WarmUps
  | [] => (w, [])
  | k :: rest =>
    let (w, warmUp) := w.beginWarmUp k deadline
    let (w, warmUps) := beginWarmUps w deadline rest
    (w, ⟨k, warmUp⟩ :: warmUps)

/-- Polls first loads in turn; the flag tells whether anything happened. -/
def pollWarmUps (w : World) (deadline : Nat) : WarmUps → World × WarmUps × Bool
  | [] => (w, [], false)
  | ⟨k, warmUp⟩ :: rest =>
    let (w, warmUp, moved) := w.pollWarmUp k deadline warmUp
    let (w, warmUps, movedLater) := pollWarmUps w deadline rest
    (w, ⟨k, warmUp⟩ :: warmUps, moved || movedLater)

/-- The results of first loads, if all of them have ended. -/
def warmUpResults? (warmUps : WarmUps) : Option (List Outcome) :=
  warmUps.mapM fun warmUp =>
    match warmUp.2 with
    | .ended result => some result
    | .loading _ => none

/-- The faults among results. -/
def faultsOf (results : List Outcome) : List Fault :=
  results.filterMap fun result =>
    match result with
    | .ok _ => none
    | .error fault => some fault

/-- The refresh loop of a kind, which begins now. -/
def newLoop (w : World) (k : CacheKind) : Loop :=
  let period := Clock.slept w.manager.settings.updateInterval.toNat
  { kind := k, period, dueAt := w.now + period }

/-- The refresh loop of a kind begins. -/
def spawnLoop (w : World) (k : CacheKind) : World := (w.addTask (.running (.loop (w.newLoop k)))).1

/-- The first loads have ended: the start fails, or the refresh loops begin. -/
def concludeStart (w : World) (kinds : List CacheKind) (results : List Outcome) : World × Outcome :=
  match faultsOf results with
  | [] => (kinds.foldl spawnLoop w, .ok ())
  | faults =>
    ({ w with manager := { w.manager with started := false } }, Fault.aggregate faults)

/-- Goes on with a start whose first loads stand so. -/
def resumeStart (w : World) (deadline : Nat) (warmUps : WarmUps) : World × (Activity ⊕ Reply) :=
  match warmUpResults? warmUps with
  | none => (w, .inl (.start deadline warmUps))
  | some results =>
    let (w, result) := w.concludeStart (warmUps.map (·.1)) results
    (w, .inr (.outcome result))

/-- A start begins, unless another one has succeeded or has not ended. -/
def beginStart (w : World) : World × (Activity ⊕ Reply) :=
  if w.manager.started then (w, .inr (.outcome (.error alreadyStarted)))
  else
    let w := { w with manager := { w.manager with started := true } }
    let deadline := w.now + w.manager.settings.warmUpTimeout.toNat
    let (w, warmUps) := w.beginWarmUps deadline w.manager.scheduled
    w.resumeStart deadline warmUps

/-- Polls a start; absent if it has to wait on. -/
def pollStart (w : World) (deadline : Nat) (warmUps : WarmUps) :
    World × Option (Activity ⊕ Reply) :=
  let (w, warmUps, moved) := w.pollWarmUps deadline warmUps
  if moved then
    let (w, next) := w.resumeStart deadline warmUps
    (w, some next)
  else (w, none)

/-- Drops the first loads of a start. -/
def dropWarmUps (w : World) (warmUps : WarmUps) : World :=
  warmUps.foldl (fun w warmUp =>
    match warmUp.2 with
    | .loading r => w.dropRefreshing warmUp.1 r
    | .ended _ => w) w

end GovernanceCache.World
