import GovernanceCache.World.Loop
import GovernanceCache.World.Start

/-!
# Polling activities

How each activity begins, goes on when it is polled, and is dropped; and until when it does not have
to be polled unless another one ends.
-/

namespace GovernanceCache.World

/-- Time between two looks at the size of a cache. -/
def lookInterval : Nat := 10

def lookAtSize (w : World) (k : CacheKind) (size deadline : Nat) : Activity ⊕ Reply :=
  if (w.replica k).size = size then .inr (.flag true)
  else if deadline ≤ w.now then .inr (.flag false)
  else .inl (.watchSize k size deadline (w.now + lookInterval))

def lookUp (w : World) (name : String) : World × Option Namespace :=
  let (manager, found) := w.manager.read .namespaces fun m => m.get name
  ({ w with manager }, found)

/-- Goes on with a search for a namespace whose refresh stands so. -/
def resumeSearch (w : World) (name : String) :
    Refreshing .namespaces ⊕ Refreshed → World × (Activity ⊕ Reply)
  | .inl r => (w, .inl (.findNamespace name r))
  | .inr refreshed =>
    match refreshed.result with
    | .error fault => (w, .inr (.found (.error fault)))
    | .ok _ =>
      let (w, found) := w.lookUp name
      (w, .inr (.found (.ok found)))

/-- A search for a namespace begins; it refreshes only if the namespace is missing. -/
def beginSearch (w : World) (name : String) : World × (Activity ⊕ Reply) :=
  match w.lookUp name with
  | (w, some found) => (w, .inr (.found (.ok (some found))))
  | (w, none) =>
    let (w, next) := w.beginRefreshing .namespaces true
    w.resumeSearch name next

def resumeRefresh (k : CacheKind) : Refreshing k ⊕ Refreshed → Activity ⊕ Reply
  | .inl r => .inl (.refresh k r)
  | .inr refreshed => .inr (.refreshed refreshed)

def beginRefresh (w : World) (k : CacheKind) (thorough : Bool) : World × (Activity ⊕ Reply) :=
  let (w, next) := w.beginRefreshing k thorough
  (w, resumeRefresh k next)

def resumePull (w : World) (k : CacheKind) (pull : OpenPull k.Row) : World × (Activity ⊕ Reply) :=
  if pull.readyAt ≤ w.now then
    ({ w with store := w.store.endPull k }, .inr (.pulled ⟨k, pull.answer⟩))
  else (w, .inl (.pull k pull))

def resumeStop (w : World) (stop : Stop) : Activity ⊕ Reply :=
  match stop.result? w.scope w.now with
  | some success => .inr (.flag success)
  | none => .inl (.stop stop)

/-- A stop of the scope begins. -/
def beginStop (w : World) (grace : Nat) : World × (Activity ⊕ Reply) :=
  match w.scope.beginStop w.now grace with
  | (scope, none) => ({ w with scope }, .inr (.flag true))
  | (scope, some stop) => ({ w with scope }, resumeStop { w with scope } stop)

def resumeJoin (w : World) (task : Nat) : Activity ⊕ Reply :=
  match w.taskState? task with
  | some (.finished reply) => .inr (.joined (some reply))
  | some .aborted => .inr (.joined none)
  | _ => .inl (.join task)

/-- An activity that waits for a moment ends when that is reached. -/
def resumeSleep (w : World) (readyAt : Nat) : Activity ⊕ Reply :=
  if readyAt ≤ w.now then .inr .nothing else .inl (.sleep readyAt)

/-- An activity begins, and either waits or has ended at once. -/
def begin (w : World) : Command → World × (Activity ⊕ Reply)
  | .refresh k thorough => w.beginRefresh k thorough
  | .forceUpdate k =>
    if w.manager.isScheduled k then w.beginRefresh k true
    else (w, .inr (.outcome (.error (.notOpened k.name))))
  | .start => w.beginStart
  | .stop grace => w.beginStop grace
  | .sleep span => (w, w.resumeSleep (Clock.wake w.now span))
  | .watchSize k size limit => (w, w.lookAtSize k size (w.now + limit))
  | .findNamespace name => w.beginSearch name
  | .pull k since firstLoad =>
    let (store, pull) := w.store.beginPull k since firstLoad w.now
    { w with store }.resumePull k pull
  | .join task => (w, w.resumeJoin task)

/-- What is left of an activity that was waiting: nothing new, unless it has ended. -/
def unlessWaiting : Activity ⊕ Reply → Option (Activity ⊕ Reply)
  | .inl _ => none
  | .inr reply => some (.inr reply)

/-- Polls an activity; absent if it has to wait on. -/
def poll (w : World) : Activity → World × Option (Activity ⊕ Reply)
  | .refresh k r =>
    let (w, next) := w.pollRefreshing k r
    (w, next.map (resumeRefresh k))
  | .start deadline warmUps => w.pollStart deadline warmUps
  | .stop stop => (w, unlessWaiting (w.resumeStop stop))
  | .sleep readyAt => (w, unlessWaiting (w.resumeSleep readyAt))
  | .watchSize k size deadline nextLook =>
    (w, if nextLook ≤ w.now then some (w.lookAtSize k size deadline) else none)
  | .findNamespace name r =>
    match w.pollRefreshing .namespaces r with
    | (w, none) => (w, none)
    | (w, some next) =>
      let (w, next) := w.resumeSearch name next
      (w, some next)
  | .pull k pull =>
    let (w, next) := w.resumePull k pull
    (w, unlessWaiting next)
  | .loop loop => w.pollLoop loop
  | .join task => (w, unlessWaiting (w.resumeJoin task))

/-- Drops an activity. -/
def drop (w : World) : Activity → World
  | .refresh k r => w.dropRefreshing k r
  | .start _ warmUps => w.dropWarmUps warmUps
  | .findNamespace _ r => w.dropRefreshing .namespaces r
  | .pull k _ => { w with store := w.store.endPull k }
  | .loop loop => w.dropLoop loop
  | .stop _ | .sleep _ | .watchSize .. | .join _ => w

/-- The earlier of two moments, either of which may be absent. -/
def earlier : Option Nat → Option Nat → Option Nat
  | some s, some t => some (min s t)
  | some s, none => some s
  | none, t => t

/-- When a first load can end by itself. -/
def warmUpDeadline? (warmUp : (k : CacheKind) × WarmUp k) : Option Nat :=
  match warmUp.2 with
  | .loading r => refreshingDeadline? r
  | .ended _ => none

/-- When an activity has to be polled even if no other one ends. -/
def deadline? : Activity → Option Nat
  | .refresh _ r => refreshingDeadline? r
  | .start deadline warmUps =>
    warmUps.foldl (fun first warmUp => earlier first (warmUpDeadline? warmUp)) (some deadline)
  | .stop stop => some stop.deadline
  | .sleep readyAt => some readyAt
  | .watchSize _ _ _ nextLook => some nextLook
  | .findNamespace _ r => refreshingDeadline? r
  | .pull _ pull => some pull.readyAt
  | .loop loop =>
    match loop.update with
    | some r => refreshingDeadline? r
    | none => some loop.dueAt
  | .join _ => none

end GovernanceCache.World
