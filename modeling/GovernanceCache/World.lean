import GovernanceCache.Activity

/-!
# The world of a manager

A manager with its store, the scope of its background work, the clock, and the tasks that run. The
store is asked by refreshing callers, and what they ask is written down.
-/

namespace GovernanceCache

/-- What a cache asked of the store. -/
structure Asked where
  kind : CacheKind
  since : Instant
  firstLoad : Bool
deriving DecidableEq, Repr

/-- An activity that runs on its own. -/
structure Task where
  id : Nat
  state : TaskState

/-- A manager and everything that it works with. -/
structure World where
  manager : Manager
  store : Store := .empty
  scope : Scope := {}
  /-- The clock, in milliseconds. -/
  now : Nat := 0
  /-- The wall-clock time when the clock stood at zero. -/
  origin : Instant
  /-- What the caches asked of the store, newest first. -/
  asked : List Asked := []
  /-- The tasks, oldest first. -/
  tasks : List Task := []
  /-- The number of the next task. -/
  nextTask : Nat := 0

namespace World

def wallClock (w : World) : Instant := (w.origin.add? (Span.milliseconds w.now)).getD w.origin

def cache (w : World) (k : CacheKind) : Cache k := w.manager.cache k

def replica (w : World) (k : CacheKind) : Replica k.Row k.Lookup := w.manager.replica k

def withCache (w : World) (k : CacheKind) (cache : Cache k) : World :=
  { w with manager := w.manager.withCache k cache }

/-! ## Tasks -/

/-- Adds a task, and tells its number. -/
def addTask (w : World) (state : TaskState) : World × Nat :=
  ({ w with tasks := w.tasks ++ [⟨w.nextTask, state⟩], nextTask := w.nextTask + 1 }, w.nextTask)

def taskState? (w : World) (id : Nat) : Option TaskState :=
  (w.tasks.find? fun t => t.id == id).map (·.state)

def setTask (w : World) (id : Nat) (state : TaskState) : World :=
  { w with tasks := w.tasks.map fun t => if t.id = id then { t with state } else t }

/-! ## Refreshing -/

/-- The pull of a leader begins. -/
def ask (w : World) (k : CacheKind) (ticket : Ticket) : World × OpenPull k.Row :=
  let (store, pull) := w.store.beginPull k ticket.since ticket.firstLoad w.now
  ({ w with
      store
      asked := ⟨k, ticket.since, ticket.firstLoad⟩ :: w.asked }, pull)

/-- How the refresh of a caller ends, if it ends now. -/
def pollStage (w : World) (k : CacheKind) (stage : Stage (OpenPull k.Row)) :
    World × Option Refreshed :=
  match stage with
  | .pulling call ticket pull =>
    if pull.readyAt ≤ w.now then
      let (cache, pulled) := (w.cache k).settle call ticket pull.answer
      ({ w.withCache k cache with store := w.store.endPull k },
        some ⟨.leader, Refresher.outcomeOf pulled⟩)
    else (w, none)
  | .following call =>
    match (w.cache k).share? call with
    | some (cache, result) => (w.withCache k cache, some ⟨.follower, result⟩)
    | none => (w, none)

/-- A caller enters a refresh; it waits, or it has ended at once. -/
def enterRefresh (w : World) (k : CacheKind) : World × (Stage (OpenPull k.Row) ⊕ Refreshed) :=
  let (cache, entry) := (w.cache k).enter w.wallClock
  let w := w.withCache k cache
  match entry with
  | .follow call => (w, .inl (.following call))
  | .refused result => (w, .inr ⟨.leader, result⟩)
  | .pull call ticket =>
    let (w, pull) := w.ask k ticket
    let stage : Stage (OpenPull k.Row) := .pulling call ticket pull
    match w.pollStage k stage with
    | (w, some refreshed) => (w, .inr refreshed)
    | (w, none) => (w, .inl stage)

/-- A refresh of a caller has ended: the caller refreshes a second time if it is thorough and has
to. -/
def concludeRefresh (w : World) (k : CacheKind) (thorough : Bool) (refreshed : Refreshed) :
    World × (Refreshing k ⊕ Refreshed) :=
  if thorough && refreshed.needsAgain then
    match w.enterRefresh k with
    | (w, .inl stage) => (w, .inl { thorough := false, stage })
    | (w, .inr refreshed) => (w, .inr refreshed)
  else (w, .inr refreshed)

/-- A caller begins to refresh. -/
def beginRefreshing (w : World) (k : CacheKind) (thorough : Bool) :
    World × (Refreshing k ⊕ Refreshed) :=
  match w.enterRefresh k with
  | (w, .inl stage) => (w, .inl { thorough, stage })
  | (w, .inr refreshed) => w.concludeRefresh k thorough refreshed

/-- Polls a caller; absent if it has to wait on. -/
def pollRefreshing (w : World) (k : CacheKind) (r : Refreshing k) :
    World × Option (Refreshing k ⊕ Refreshed) :=
  match w.pollStage k r.stage with
  | (w, none) => (w, none)
  | (w, some refreshed) =>
    let (w, next) := w.concludeRefresh k r.thorough refreshed
    (w, some next)

/-- Drops a caller; a leader abandons its call and its pull. -/
def dropRefreshing (w : World) (k : CacheKind) (r : Refreshing k) : World :=
  match r.stage with
  | .pulling call _ _ =>
    { w.withCache k ((w.cache k).abandon call) with store := w.store.endPull k }
  | .following _ => w

/-- When a caller can end by itself. -/
def refreshingDeadline? {k : CacheKind} (r : Refreshing k) : Option Nat :=
  match r.stage with
  | .pulling _ _ pull => some pull.readyAt
  | .following _ => none

end World

end GovernanceCache
