import GovernanceCache.Manager
import GovernanceCache.Scope
import GovernanceCache.Store

/-!
# Activities

What can take time: refreshing a cache, starting the manager, stopping its scope, sleeping, waiting
for a cache to fill, a read that refreshes first, a pull by hand, a refresh loop, and waiting for a
task. A command asks for an activity, and an activity ends with a reply. Moments and spans of the
clock are in milliseconds.
-/

namespace GovernanceCache

/-- A caller that refreshes the cache of a kind. -/
structure Refreshing (k : CacheKind) where
  /-- A shared or a discarded result is followed by a second refresh. -/
  thorough : Bool
  stage : Stage (OpenPull k.Row)

/-- The first load of a kind during a start. -/
inductive WarmUp (k : CacheKind) where
  | loading (refreshing : Refreshing k)
  | ended (result : Outcome)

/-- The background refresh of a kind. -/
structure Loop where
  kind : CacheKind
  period : Nat
  /-- When the next update is due. -/
  dueAt : Nat
  /-- The update that runs now. -/
  update : Option (Refreshing kind) := none

/-- The answer to a pull by hand, with the kind of its rows. -/
abbrev Pulled : Type := (k : CacheKind) × Answer k.Row

/-- Something that takes time. -/
inductive Activity where
  | refresh (k : CacheKind) (refreshing : Refreshing k)
  /-- The manager starts: every scheduled kind is loaded within a time limit. -/
  | start (deadline : Nat) (warmUps : List ((k : CacheKind) × WarmUp k))
  | stop (stop : Stop)
  | sleep (readyAt : Nat)
  /-- Looks at the size of a cache time and again. -/
  | watchSize (k : CacheKind) (size deadline nextLook : Nat)
  /-- Looks a namespace up after a refresh. -/
  | findNamespace (name : String) (refreshing : Refreshing .namespaces)
  | pull (k : CacheKind) (pull : OpenPull k.Row)
  | loop (loop : Loop)
  | join (task : Nat)

/-- How an activity ends. -/
inductive Reply where
  | nothing
  | flag (value : Bool)
  | outcome (result : Outcome)
  | refreshed (refreshed : Refreshed)
  | found (result : Except Fault (Option Namespace))
  | pulled (rows : Pulled)
  /-- A task ended with a reply, or was aborted. -/
  | joined (reply : Option Reply)

inductive Command where
  /-- Refreshes a cache, a second time if the command is thorough and the first result was shared or
  discarded. -/
  | refresh (k : CacheKind) (thorough : Bool)
  /-- Refreshes a scheduled cache thoroughly. -/
  | forceUpdate (k : CacheKind)
  | start
  | stop (grace : Nat)
  | sleep (span : Nat)
  | watchSize (k : CacheKind) (size limit : Nat)
  | findNamespace (name : String)
  | pull (k : CacheKind) (since : Instant) (firstLoad : Bool)
  | join (task : Nat)

inductive TaskState where
  | running (activity : Activity)
  | finished (reply : Reply)
  | aborted

end GovernanceCache
