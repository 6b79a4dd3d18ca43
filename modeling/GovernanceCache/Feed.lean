import Std.Data.ExtTreeMap

/-!
# Feeds

A feed hands the events of one topic to its subscribers. Every subscriber has an inbox of bounded
length; publishing never waits: an event that does not fit is dropped for that subscriber, and a
subscriber whose receiver is gone is removed by the next publication. What is in an inbox can still
be received after the subscriber was removed.
-/

namespace GovernanceCache

/-- The receiving end of a subscription. -/
structure Inbox (ε : Type) where
  /-- The events not yet received, oldest first. -/
  queue : List ε := []
  /-- The feed still holds the subscriber. -/
  connected : Bool := true
deriving DecidableEq, Repr

/-- What a receiver finds without waiting. -/
inductive Reception (ε : Type) where
  | event (event : ε)
  /-- Nothing yet. -/
  | empty
  /-- Nothing, and nothing will come. -/
  | disconnected
deriving DecidableEq, Repr

/-- The subscribers of one topic and their inboxes. -/
structure Feed (ε : Type) where
  topic : String
  /-- The number of events that an inbox holds. -/
  buffer : Nat
  /-- The subscriptions that the feed publishes to, oldest first. -/
  subscribers : List Nat := []
  /-- The inboxes whose receiver is still there. -/
  inboxes : Std.ExtTreeMap Nat (Inbox ε) := ∅
  /-- The number of the next subscription. -/
  next : Nat := 0
  /-- The events dropped because an inbox was full. -/
  dropped : Nat := 0

namespace Feed

variable {ε : Type}

/-- The largest inbox that can be made. -/
def largestBuffer : Nat := UInt64.size / 8 - 1

/-- A feed without subscribers. Inboxes hold at least one event. -/
def create (topic : String) (buffer : Nat) : Feed ε := { topic, buffer := max buffer 1 }

/-- Adds a subscriber and tells its number; fails if its inbox would be too large. -/
def subscribe? (feed : Feed ε) : Option (Feed ε × Nat) :=
  if feed.buffer ≤ largestBuffer then
    some ({ feed with
      subscribers := feed.subscribers ++ [feed.next]
      inboxes := feed.inboxes.insert feed.next {}
      next := feed.next + 1 }, feed.next)
  else none

/-- The inbox of a subscriber that the feed let go. -/
def Inbox.disconnect (inbox : Inbox ε) : Inbox ε := { inbox with connected := false }

def unsubscribe (feed : Feed ε) (subscription : Nat) : Feed ε :=
  if feed.subscribers.contains subscription then
    { feed with
      subscribers := feed.subscribers.erase subscription
      inboxes := feed.inboxes.modify subscription Inbox.disconnect }
  else feed

/-- Removes every subscriber. -/
def close (feed : Feed ε) : Feed ε :=
  { feed with
    subscribers := []
    inboxes := feed.subscribers.foldl (fun boxes s => boxes.modify s Inbox.disconnect)
      feed.inboxes }

/-- Gives up the receiving end of a subscription, and tells whether it was there. -/
def discard (feed : Feed ε) (subscription : Nat) : Feed ε × Bool :=
  ({ feed with inboxes := feed.inboxes.erase subscription },
    feed.inboxes.contains subscription)

/-- What becomes of an event at one subscriber. -/
inductive Delivery where
  | accepted
  | full
  | gone
deriving DecidableEq, Repr

/-- What becomes of an event at one subscriber. -/
def deliveryTo (feed : Feed ε) (subscription : Nat) : Delivery :=
  match feed.inboxes[subscription]? with
  | none => .gone
  | some inbox => if inbox.queue.length < feed.buffer then .accepted else .full

/-- Publishes an event to every subscriber, and tells how many accepted it. -/
def publish (feed : Feed ε) (event : ε) : Feed ε × Nat :=
  let accepting := feed.subscribers.filter fun s => feed.deliveryTo s == .accepted
  let full := feed.subscribers.filter fun s => feed.deliveryTo s == .full
  ({ feed with
      subscribers := feed.subscribers.filter fun s => feed.deliveryTo s != .gone
      inboxes := accepting.foldl
        (fun boxes s => boxes.modify s fun box => { box with queue := box.queue ++ [event] })
        feed.inboxes
      dropped := feed.dropped + full.length },
    accepting.length)

/-- Receives the oldest event of an inbox, if there is one. -/
def receive (feed : Feed ε) (subscription : Nat) : Feed ε × Reception ε :=
  match feed.inboxes[subscription]? with
  | none => (feed, .disconnected)
  | some inbox =>
    match inbox.queue with
    | [] => (feed, if inbox.connected then .empty else .disconnected)
    | event :: rest =>
      ({ feed with inboxes := feed.inboxes.insert subscription { inbox with queue := rest } },
        .event event)

/-- Receives everything in an inbox. -/
def drain (feed : Feed ε) (subscription : Nat) : Feed ε × List ε :=
  match feed.inboxes[subscription]? with
  | none => (feed, [])
  | some inbox =>
    ({ feed with inboxes := feed.inboxes.insert subscription { inbox with queue := [] } },
      inbox.queue)

def subscriberCount (feed : Feed ε) : Nat := feed.subscribers.length

end Feed

end GovernanceCache
