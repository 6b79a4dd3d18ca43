import GovernanceCache.Feed
import GovernanceCache.Proofs.Merging
import Mathlib.Data.List.Nodup

/-!
# What a feed delivers to one listener

Those who listen to a feed subscribe, receive, and leave, in any order. As long as a listener is
connected, what it receives and what is queued for it is what was queued for it before and what was
published since, less the events that were dropped for it.

1. `Feed.Sound` holds of every feed: the subscribers are distinct, and they are the connected ones.
2. One equation tells the inbox of a listener after each step. What was in it before was heard or is
   still in it (`of_listen_getElem?`).
3. A listener that is connected after a step was so before, since no number is given out twice
   (`listen_connected`, `publishAll_connected`).
-/

namespace GovernanceCache

/-- What those who listen to a feed do. -/
inductive Listening where
  | subscribe
  | unsubscribe (listener : Nat)
  | discard (listener : Nat)
  | receive (listener : Nat)
  | drain (listener : Nat)

namespace Feed

variable {ε : Type} {feed : Feed ε} {n : Nat} {event : ε} {queue : List ε}

/-- The feed after a step of a listener; nothing happens if it cannot subscribe. -/
def listen (feed : Feed ε) : Listening → Feed ε
  | .subscribe => (feed.subscribe?.map Prod.fst).getD feed
  | .unsubscribe s => feed.unsubscribe s
  | .discard s => (feed.discard s).1
  | .receive s => (feed.receive s).1
  | .drain s => (feed.drain s).1

/-- The events that a listener receives in a step. -/
def heard (feed : Feed ε) (n : Nat) : Listening → List ε
  | .receive s =>
    match (feed.receive s).2 with
    | .event e => if s = n then [e] else []
    | _ => []
  | .drain s => if s = n then (feed.drain s).2 else []
  | _ => []

/-- The feed after events were published in turn. -/
def publishAll (feed : Feed ε) (events : List ε) : Feed ε :=
  events.foldl (fun feed e => (feed.publish e).1) feed

/-- The published events that a listener does not get. -/
def droppedFor (n : Nat) : Feed ε → List ε → List ε
  | _, [] => []
  | feed, e :: rest =>
    (if feed.deliveryTo n = .accepted then [] else [e]) ++ droppedFor n (feed.publish e).1 rest

/-! ## Inboxes -/

theorem modify_getElem? {α : Type} (boxes : Std.ExtTreeMap Nat α) (k n : Nat) (f : α → α) :
    (boxes.modify k f)[n]? = if k = n then boxes[n]?.map f else boxes[n]? := by
  rw [Std.ExtTreeMap.getElem?_modify]
  simp only [Std.compare_eq_iff_eq]
  split
  · rename_i h
    rw [h]
  · rfl

theorem foldl_modify_getElem? {α : Type} {ids : List Nat} (hd : ids.Nodup) (f : α → α) (n : Nat)
    (boxes : Std.ExtTreeMap Nat α) :
    (ids.foldl (fun boxes s => boxes.modify s f) boxes)[n]? =
      if n ∈ ids then boxes[n]?.map f else boxes[n]? := by
  induction ids generalizing boxes with
  | nil => rfl
  | cons k rest ih =>
    obtain ⟨hk, hd⟩ := List.nodup_cons.mp hd
    rw [List.foldl_cons, ih hd, modify_getElem?]
    by_cases hkn : k = n
    · subst hkn
      simp [hk]
    · simp [hkn, Ne.symm hkn]

/-- What holds of every feed. -/
structure Sound (feed : Feed ε) : Prop where
  distinct : feed.subscribers.Nodup
  given : ∀ s ∈ feed.subscribers, s < feed.next
  connected : ∀ (s : Nat) (box : Inbox ε), feed.inboxes[s]? = some box →
    s < feed.next ∧ (box.connected = true ↔ s ∈ feed.subscribers)

theorem Sound.create (topic : String) (buffer : Nat) : (create topic buffer : Feed ε).Sound where
  distinct := .nil
  given s hs := by simp [Feed.create] at hs
  connected s box hs := by simp [Feed.create] at hs

theorem publish_getElem? (h : feed.Sound) (event : ε) (n : Nat) :
    (feed.publish event).1.inboxes[n]? =
      if n ∈ feed.subscribers ∧ feed.deliveryTo n = .accepted then
        feed.inboxes[n]?.map fun box => { box with queue := box.queue ++ [event] }
      else feed.inboxes[n]? := by
  unfold publish
  simp only
  rw [foldl_modify_getElem? (h.distinct.filter _)]
  simp only [List.mem_filter, beq_iff_eq]

theorem close_getElem? (h : feed.Sound) (n : Nat) :
    feed.close.inboxes[n]? =
      if n ∈ feed.subscribers then feed.inboxes[n]?.map Inbox.disconnect else feed.inboxes[n]? :=
  foldl_modify_getElem? h.distinct _ n _

theorem ne_gone {box : Inbox ε} (h : feed.inboxes[n]? = some box) :
    feed.deliveryTo n ≠ .gone := by
  unfold deliveryTo
  rw [h]
  simp only
  split <;> nofun

/-! ## Every feed is sound -/

namespace Sound

theorem publish (h : feed.Sound) (event : ε) : (feed.publish event).1.Sound := by
  refine ⟨h.distinct.filter _, fun s hs => h.given s (List.mem_filter.mp hs).1, ?_⟩
  intro s box hbox
  rw [publish_getElem? h] at hbox
  -- the inbox was there with the same connection
  obtain ⟨old, hold, hconn⟩ : ∃ old, feed.inboxes[s]? = some old ∧
      box.connected = old.connected := by
    split at hbox
    · obtain ⟨old, hold, rfl⟩ := Option.map_eq_some_iff.mp hbox
      exact ⟨old, hold, rfl⟩
    · exact ⟨box, hbox, rfl⟩
  obtain ⟨hlt, hiff⟩ := h.connected s old hold
  refine ⟨hlt, ?_⟩
  show _ ↔ s ∈ feed.subscribers.filter fun s => feed.deliveryTo s != .gone
  rw [hconn, hiff, List.mem_filter]
  exact ⟨fun hs => ⟨hs, bne_iff_ne.mpr (ne_gone hold)⟩, fun hs => hs.1⟩

theorem publishAll (h : feed.Sound) (events : List ε) : (feed.publishAll events).Sound := by
  induction events generalizing feed with
  | nil => exact h
  | cons e rest ih => exact ih (h.publish e)

theorem close (h : feed.Sound) : feed.close.Sound := by
  refine ⟨.nil, nofun, ?_⟩
  intro s box hbox
  rw [close_getElem? h] at hbox
  show s < feed.next ∧ (box.connected = true ↔ s ∈ [])
  split at hbox
  · obtain ⟨old, hold, rfl⟩ := Option.map_eq_some_iff.mp hbox
    simpa [Inbox.disconnect] using (h.connected s old hold).1
  · rename_i hnot
    obtain ⟨hlt, hiff⟩ := h.connected s box hbox
    simp [hlt, hiff, hnot]

theorem unsubscribe (h : feed.Sound) (k : Nat) : (feed.unsubscribe k).Sound := by
  unfold Feed.unsubscribe
  split
  · refine ⟨h.distinct.erase k, fun s hs => h.given s (List.mem_of_mem_erase hs), ?_⟩
    intro s box hbox
    simp only [modify_getElem?] at hbox
    rw [h.distinct.mem_erase_iff]
    split at hbox
    · rename_i hks
      obtain ⟨old, hold, rfl⟩ := Option.map_eq_some_iff.mp hbox
      simpa [Inbox.disconnect, hks] using (h.connected s old hold).1
    · rename_i hks
      obtain ⟨hlt, hiff⟩ := h.connected s box hbox
      simp [hlt, hiff, Ne.symm hks]
  · exact h

theorem subscribe (h : feed.Sound) :
    ({ feed with
      subscribers := feed.subscribers ++ [feed.next]
      inboxes := feed.inboxes.insert feed.next {}
      next := feed.next + 1 } : Feed ε).Sound := by
  have hnew : feed.next ∉ feed.subscribers := fun hmem => Nat.lt_irrefl _ (h.given _ hmem)
  refine ⟨?_, ?_, ?_⟩
  · rw [List.nodup_append_comm]
    exact List.nodup_cons.mpr ⟨hnew, h.distinct⟩
  · intro s hs
    show s < feed.next + 1
    rcases List.mem_append.mp hs with hs | hs
    · have := h.given s hs
      omega
    · rw [List.mem_singleton.mp hs]
      omega
  · intro s box hbox
    show s < feed.next + 1 ∧ (box.connected = true ↔ s ∈ feed.subscribers ++ [feed.next])
    simp only [getElem?_insert_eq] at hbox
    rw [List.mem_append, List.mem_singleton]
    split at hbox
    · rename_i heq
      obtain rfl := Option.some.inj hbox
      simp [← heq]
    · obtain ⟨hlt, hiff⟩ := h.connected s box hbox
      rw [hiff]
      exact ⟨by omega, Or.inl, fun hs => hs.resolve_right (by omega)⟩

/-- A listener that empties its inbox stays as connected as it was. -/
theorem take (h : feed.Sound) {k : Nat} {old : Inbox ε} (hold : feed.inboxes[k]? = some old)
    (rest : List ε) :
    ({ feed with inboxes := feed.inboxes.insert k { old with queue := rest } } : Feed ε).Sound := by
  refine ⟨h.distinct, h.given, ?_⟩
  intro s box hbox
  simp only [getElem?_insert_eq] at hbox
  split at hbox
  · rename_i hks
    rw [← Option.some.inj hbox, ← hks]
    exact h.connected k old hold
  · exact h.connected s box hbox

/-- The order of the subscribers does not matter. -/
theorem reorder (h : feed.Sound) {order : List Nat} (hperm : order.Perm feed.subscribers) :
    ({ feed with subscribers := order } : Feed ε).Sound where
  distinct := hperm.nodup_iff.mpr h.distinct
  given s hs := h.given s (hperm.mem_iff.mp hs)
  connected s box hbox :=
    ⟨(h.connected s box hbox).1, (h.connected s box hbox).2.trans hperm.mem_iff.symm⟩

theorem listen (h : feed.Sound) (step : Listening) : (feed.listen step).Sound := by
  cases step with
  | subscribe =>
    show ((feed.subscribe?.map Prod.fst).getD feed).Sound
    unfold subscribe?
    split
    · exact h.subscribe
    · exact h
  | unsubscribe k => exact h.unsubscribe k
  | discard k =>
    refine ⟨h.distinct, h.given, ?_⟩
    intro s box hbox
    simp only [Feed.listen, discard, getElem?_erase_eq] at hbox
    split at hbox
    · cases hbox
    · exact h.connected s box hbox
  | receive k =>
    show (feed.receive k).1.Sound
    unfold Feed.receive
    split
    · exact h
    · rename_i old hold
      split
      · exact h
      · exact h.take hold _
  | drain k =>
    show (feed.drain k).1.Sound
    unfold Feed.drain
    split
    · exact h
    · rename_i old hold
      exact h.take hold _

end Sound

/-! ## Numbers are given out once -/

theorem next_publishAll (feed : Feed ε) (events : List ε) :
    (feed.publishAll events).next = feed.next := by
  induction events generalizing feed with
  | nil => rfl
  | cons e rest ih => exact ih (feed.publish e).1

theorem next_le_listen (feed : Feed ε) (step : Listening) :
    feed.next ≤ (feed.listen step).next := by
  cases step with
  | subscribe =>
    show feed.next ≤ ((feed.subscribe?.map Prod.fst).getD feed).next
    unfold subscribe?
    split
    · exact Nat.le_succ feed.next
    · exact Nat.le_refl _
  | unsubscribe k =>
    show feed.next ≤ (feed.unsubscribe k).next
    unfold unsubscribe
    split <;> exact Nat.le_refl _
  | discard k => exact Nat.le_refl _
  | receive k =>
    show feed.next ≤ (feed.receive k).1.next
    unfold receive
    split
    · exact Nat.le_refl _
    · split <;> exact Nat.le_refl _
  | drain k =>
    show feed.next ≤ (feed.drain k).1.next
    unfold drain
    split <;> exact Nat.le_refl _

/-! ## The inbox of a listener after a step -/

theorem subscribe_getElem? (hn : n ≠ feed.next) :
    (feed.listen .subscribe).inboxes[n]? = feed.inboxes[n]? := by
  show ((feed.subscribe?.map Prod.fst).getD feed).inboxes[n]? = _
  unfold subscribe?
  split
  · -- the new listener is another one
    simp only [Option.map_some, Option.getD_some, getElem?_insert_eq]
    exact if_neg hn.symm
  · rfl

theorem unsubscribe_getElem? (k : Nat) : (feed.listen (.unsubscribe k)).inboxes[n]? =
    if k = n ∧ n ∈ feed.subscribers then feed.inboxes[n]?.map Inbox.disconnect
    else feed.inboxes[n]? := by
  show (feed.unsubscribe k).inboxes[n]? = _
  unfold unsubscribe
  by_cases hk : k ∈ feed.subscribers
  · rw [if_pos (List.contains_iff_mem.mpr hk)]
    simp only [modify_getElem?]
    by_cases hkn : k = n
    · rw [if_pos hkn, if_pos ⟨hkn, hkn ▸ hk⟩]
    · rw [if_neg hkn, if_neg fun h => hkn h.1]
  · rw [if_neg fun h => hk (List.contains_iff_mem.mp h), if_neg]
    rintro ⟨rfl, hmem⟩
    exact hk hmem

theorem discard_getElem? (k : Nat) : (feed.listen (.discard k)).inboxes[n]? =
    if k = n then none else feed.inboxes[n]? :=
  getElem?_erase_eq ..

theorem receive_getElem? (k : Nat) : (feed.listen (.receive k)).inboxes[n]? =
    if k = n then feed.inboxes[n]?.map fun box => { box with queue := box.queue.tail }
    else feed.inboxes[n]? := by
  show (feed.receive k).1.inboxes[n]? = _
  unfold receive
  by_cases hkn : k = n
  · subst hkn
    rw [if_pos rfl]
    rcases hk : feed.inboxes[k]? with _ | ⟨_ | ⟨e, rest⟩, connected⟩
    · exact hk
    · exact hk
    · simp only [getElem?_insert_eq, if_pos, Option.map_some, List.tail_cons]
  · rw [if_neg hkn]
    rcases feed.inboxes[k]? with _ | ⟨_ | ⟨e, rest⟩, connected⟩
    · rfl
    · rfl
    · simp only [getElem?_insert_eq]
      exact if_neg hkn

theorem drain_getElem? (k : Nat) : (feed.listen (.drain k)).inboxes[n]? =
    if k = n then feed.inboxes[n]?.map fun box => { box with queue := [] }
    else feed.inboxes[n]? := by
  show (feed.drain k).1.inboxes[n]? = _
  unfold drain
  by_cases hkn : k = n
  · subst hkn
    rw [if_pos rfl]
    rcases hk : feed.inboxes[k]? with _ | box
    · exact hk
    · simp only [getElem?_insert_eq, if_pos, Option.map_some]
  · rw [if_neg hkn]
    rcases feed.inboxes[k]? with _ | box
    · rfl
    · simp only [getElem?_insert_eq]
      exact if_neg hkn

theorem heard_receive (k : Nat) : feed.heard n (.receive k) =
    if k = n then (feed.inboxes[n]?.bind fun box => box.queue.head?).toList else [] := by
  unfold heard receive
  by_cases hkn : k = n
  · subst hkn
    rcases hk : feed.inboxes[k]? with _ | ⟨_ | ⟨e, rest⟩, _ | _⟩ <;> simp [hk]
  · rcases hk : feed.inboxes[k]? with _ | ⟨_ | ⟨e, rest⟩, _ | _⟩ <;> simp [hk, hkn]

theorem heard_drain (k : Nat) : feed.heard n (.drain k) =
    if k = n then (feed.inboxes[n]?.map Inbox.queue).getD [] else [] := by
  show (if k = n then (feed.drain k).2 else []) = _
  by_cases hkn : k = n
  · subst hkn
    rw [if_pos rfl, if_pos rfl]
    unfold drain
    rcases feed.inboxes[k]? with _ | box <;> rfl
  · rw [if_neg hkn, if_neg hkn]

/-- What a listener had before a step it has heard or still has to hear, and one that is connected
was so before. -/
theorem of_listen_getElem? {step : Listening} {box : Inbox ε} (hn : n < feed.next)
    (hbox : (feed.listen step).inboxes[n]? = some box) :
    ∃ old, feed.inboxes[n]? = some old ∧ old.queue = feed.heard n step ++ box.queue ∧
      (box.connected = true → old.connected = true) := by
  cases step with
  | subscribe =>
    rw [subscribe_getElem? (Nat.ne_of_lt hn)] at hbox
    exact ⟨box, hbox, rfl, id⟩
  | unsubscribe k =>
    rw [unsubscribe_getElem?] at hbox
    split at hbox
    · obtain ⟨old, hold, rfl⟩ := Option.map_eq_some_iff.mp hbox
      exact ⟨old, hold, rfl, nofun⟩
    · exact ⟨box, hbox, rfl, id⟩
  | discard k =>
    rw [discard_getElem?] at hbox
    split at hbox
    · cases hbox
    · exact ⟨box, hbox, rfl, id⟩
  | receive k =>
    rw [receive_getElem?] at hbox
    rw [heard_receive]
    split at hbox
    · rename_i hkn
      obtain ⟨⟨queue, connected⟩, hold, rfl⟩ := Option.map_eq_some_iff.mp hbox
      refine ⟨_, hold, ?_, id⟩
      rw [if_pos hkn, hold]
      cases queue <;> rfl
    · rename_i hkn
      exact ⟨box, hbox, by rw [if_neg hkn, List.nil_append], id⟩
  | drain k =>
    rw [drain_getElem?] at hbox
    rw [heard_drain]
    split at hbox
    · rename_i hkn
      obtain ⟨old, hold, rfl⟩ := Option.map_eq_some_iff.mp hbox
      exact ⟨old, hold, by simp [hkn, hold], id⟩
    · rename_i hkn
      exact ⟨box, hbox, by rw [if_neg hkn, List.nil_append], id⟩

/-- Only subscribing gives out a number, and no step of a listener changes the other counts. -/
theorem listen_eq_with (feed : Feed ε) {step : Listening} (hstep : step ≠ .subscribe) :
    ∃ subscribers inboxes, feed.listen step = { feed with subscribers, inboxes } := by
  cases step with
  | subscribe => exact absurd rfl hstep
  | unsubscribe k =>
    show ∃ subscribers inboxes, feed.unsubscribe k = { feed with subscribers, inboxes }
    unfold unsubscribe
    split <;> exact ⟨_, _, rfl⟩
  | discard k => exact ⟨_, _, rfl⟩
  | receive k =>
    show ∃ subscribers inboxes, (feed.receive k).1 = { feed with subscribers, inboxes }
    unfold receive
    split
    · exact ⟨_, _, rfl⟩
    · split <;> exact ⟨_, _, rfl⟩
  | drain k =>
    show ∃ subscribers inboxes, (feed.drain k).1 = { feed with subscribers, inboxes }
    unfold drain
    split <;> exact ⟨_, _, rfl⟩

theorem buffer_listen (feed : Feed ε) (step : Listening) :
    (feed.listen step).buffer = feed.buffer := by
  by_cases hstep : step = .subscribe
  · subst hstep
    show ((feed.subscribe?.map Prod.fst).getD feed).buffer = feed.buffer
    unfold subscribe?
    split <;> rfl
  · obtain ⟨_, _, hwith⟩ := feed.listen_eq_with hstep
    rw [hwith]

/-- Those who subscribed stay so until they unsubscribe. -/
theorem mem_listen (h : feed.Sound) {step : Listening}
    (hn : step = .subscribe → n ≠ feed.next) :
    n ∈ (feed.listen step).subscribers ↔ n ∈ feed.subscribers ∧ step ≠ .unsubscribe n := by
  cases step with
  | subscribe =>
    show n ∈ ((feed.subscribe?.map Prod.fst).getD feed).subscribers ↔ _
    unfold subscribe?
    split
    · show n ∈ feed.subscribers ++ [feed.next] ↔ _
      rw [List.mem_append, List.mem_singleton]
      exact ⟨fun hs => ⟨hs.resolve_right (hn rfl), nofun⟩, fun hs => .inl hs.1⟩
    · exact ⟨fun hs => ⟨hs, nofun⟩, And.left⟩
  | unsubscribe k =>
    show n ∈ (feed.unsubscribe k).subscribers ↔ _
    rw [ne_eq, Listening.unsubscribe.injEq, and_comm, ← ne_eq, ne_comm]
    unfold unsubscribe
    split
    · exact h.distinct.mem_erase_iff
    · rename_i hk
      refine ⟨fun hs => ⟨?_, hs⟩, And.right⟩
      rintro rfl
      exact hk (List.contains_iff_mem.mpr hs)
  | discard k => exact ⟨fun hs => ⟨hs, nofun⟩, And.left⟩
  | receive k =>
    show n ∈ (feed.receive k).1.subscribers ↔ _
    unfold receive
    split
    · exact ⟨fun hs => ⟨hs, nofun⟩, And.left⟩
    · split <;> exact ⟨fun hs => ⟨hs, nofun⟩, And.left⟩
  | drain k =>
    show n ∈ (feed.drain k).1.subscribers ↔ _
    unfold drain
    split <;> exact ⟨fun hs => ⟨hs, nofun⟩, And.left⟩

/-- A receiver is there until it is given up. -/
theorem mem_inboxes_listen {step : Listening} (hn : step = .subscribe → n ≠ feed.next) :
    n ∈ (feed.listen step).inboxes ↔ n ∈ feed.inboxes ∧ step ≠ .discard n := by
  rw [Std.ExtTreeMap.mem_iff_isSome_getElem?, Std.ExtTreeMap.mem_iff_isSome_getElem?]
  cases step with
  | subscribe =>
    rw [subscribe_getElem? (hn rfl)]
    exact ⟨fun hs => ⟨hs, nofun⟩, And.left⟩
  | unsubscribe k =>
    rw [unsubscribe_getElem?]
    split <;> simp
  | discard k =>
    rw [discard_getElem?]
    split <;> rename_i hk <;> simp [hk]
  | receive k =>
    rw [receive_getElem?]
    split <;> simp
  | drain k =>
    rw [drain_getElem?]
    split <;> simp

/-! ## What a connected listener gets -/

/-- The listener is connected, and these events are queued for it. -/
def Awaits (feed : Feed ε) (n : Nat) (queue : List ε) : Prop :=
  feed.inboxes[n]? = some ⟨queue, true⟩

theorem publish_connected (h : feed.Sound) (hq : (feed.publish event).1.Awaits n queue) :
    ∃ earlier, feed.Awaits n earlier ∧
      queue = earlier ++ if feed.deliveryTo n = .accepted then [event] else [] := by
  unfold Awaits at hq
  rw [publish_getElem? h] at hq
  split at hq
  · rename_i hacc
    obtain ⟨⟨earlier, connected⟩, hold, heq⟩ := Option.map_eq_some_iff.mp hq
    simp only [Inbox.mk.injEq] at heq
    obtain ⟨rfl, rfl⟩ := heq
    exact ⟨earlier, hold, by rw [if_pos hacc.2]⟩
  · rename_i hnot
    have hmem : n ∈ feed.subscribers := (h.connected n _ hq).2.mp rfl
    refine ⟨queue, hq, ?_⟩
    rw [if_neg fun hacc => hnot ⟨hmem, hacc⟩, List.append_nil]

theorem not_awaits_close (h : feed.Sound) : ¬ feed.close.Awaits n queue := by
  intro hq
  have hmem : n ∈ feed.close.subscribers := (h.close.connected n _ hq).2.mp rfl
  cases hmem

/-- A listener that is connected after a publication was so before, and if nothing was dropped for
it everything is queued. -/
theorem publishAll_connected {events : List ε} (h : feed.Sound)
    (hq : (feed.publishAll events).Awaits n queue) :
    ∃ earlier, feed.Awaits n earlier ∧
      (droppedFor n feed events = [] → queue = earlier ++ events) := by
  induction events generalizing feed with
  | nil => exact ⟨queue, hq, fun _ => (List.append_nil _).symm⟩
  | cons e rest ih =>
    obtain ⟨mid, hmid, hrest⟩ := ih (h.publish e) hq
    obtain ⟨earlier, hearlier, rfl⟩ := publish_connected h hmid
    refine ⟨earlier, hearlier, ?_⟩
    intro hd
    obtain ⟨hfirst, hd⟩ := List.append_eq_nil_iff.mp hd
    rw [hrest hd]
    split at hfirst
    · rename_i hacc
      rw [if_pos hacc, List.append_assoc, List.singleton_append]
    · cases hfirst

/-- A listener that is connected after a step was so before, and what it had before it has heard or
still has to hear. -/
theorem listen_connected {step : Listening} (hn : n < feed.next)
    (hq : (feed.listen step).Awaits n queue) : feed.Awaits n (feed.heard n step ++ queue) := by
  obtain ⟨⟨old, connected⟩, hold, rfl, hconn⟩ := of_listen_getElem? hn hq
  obtain rfl : connected = true := hconn rfl
  exact hold

end Feed

end GovernanceCache
