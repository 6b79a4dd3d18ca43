import GovernanceCache.Proofs.Chronicle
import GovernanceCache.Proofs.Deliveries
import Mathlib.Data.List.Perm.Basic

/-!
# The accounts of the listeners

A feed has many listeners, who come, receive, lag and go in any order. The record of what happened
tells what each of them is due: the events that were published while it was registered, less those
that were published while its inbox was full. What a listener received and what is queued for it is
exactly what it is due, and the feed counts those that took an event and those that missed it.

1. `due`, `isRegistered` and `isThere` read the record alone. `Booked` ties them to the feed, and
   every step keeps it, whatever the order in which the feed keeps its subscribers.
2. A step that does not concern a listener changes nothing for it (`Course.aside`), so it can be
   left out (`Alike.steps`).
-/

namespace GovernanceCache.Feed

variable {ε : Type}

/-- A step of a feed. -/
inductive Step (ε : Type) where
  | publish (event : ε)
  | close
  | listen (step : Listening)
  /-- The feed keeps its subscribers in another order; nothing happens if they are others. -/
  | reorder (order : List Nat)

/-- What is on record of a feed. -/
inductive Entry (ε : Type) where
  | subscribed (n : Nat)
  | unsubscribed (n : Nat)
  | closed
  /-- The receiver of a listener was given up. -/
  | discarded (n : Nat)
  | received (n : Nat) (events : List ε)
  /-- An event was published, and so many are told to have taken it. -/
  | published (event : ε) (accepted : Nat)

/-- A feed and its record, the newest entry first. -/
structure Course (ε : Type) where
  feed : Feed ε
  record : List (Entry ε) := []

/-- What a step of a listener puts on record. -/
def told (feed : Feed ε) : Listening → List (Entry ε)
  | .subscribe => (feed.subscribe?.map fun (_, n) => Entry.subscribed n).toList
  | .unsubscribe n => [.unsubscribed n]
  | .discard n => [.discarded n]
  | .receive n => [.received n (feed.heard n (.receive n))]
  | .drain n => [.received n (feed.heard n (.drain n))]

namespace Course

/-- The course after one more step. -/
def act (s : Course ε) : Step ε → Course ε
  | .publish event =>
    { feed := (s.feed.publish event).1
      record := .published event (s.feed.publish event).2 :: s.record }
  | .close => { feed := s.feed.close, record := .closed :: s.record }
  | .listen step => { feed := s.feed.listen step, record := s.feed.told step ++ s.record }
  | .reorder order =>
    if order.isPerm s.feed.subscribers then { s with feed := { s.feed with subscribers := order } }
    else s

/-- The course after more steps. -/
def steps (s : Course ε) (steps : List (Step ε)) : Course ε := steps.foldl act s

/-- The course of a new feed. -/
def run (topic : String) (buffer : Nat) (steps : List (Step ε)) : Course ε :=
  ({ feed := .create topic buffer } : Course ε).steps steps

end Course

/-! ## What the record tells -/

/-- The receiver of the listener is there. -/
def isThere (n : Nat) : List (Entry ε) → Bool
  | [] => false
  | .subscribed m :: earlier => m == n || isThere n earlier
  | .discarded m :: earlier => m != n && isThere n earlier
  | _ :: earlier => isThere n earlier

/-- The listener subscribed, and was not let go since: it did not unsubscribe, the feed was not
closed, and nothing was published after its receiver was given up. -/
def isRegistered (n : Nat) : List (Entry ε) → Bool
  | [] => false
  | .subscribed m :: earlier => m == n || isRegistered n earlier
  | .unsubscribed m :: earlier => m != n && isRegistered n earlier
  | .closed :: _ => false
  | .published .. :: earlier => isRegistered n earlier && isThere n earlier
  | _ :: earlier => isRegistered n earlier

/-- The events that the listener received, in order. -/
def got (n : Nat) : List (Entry ε) → List ε
  | [] => []
  | .received m events :: earlier => got n earlier ++ if m = n then events else []
  | _ :: earlier => got n earlier

/-- The events that were published while the listener was registered, in order, less those that were
published while as many events were queued for it as there is room. -/
def due (room n : Nat) : List (Entry ε) → List ε
  | [] => []
  | .published event _ :: earlier =>
    due room n earlier ++
      if isRegistered n earlier && (due room n earlier).length - (got n earlier).length < room
      then [event] else []
  | _ :: earlier => due room n earlier

/-- The number of events that the listener is due and did not receive. -/
def owed (room n : Nat) (record : List (Entry ε)) : Nat :=
  (due room n record).length - (got n record).length

/-- The listener takes an event that is published now. -/
def takes (room : Nat) (record : List (Entry ε)) (n : Nat) : Bool :=
  isRegistered n record && isThere n record && owed room n record < room

/-- The listener misses an event that is published now, since there is no room for it. -/
def misses (room : Nat) (record : List (Entry ε)) (n : Nat) : Bool :=
  isRegistered n record && isThere n record && !(owed room n record < room)

/-- Those who ever subscribed, the latest first. -/
def listeners (record : List (Entry ε)) : List Nat :=
  record.filterMap fun
    | .subscribed n => some n
    | _ => none

/-- All events that were published, in order. -/
def publications (record : List (Entry ε)) : List ε :=
  (record.filterMap fun
    | .published event _ => some event
    | _ => none).reverse

/-- How often a listener missed an event. -/
def skipped (room : Nat) : List (Entry ε) → Nat
  | [] => 0
  | .published .. :: earlier =>
    skipped room earlier + (listeners earlier).countP (misses room earlier)
  | _ :: earlier => skipped room earlier

/-- What may come on record: of a publication those who take the event are told. -/
def PublishLaw (room : Nat) (earlier : List (Entry ε)) : Entry ε → Prop
  | .published _ accepted => accepted = (listeners earlier).countP (takes room earlier)
  | _ => True

/-- The step is made by or for the listener. -/
def Step.concerns (n : Nat) : Step ε → Bool
  | .publish _ | .close => true
  | .listen (.unsubscribe m) | .listen (.discard m) | .listen (.receive m) | .listen (.drain m) =>
    m == n
  | .listen .subscribe | .reorder _ => false

/-- The listener finds the same in both courses. -/
structure FindsSame (n : Nat) (s t : Course ε) : Prop where
  inbox : s.feed.inboxes[n]? = t.feed.inboxes[n]?
  registered : n ∈ s.feed.subscribers ↔ n ∈ t.feed.subscribers
  got : got n s.record = got n t.record

/-- The feed delivers to every listener what it is due. -/
structure Delivers (room : Nat) (s : Course ε) : Prop where
  /-- What a listener received and what is queued for it is what it is due. -/
  balanced : ∀ n box, s.feed.inboxes[n]? = some box →
    got n s.record ++ box.queue = due room n s.record
  /-- One whose receiver was given up received the first part of it. -/
  partly : ∀ n, got n s.record <+: due room n s.record
  /-- Nobody is due an event twice or out of order. -/
  ordered : ∀ n, (due room n s.record).Sublist (publications s.record)
  there : ∀ n, n ∈ s.feed.inboxes ↔ isThere n s.record = true
  registered : ∀ n, n ∈ s.feed.subscribers ↔ isRegistered n s.record = true
  /-- A publication tells how many take the event. -/
  lawful : Chronicle (PublishLaw room) s.record
  counted : s.feed.dropped = skipped room s.record
  /-- A publication removes those whose receiver was given up. -/
  removes : ∀ event n, n ∈ (s.feed.publish event).1.subscribers ↔
    n ∈ s.feed.subscribers ∧ isThere n s.record = true
  /-- Whatever happens later, the steps that others make can be left out. -/
  apart : ∀ n later, n < s.feed.next →
    FindsSame n (s.steps later) (s.steps (later.filter (Step.concerns n)))

variable {feed : Feed ε} {s t : Course ε} {n m room : Nat} {record : List (Entry ε)} {event : ε}
  {box : Inbox ε}

theorem mem_listeners_of_isThere (h : isThere n record = true) : n ∈ listeners record := by
  induction record with
  | nil => cases h
  | cons e earlier ih =>
    cases e with
    | subscribed m =>
      have h : (m == n || isThere n earlier) = true := h
      show n ∈ m :: listeners earlier
      rw [Bool.or_eq_true, beq_iff_eq] at h
      rcases h with rfl | h
      · exact List.mem_cons_self
      · exact List.mem_cons_of_mem _ (ih h)
    | discarded m =>
      have h : (m != n && isThere n earlier) = true := h
      rw [Bool.and_eq_true] at h
      exact ih h.2
    | _ => exact ih h

theorem due_sublist (room n : Nat) (record : List (Entry ε)) :
    (due room n record).Sublist (publications record) := by
  induction record with
  | nil => exact .slnil
  | cons e earlier ih =>
    cases e with
    | published event accepted =>
      have hp : publications (.published event accepted :: earlier) =
          publications earlier ++ [event] := by simp [publications]
      rw [hp]
      show (due room n earlier ++ if _ then [event] else []).Sublist _
      refine ih.append ?_
      split
      · exact .refl _
      · exact List.nil_sublist _
    | _ => exact ih

theorem deliveryTo_eq_accepted : feed.deliveryTo n = .accepted ↔
    ∃ box, feed.inboxes[n]? = some box ∧ box.queue.length < feed.buffer := by
  unfold deliveryTo
  rcases feed.inboxes[n]? with _ | box
  · simp
  · simp

theorem deliveryTo_eq_full : feed.deliveryTo n = .full ↔
    ∃ box, feed.inboxes[n]? = some box ∧ ¬ box.queue.length < feed.buffer := by
  unfold deliveryTo
  rcases feed.inboxes[n]? with _ | box
  · simp
  · simp

theorem deliveryTo_eq_gone : feed.deliveryTo n = .gone ↔ feed.inboxes[n]? = none := by
  unfold deliveryTo
  rcases feed.inboxes[n]? with _ | box
  · simp
  · simp only [reduceCtorEq, iff_false]
    split <;> nofun

/-! ## What a step of a listener puts on record -/

theorem due_told (step : Listening) :
    due room n (feed.told step ++ record) = due room n record := by
  cases step with
  | subscribe =>
    show due room n ((feed.subscribe?.map fun (_, m) => Entry.subscribed m).toList ++ record) = _
    rcases feed.subscribe? with _ | _ <;> rfl
  | _ => rfl

theorem skipped_told (step : Listening) :
    skipped room (feed.told step ++ record) = skipped room record := by
  cases step with
  | subscribe =>
    show skipped room ((feed.subscribe?.map fun (_, m) => Entry.subscribed m).toList ++ record) = _
    rcases feed.subscribe? with _ | _ <;> rfl
  | _ => rfl

theorem got_told (step : Listening) :
    got n (feed.told step ++ record) = got n record ++ feed.heard n step := by
  cases step with
  | subscribe =>
    show got n ((feed.subscribe?.map fun (_, m) => Entry.subscribed m).toList ++ record) = _
    rw [show feed.heard n .subscribe = [] from rfl, List.append_nil]
    rcases feed.subscribe? with _ | _ <;> rfl
  | unsubscribe k => exact (List.append_nil _).symm
  | discard k => exact (List.append_nil _).symm
  | receive k =>
    show got n record ++ (if k = n then feed.heard k (.receive k) else []) = _
    by_cases hkn : k = n
    · rw [if_pos hkn, hkn]
    · rw [if_neg hkn, heard_receive, if_neg hkn]
  | drain k =>
    show got n record ++ (if k = n then feed.heard k (.drain k) else []) = _
    by_cases hkn : k = n
    · rw [if_pos hkn, hkn]
    · rw [if_neg hkn, heard_drain, if_neg hkn]

theorem lawful_told (step : Listening) (h : Chronicle (PublishLaw room) record) :
    Chronicle (PublishLaw room) (feed.told step ++ record) := by
  cases step with
  | subscribe =>
    show Chronicle _ ((feed.subscribe?.map fun (_, m) => Entry.subscribed m).toList ++ record)
    rcases feed.subscribe? with _ | _
    · exact h
    · exact ⟨trivial, h⟩
  | _ => exact ⟨trivial, h⟩

/-- A listener only hears what is queued for it. -/
theorem heard_prefix (feed : Feed ε) (n : Nat) (step : Listening) : feed.heard n step = [] ∨
    ∃ box, feed.inboxes[n]? = some box ∧ feed.heard n step <+: box.queue := by
  cases step with
  | receive k =>
    rw [heard_receive]
    split
    · rcases feed.inboxes[n]? with _ | ⟨_ | ⟨e, rest⟩, connected⟩
      · exact .inl rfl
      · exact .inl rfl
      · exact .inr ⟨_, rfl, List.prefix_append [e] rest⟩
    · exact .inl rfl
  | drain k =>
    rw [heard_drain]
    split
    · rcases feed.inboxes[n]? with _ | box
      · exact .inl rfl
      · exact .inr ⟨_, rfl, List.prefix_refl _⟩
    · exact .inl rfl
  | _ => exact .inl rfl

theorem isThere_told {step : Listening} (hstep : step ≠ .subscribe) :
    isThere n (feed.told step ++ record) = true ↔
      isThere n record = true ∧ step ≠ .discard n := by
  cases step with
  | subscribe => exact absurd rfl hstep
  | discard k =>
    show (k != n && isThere n record) = true ↔ _
    rw [Bool.and_eq_true, bne_iff_ne, and_comm, ne_eq, ne_eq, Listening.discard.injEq]
  | _ => exact ⟨fun hs => ⟨hs, nofun⟩, And.left⟩

theorem isRegistered_told {step : Listening} (hstep : step ≠ .subscribe) :
    isRegistered n (feed.told step ++ record) = true ↔
      isRegistered n record = true ∧ step ≠ .unsubscribe n := by
  cases step with
  | subscribe => exact absurd rfl hstep
  | unsubscribe k =>
    show (k != n && isRegistered n record) = true ↔ _
    rw [Bool.and_eq_true, bne_iff_ne, and_comm, ne_eq, ne_eq, Listening.unsubscribe.injEq]
  | _ => exact ⟨fun hs => ⟨hs, nofun⟩, And.left⟩

/-! ## What holds of every course -/

/-- The record and the feed go together. -/
structure Booked (room : Nat) (s : Course ε) : Prop where
  capacity : s.feed.buffer = room
  sound : s.feed.Sound
  balanced : ∀ n box, s.feed.inboxes[n]? = some box →
    got n s.record ++ box.queue = due room n s.record
  partly : ∀ n, got n s.record <+: due room n s.record
  there : ∀ n, n ∈ s.feed.inboxes ↔ isThere n s.record = true
  registered : ∀ n, n ∈ s.feed.subscribers ↔ isRegistered n s.record = true
  /-- Nobody received or is due anything before it has come. -/
  fresh : ∀ n, s.feed.next ≤ n → due room n s.record = []
  listeners : (listeners s.record).Nodup ∧ ∀ n ∈ listeners s.record, n < s.feed.next
  counted : s.feed.dropped = skipped room s.record
  lawful : Chronicle (PublishLaw room) s.record

namespace Booked

theorem create (topic : String) (buffer : Nat) :
    Booked (max buffer 1) ({ feed := .create topic buffer } : Course ε) where
  capacity := rfl
  sound := .create topic buffer
  balanced n box hbox := by simp [Feed.create] at hbox
  partly n := List.nil_prefix
  there n := by simp [Feed.create, isThere]
  registered n := by simp [Feed.create, isRegistered]
  fresh n _ := rfl
  listeners := ⟨.nil, nofun⟩
  counted := rfl
  lawful := trivial

theorem owed_eq (h : Booked room s) (hbox : s.feed.inboxes[n]? = some box) :
    owed room n s.record = box.queue.length := by
  unfold owed
  rw [← h.balanced n box hbox, List.length_append]
  omega

theorem isThere_iff (h : Booked room s) :
    isThere n s.record = true ↔ ∃ box, s.feed.inboxes[n]? = some box := by
  rw [← h.there, Std.ExtTreeMap.mem_iff_isSome_getElem?, Option.isSome_iff_exists]

theorem takes_iff (h : Booked room s) : takes room s.record n = true ↔
    n ∈ s.feed.subscribers ∧ s.feed.deliveryTo n = .accepted := by
  unfold takes
  rw [Bool.and_eq_true, Bool.and_eq_true, decide_eq_true_eq, h.registered, deliveryTo_eq_accepted,
    h.isThere_iff, h.capacity, and_assoc]
  refine and_congr_right fun _ => ?_
  constructor
  · rintro ⟨⟨box, hbox⟩, hlt⟩
    exact ⟨box, hbox, by rw [← h.owed_eq hbox]; exact hlt⟩
  · rintro ⟨box, hbox, hlt⟩
    exact ⟨⟨box, hbox⟩, by rw [h.owed_eq hbox]; exact hlt⟩

theorem misses_iff (h : Booked room s) : misses room s.record n = true ↔
    n ∈ s.feed.subscribers ∧ s.feed.deliveryTo n = .full := by
  unfold misses
  rw [Bool.and_eq_true, Bool.and_eq_true, Bool.not_eq_true', decide_eq_false_iff_not, h.registered,
    deliveryTo_eq_full, h.isThere_iff, h.capacity, and_assoc]
  refine and_congr_right fun _ => ?_
  constructor
  · rintro ⟨⟨box, hbox⟩, hle⟩
    exact ⟨box, hbox, by rw [← h.owed_eq hbox]; exact hle⟩
  · rintro ⟨box, hbox, hle⟩
    exact ⟨⟨box, hbox⟩, by rw [h.owed_eq hbox]; exact hle⟩

/-- The feed and the record count the same subscribers. -/
theorem count_eq (h : Booked room s) {outcome : Delivery} {p : Nat → Bool}
    (hp : ∀ n, p n = true ↔ n ∈ s.feed.subscribers ∧ s.feed.deliveryTo n = outcome)
    (hne : outcome ≠ .gone) :
    (s.feed.subscribers.filter fun n => s.feed.deliveryTo n == outcome).length =
      (Feed.listeners s.record).countP p := by
  rw [List.countP_eq_length_filter]
  refine List.Perm.length_eq ?_
  rw [List.perm_ext_iff_of_nodup (h.sound.distinct.filter _) (h.listeners.1.filter _)]
  intro n
  rw [List.mem_filter, List.mem_filter, hp, beq_iff_eq]
  refine ⟨fun hn => ⟨?_, hn⟩, And.right⟩
  refine mem_listeners_of_isThere (h.isThere_iff.mpr ?_)
  rw [← Option.isSome_iff_exists, Option.isSome_iff_ne_none, ne_eq, ← deliveryTo_eq_gone, hn.2]
  exact hne

theorem publish (h : Booked room s) (event : ε) : Booked room (s.act (.publish event)) := by
  have hdue : ∀ n, due room n (s.act (.publish event)).record = due room n s.record ++
      if isRegistered n s.record && owed room n s.record < room then [event] else [] := fun _ => rfl
  have hinbox := publish_getElem? h.sound event
  refine ⟨h.capacity, h.sound.publish event, ?_, ?_, ?_, ?_, ?_, h.listeners, ?_, ?_⟩
  · intro n box hbox
    have hbox : (s.feed.publish event).1.inboxes[n]? = some box := hbox
    rw [hinbox] at hbox
    rw [hdue]
    show got n s.record ++ box.queue = _
    split at hbox
    · rename_i hacc
      obtain ⟨old, hold, rfl⟩ := Option.map_eq_some_iff.mp hbox
      obtain ⟨hreg, hlt⟩ : isRegistered n s.record = true ∧ owed room n s.record < room := by
        have htakes := h.takes_iff.mpr hacc
        unfold takes at htakes
        simp only [Bool.and_eq_true, decide_eq_true_eq] at htakes
        exact ⟨htakes.1.1, htakes.2⟩
      rw [hreg, if_pos (by simpa using hlt), ← h.balanced n old hold, List.append_assoc]
    · rename_i hnot
      have hthere : isThere n s.record = true := h.isThere_iff.mpr ⟨box, hbox⟩
      have htakes : takes room s.record n = false :=
        Bool.eq_false_iff.mpr fun ht => hnot (h.takes_iff.mp ht)
      have hcond : (isRegistered n s.record && decide (owed room n s.record < room)) = false := by
        unfold takes at htakes
        rw [hthere, Bool.and_true] at htakes
        exact htakes
      rw [hcond, if_neg nofun, List.append_nil]
      exact h.balanced n box hbox
  · intro n
    rw [hdue]
    exact (h.partly n).trans (List.prefix_append _ _)
  · intro n
    show n ∈ (s.feed.publish event).1.inboxes ↔ isThere n s.record = true
    rw [← h.there, Std.ExtTreeMap.mem_iff_isSome_getElem?,
      Std.ExtTreeMap.mem_iff_isSome_getElem?, hinbox]
    split
    · rw [Option.isSome_map]
    · rfl
  · intro n
    show n ∈ s.feed.subscribers.filter _ ↔ (isRegistered n s.record && isThere n s.record) = true
    rw [List.mem_filter, Bool.and_eq_true, h.registered, bne_iff_ne, ne_eq, deliveryTo_eq_gone,
      h.isThere_iff, ← ne_eq, Option.ne_none_iff_exists']
  · intro n hn
    rw [hdue, h.fresh n hn]
    have hreg : isRegistered n s.record = false := by
      rw [Bool.eq_false_iff, ne_eq, ← h.registered]
      exact fun hmem => Nat.lt_irrefl n (Nat.lt_of_lt_of_le (h.sound.given n hmem) hn)
    rw [hreg]
    rfl
  · show s.feed.dropped + _ = skipped room s.record + _
    rw [h.counted, h.count_eq (fun n => h.misses_iff) nofun]
  · exact ⟨h.count_eq (fun n => h.takes_iff) nofun, h.lawful⟩

theorem close (h : Booked room s) : Booked room (s.act .close) := by
  have hinbox := close_getElem? h.sound
  refine ⟨h.capacity, h.sound.close, ?_, h.partly, ?_, ?_, h.fresh, h.listeners, h.counted,
    trivial, h.lawful⟩
  · intro n box hbox
    rw [show (s.act .close).feed.inboxes[n]? = _ from hinbox n] at hbox
    split at hbox
    · obtain ⟨old, hold, rfl⟩ := Option.map_eq_some_iff.mp hbox
      exact h.balanced n old hold
    · exact h.balanced n box hbox
  · intro n
    show n ∈ s.feed.close.inboxes ↔ isThere n s.record = true
    rw [← h.there, Std.ExtTreeMap.mem_iff_isSome_getElem?,
      Std.ExtTreeMap.mem_iff_isSome_getElem?, hinbox]
    split
    · rw [Option.isSome_map]
    · rfl
  · intro n
    exact ⟨nofun, nofun⟩

theorem reorder (h : Booked room s) (order : List Nat) : Booked room (s.act (.reorder order)) := by
  show Booked room (if order.isPerm s.feed.subscribers then _ else s)
  split
  · rename_i hperm
    have hperm : order.Perm s.feed.subscribers := List.isPerm_iff.mp hperm
    exact { h with
      sound := h.sound.reorder hperm
      registered := fun n => hperm.mem_iff.trans (h.registered n) }
  · exact h

/-! ### The steps of the listeners -/

theorem subscribed (h : Booked room s) : Booked room
    { feed := { s.feed with
        subscribers := s.feed.subscribers ++ [s.feed.next]
        inboxes := s.feed.inboxes.insert s.feed.next {}
        next := s.feed.next + 1 }
      record := .subscribed s.feed.next :: s.record } := by
  refine ⟨h.capacity, h.sound.subscribe, ?_, h.partly, ?_, ?_, ?_, ⟨?_, ?_⟩, h.counted,
    trivial, h.lawful⟩
  · intro n box hbox
    show got n s.record ++ box.queue = due room n s.record
    simp only [getElem?_insert_eq] at hbox
    split at hbox
    · rename_i hn
      obtain rfl := Option.some.inj hbox
      have hdue : due room n s.record = [] := h.fresh n (Nat.le_of_eq hn)
      have hgot : got n s.record = [] := List.prefix_nil.mp (hdue ▸ h.partly n)
      rw [hgot, hdue]
      rfl
    · exact h.balanced n box hbox
  · intro n
    show n ∈ s.feed.inboxes.insert s.feed.next {} ↔
      (s.feed.next == n || isThere n s.record) = true
    rw [Std.ExtTreeMap.mem_insert, Std.compare_eq_iff_eq, Bool.or_eq_true, beq_iff_eq, h.there]
  · intro n
    show n ∈ s.feed.subscribers ++ [s.feed.next] ↔
      (s.feed.next == n || isRegistered n s.record) = true
    rw [List.mem_append, List.mem_singleton, Bool.or_eq_true, beq_iff_eq, h.registered, or_comm,
      eq_comm]
  · intro n hn
    exact h.fresh n (Nat.le_of_succ_le hn)
  · exact List.nodup_cons.mpr ⟨fun hmem => Nat.lt_irrefl _ (h.listeners.2 _ hmem), h.listeners.1⟩
  · intro n hmem
    rcases List.mem_cons.mp hmem with rfl | hmem
    · exact Nat.lt_succ_self _
    · exact Nat.lt_succ_of_lt (h.listeners.2 n hmem)

theorem subscribe (h : Booked room s) : Booked room (s.act (.listen .subscribe)) := by
  unfold Course.act
  simp only [Feed.listen, told]
  unfold subscribe?
  split
  · exact h.subscribed
  · exact h

/-- Every step of a listener but to subscribe. -/
theorem listen (h : Booked room s) {step : Listening} (hstep : step ≠ .subscribe) :
    Booked room (s.act (.listen step)) := by
  have hdue : ∀ n, due room n (s.act (.listen step)).record = due room n s.record :=
    fun n => due_told step
  have hgot : ∀ n, got n (s.act (.listen step)).record =
    got n s.record ++ s.feed.heard n step := fun n => got_told step
  have hsound := h.sound.listen step
  obtain ⟨subscribers, inboxes, hwith⟩ := s.feed.listen_eq_with hstep
  have hnext : (s.feed.listen step).next = s.feed.next := by rw [hwith]
  have hlisteners : Feed.listeners (s.feed.told step ++ s.record) = Feed.listeners s.record := by
    cases step with
    | subscribe => exact absurd rfl hstep
    | _ => rfl
  refine ⟨?_, hsound, ?_, ?_, ?_, ?_, ?_, ?_, ?_, ?_⟩
  · exact (buffer_listen s.feed step).trans h.capacity
  · intro n box hbox
    rw [hdue, hgot]
    have hn : n < s.feed.next := hnext ▸ (hsound.connected n box hbox).1
    obtain ⟨old, hold, hqueue, -⟩ := of_listen_getElem? hn hbox
    rw [List.append_assoc, ← hqueue]
    exact h.balanced n old hold
  · intro n
    rw [hdue, hgot]
    rcases s.feed.heard_prefix n step with hnil | ⟨box, hbox, hheard⟩
    · rw [hnil, List.append_nil]
      exact h.partly n
    · rw [← h.balanced n box hbox]
      exact (List.prefix_append_right_inj _).mpr hheard
  · intro n
    exact (mem_inboxes_listen fun he => absurd he hstep).trans
      ((and_congr_left' (h.there n)).trans (isThere_told hstep).symm)
  · intro n
    refine Iff.trans ?_ ((and_congr_left' (h.registered n)).trans (isRegistered_told hstep).symm)
    exact mem_listen h.sound fun he => absurd he hstep
  · intro n hn
    rw [hdue]
    exact h.fresh n (hnext ▸ hn)
  · show (Feed.listeners (s.feed.told step ++ s.record)).Nodup ∧
      ∀ n ∈ Feed.listeners (s.feed.told step ++ s.record), n < (s.feed.listen step).next
    rw [hlisteners, hnext]
    exact h.listeners
  · show (s.feed.listen step).dropped = skipped room (s.feed.told step ++ s.record)
    rw [hwith, skipped_told]
    exact h.counted
  · exact lawful_told step h.lawful

theorem act (h : Booked room s) (step : Step ε) : Booked room (s.act step) := by
  cases step with
  | publish event => exact h.publish event
  | close => exact h.close
  | listen step =>
    by_cases hstep : step = .subscribe
    · rw [hstep]
      exact h.subscribe
    · exact h.listen hstep
  | reorder order => exact h.reorder order

theorem steps (h : Booked room s) (steps : List (Step ε)) : Booked room (s.steps steps) := by
  induction steps generalizing s with
  | nil => exact h
  | cons step rest ih => exact ih (h.act step)

theorem run (topic : String) (buffer : Nat) (steps : List (Step ε)) :
    Booked (max buffer 1) (Course.run topic buffer steps) :=
  (Booked.create topic buffer).steps steps

end Booked

/-! ## Other listeners -/

namespace Course

theorem act_buffer (s : Course ε) (step : Step ε) : (s.act step).feed.buffer = s.feed.buffer := by
  cases step with
  | publish event => rfl
  | close => rfl
  | listen step => exact buffer_listen s.feed step
  | reorder order =>
    show (if order.isPerm s.feed.subscribers then _ else s : Course ε).feed.buffer = _
    split <;> rfl

theorem act_sound (h : s.feed.Sound) (step : Step ε) : (s.act step).feed.Sound := by
  cases step with
  | publish event => exact h.publish event
  | close => exact h.close
  | listen step => exact h.listen step
  | reorder order =>
    show (if order.isPerm s.feed.subscribers then _ else s : Course ε).feed.Sound
    split
    · rename_i hperm
      exact h.reorder (List.isPerm_iff.mp hperm)
    · exact h

theorem next_le_act (s : Course ε) (step : Step ε) : s.feed.next ≤ (s.act step).feed.next := by
  cases step with
  | publish event => exact Nat.le_refl _
  | close => exact Nat.le_refl _
  | listen step => exact next_le_listen s.feed step
  | reorder order =>
    show s.feed.next ≤ (if order.isPerm s.feed.subscribers then _ else s : Course ε).feed.next
    split <;> exact Nat.le_refl _

end Course

namespace FindsSame

theorem symm (h : FindsSame n s t) : FindsSame n t s :=
  ⟨h.inbox.symm, h.registered.symm, h.got.symm⟩

theorem trans {u : Course ε} (h : FindsSame n s t) (h' : FindsSame n t u) : FindsSame n s u :=
  ⟨h.inbox.trans h'.inbox, h.registered.trans h'.registered, h.got.trans h'.got⟩

end FindsSame

/-- A step of another listener leaves the inbox alone. -/
theorem listen_aside (feed : Feed ε) {step : Listening} (hn : n < feed.next)
    (hstep : Step.concerns n (.listen step : Step ε) = false) :
    (feed.listen step).inboxes[n]? = feed.inboxes[n]? ∧ feed.heard n step = [] ∧
      step ≠ .unsubscribe n := by
  cases step with
  | subscribe => exact ⟨subscribe_getElem? (Nat.ne_of_lt hn), rfl, nofun⟩
  | unsubscribe k =>
    have hkn : k ≠ n := beq_eq_false_iff_ne.mp hstep
    refine ⟨?_, rfl, fun he => hkn (Listening.unsubscribe.inj he)⟩
    rw [unsubscribe_getElem?, if_neg fun h => hkn h.1]
  | discard k =>
    refine ⟨?_, rfl, nofun⟩
    rw [discard_getElem?, if_neg (beq_eq_false_iff_ne.mp hstep)]
  | receive k =>
    have hkn : k ≠ n := beq_eq_false_iff_ne.mp hstep
    rw [receive_getElem?, if_neg hkn, heard_receive, if_neg hkn]
    exact ⟨rfl, rfl, nofun⟩
  | drain k =>
    have hkn : k ≠ n := beq_eq_false_iff_ne.mp hstep
    rw [drain_getElem?, if_neg hkn, heard_drain, if_neg hkn]
    exact ⟨rfl, rfl, nofun⟩

/-- A step that does not concern a listener changes nothing for it. -/
theorem Course.aside (h : s.feed.Sound) (hn : n < s.feed.next) {step : Step ε}
    (hstep : step.concerns n = false) : FindsSame n (s.act step) s := by
  cases step with
  | publish event => cases hstep
  | close => cases hstep
  | listen step =>
    obtain ⟨hinbox, hheard, hne⟩ := s.feed.listen_aside hn hstep
    refine ⟨hinbox, ?_, ?_⟩
    · exact (mem_listen h fun _ => Nat.ne_of_lt hn).trans (and_iff_left hne)
    · exact (got_told step).trans (by rw [hheard, List.append_nil])
  | reorder order =>
    show FindsSame n (if order.isPerm s.feed.subscribers then _ else s : Course ε) s
    split
    · rename_i hperm
      exact ⟨rfl, (List.isPerm_iff.mp hperm).mem_iff, rfl⟩
    · exact ⟨rfl, .rfl, rfl⟩

/-- The listener finds the same in two courses, and will as long as what concerns it is the same. -/
structure Alike (n : Nat) (s t : Course ε) : Prop extends FindsSame n s t where
  buffer : s.feed.buffer = t.feed.buffer
  soundLeft : s.feed.Sound
  soundRight : t.feed.Sound
  givenLeft : n < s.feed.next
  givenRight : n < t.feed.next

namespace Alike

theorem aside (h : Alike n s t) {step : Step ε} (hstep : step.concerns n = false) :
    Alike n (s.act step) t where
  toFindsSame := (Course.aside h.soundLeft h.givenLeft hstep).trans h.toFindsSame
  buffer := (s.act_buffer step).trans h.buffer
  soundLeft := Course.act_sound h.soundLeft step
  soundRight := h.soundRight
  givenLeft := Nat.lt_of_lt_of_le h.givenLeft (s.next_le_act step)
  givenRight := h.givenRight

theorem deliveryTo (h : Alike n s t) : s.feed.deliveryTo n = t.feed.deliveryTo n := by
  unfold Feed.deliveryTo
  rw [h.inbox, h.buffer]

/-- What happens in both courses has the same effect for the listener. -/
theorem findsSame_act (h : Alike n s t) (step : Step ε) :
    FindsSame n (s.act step) (t.act step) := by
  cases step with
  | publish event =>
    refine ⟨?_, ?_, h.got⟩
    · show (s.feed.publish event).1.inboxes[n]? = (t.feed.publish event).1.inboxes[n]?
      rw [publish_getElem? h.soundLeft, publish_getElem? h.soundRight, h.deliveryTo, h.inbox]
      simp only [h.registered]
    · show n ∈ s.feed.subscribers.filter _ ↔ n ∈ t.feed.subscribers.filter _
      rw [List.mem_filter, List.mem_filter, h.deliveryTo, h.registered]
  | close =>
    refine ⟨?_, .rfl, h.got⟩
    show (s.feed.close).inboxes[n]? = (t.feed.close).inboxes[n]?
    rw [close_getElem? h.soundLeft, close_getElem? h.soundRight, h.inbox]
    simp only [h.registered]
  | listen step =>
    refine ⟨?_, ?_, ?_⟩
    · show (s.feed.listen step).inboxes[n]? = (t.feed.listen step).inboxes[n]?
      cases step with
      | subscribe =>
        rw [subscribe_getElem? (Nat.ne_of_lt h.givenLeft),
          subscribe_getElem? (Nat.ne_of_lt h.givenRight), h.inbox]
      | unsubscribe k =>
        rw [unsubscribe_getElem?, unsubscribe_getElem?, h.inbox]
        simp only [h.registered]
      | discard k => rw [discard_getElem?, discard_getElem?, h.inbox]
      | receive k => rw [receive_getElem?, receive_getElem?, h.inbox]
      | drain k => rw [drain_getElem?, drain_getElem?, h.inbox]
    · show n ∈ (s.feed.listen step).subscribers ↔ n ∈ (t.feed.listen step).subscribers
      rw [mem_listen h.soundLeft fun _ => Nat.ne_of_lt h.givenLeft,
        mem_listen h.soundRight fun _ => Nat.ne_of_lt h.givenRight, h.registered]
    · show Feed.got n (s.feed.told step ++ s.record) = Feed.got n (t.feed.told step ++ t.record)
      rw [got_told, got_told, h.got]
      congr 1
      cases step with
      | receive k => rw [heard_receive, heard_receive, h.inbox]
      | drain k => rw [heard_drain, heard_drain, h.inbox]
      | _ => rfl
  | reorder order =>
    have hstep : (Step.reorder order : Step ε).concerns n = false := rfl
    have hs := Course.aside h.soundLeft h.givenLeft hstep
    have ht := Course.aside h.soundRight h.givenRight hstep
    exact hs.trans (h.toFindsSame.trans ht.symm)

theorem act (h : Alike n s t) (step : Step ε) : Alike n (s.act step) (t.act step) where
  toFindsSame := h.findsSame_act step
  buffer := by rw [s.act_buffer, t.act_buffer, h.buffer]
  soundLeft := Course.act_sound h.soundLeft step
  soundRight := Course.act_sound h.soundRight step
  givenLeft := Nat.lt_of_lt_of_le h.givenLeft (s.next_le_act step)
  givenRight := Nat.lt_of_lt_of_le h.givenRight (t.next_le_act step)

/-- The steps that do not concern the listener can be left out of one of the courses. -/
theorem steps (h : Alike n s t) (later : List (Step ε)) :
    Alike n (s.steps later) (t.steps (later.filter (Step.concerns n))) := by
  induction later generalizing s t with
  | nil => exact h
  | cons step rest ih =>
    by_cases hstep : step.concerns n = true
    · rw [List.filter_cons_of_pos hstep]
      exact ih (h.act step)
    · rw [List.filter_cons_of_neg hstep]
      exact ih (h.aside (Bool.eq_false_iff.mpr hstep))

end Alike

/-- **Event delivery.** Let those who listen to a feed subscribe, receive and go, and let it publish
and close, in any order. What a listener received and what is queued for it is, in order and once
each, what was published while it was registered, less what was published while its inbox was full.
The feed counts who took and who missed an event, a publication removes exactly those whose
receiver was given up, and what one listener does makes no difference to another. -/
theorem run_delivers (topic : String) (buffer : Nat) (steps : List (Step ε)) :
    Delivers (max buffer 1) (Course.run topic buffer steps) := by
  have h := Booked.run (ε := ε) topic buffer steps
  refine ⟨h.balanced, h.partly, fun n => due_sublist _ n _, h.there, h.registered, h.lawful,
    h.counted, ?_, ?_⟩
  · intro event n
    rw [← h.there, Std.ExtTreeMap.mem_iff_isSome_getElem?, Option.isSome_iff_ne_none, ne_eq,
      ← deliveryTo_eq_gone, ← ne_eq, ← bne_iff_ne]
    exact List.mem_filter
  · intro n later hn
    have hself : Alike n (Course.run topic buffer steps) (Course.run topic buffer steps) :=
      ⟨⟨rfl, .rfl, rfl⟩, rfl, h.sound, h.sound, hn, hn⟩
    exact (hself.steps later).toFindsSame

/-- The second listener has no room for the second event, and was gone when the third came. -/
example :
    let s := Course.run "services" 0
      [.listen .subscribe, .listen .subscribe, .publish 'a', .listen (.drain 0), .publish 'b',
        .listen (.discard 1), .publish 'c']
    due 1 0 s.record = ['a', 'b'] ∧ got 0 s.record = ['a'] ∧ due 1 1 s.record = ['a'] ∧
      s.feed.dropped = 2 ∧ s.feed.subscribers = [0] := by decide +kernel

end GovernanceCache.Feed
