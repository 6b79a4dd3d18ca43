import GovernanceCache.Namespaces
import GovernanceCache.Proofs.Deliveries
import GovernanceCache.Proofs.SessionContents
import Mathlib

/-!
# Listeners rebuild the entries

Someone who listens to a replica from some moment on, and for whom no event is dropped, can follow
the entries: the events applied in turn to a copy of the entries of that moment give the entries as
they are now, until the replica is cleared.

1. A move is a step of a session or of a listener. It publishes the changes of the batch that it
   takes in, and nothing else (`move_feed`, `move_entries`).
2. `Hearing` keeps apart what a listener received, what was published, batch by batch, and what was
   dropped for it. `Hearing.Sound` is kept by every move but a clear.

Mathlib is imported whole for the equations by which `cbv` evaluates the run at the end.
-/

namespace GovernanceCache.Desk

variable {R ι : Type}

/-- What happens in a session with listeners. -/
inductive Move (R : Type) where
  /-- A step of a session; it leaves the feed to the listeners. -/
  | act (action : Action R)
  | listen (step : Listening)

/-- The step of the session that a move is. -/
def Move.action (m : Replica R ι) : Move R → Action R
  | .act (.aside tally _) => .aside tally m.feed
  | .act action => action
  | .listen step => .aside m.tally (m.feed.listen step)

variable [Record R]

/-- The changes that a move publishes, batch by batch. -/
def Session.published (s : Session R ι) (move : Move R) : List (List (Change R)) :=
  ((s.batch? (move.action s.refresher.replica)).map fun batch =>
    (merge s.refresher.replica.entries batch).changes).toList

variable [Index R ι]

namespace Session

/-- The session after a move. -/
def move (s : Session R ι) (move : Move R) : Session R ι :=
  s.act (move.action s.refresher.replica)

/-- The session after moves. -/
def moves (s : Session R ι) (moves : List (Move R)) : Session R ι := moves.foldl move s

end Session

/-- A session and what became of its events for one listener, the oldest first. -/
structure Hearing (R ι : Type) where
  session : Session R ι
  received : List (Change R) := []
  /-- The events that were published, batch by batch. -/
  published : List (List (Change R)) := []
  /-- The events that were dropped for the listener. -/
  dropped : List (Change R) := []

namespace Hearing

/-- What the listener hears of a move. -/
def move (n : Nat) (h : Hearing R ι) (move : Move R) : Hearing R ι :=
  let feed := h.session.refresher.replica.feed
  let batches := h.session.published move
  { session := h.session.move move
    received := h.received ++ match move with
      | .act _ => []
      | .listen step => feed.heard n step
    published := h.published ++ batches
    dropped := h.dropped ++ feed.droppedFor n batches.flatten }

/-- What the listener hears of moves in turn. -/
def moves (n : Nat) (h : Hearing R ι) (moves : List (Move R)) : Hearing R ι :=
  moves.foldl (move n) h

end Hearing

namespace Session

variable {s : Session R ι} {action : Action R} {m : Move R} {n : Nat}

omit [Index R ι] in
theorem published_of_none (h : s.batch? (m.action s.refresher.replica) = none) :
    s.published m = [] := by
  unfold published
  rw [h]
  rfl

omit [Index R ι] in
theorem published_of_some {batch : List R}
    (h : s.batch? (m.action s.refresher.replica) = some batch) :
    s.published m = [(merge s.refresher.replica.entries batch).changes] := by
  unfold published
  rw [h]
  rfl

theorem act_feed (h : s.batch? action = none) (hclose : action ≠ .close)
    (haside : ∀ tally feed, action ≠ .aside tally feed) :
    (s.act action).refresher.replica.feed = s.refresher.replica.feed := by
  by_cases hclear : action = .clear
  · subst hclear
    rfl
  · exact (act_untouched h hclear hclose haside).feed

/-- The feed after a move: what was published is in it, a listener did its step, or it was
closed. -/
theorem move_feed (s : Session R ι) (m : Move R) :
    (s.move m).refresher.replica.feed =
      match m with
      | .act .close => s.refresher.replica.feed.close
      | .act _ => s.refresher.replica.feed.publishAll (s.published m).flatten
      | .listen step => s.refresher.replica.feed.listen step := by
  rcases m with action | step
  · rcases hb : s.batch? (Move.action s.refresher.replica (.act action)) with _ | batch
    · rw [published_of_none hb]
      cases action with
      | close => rfl
      | aside tally feed => rfl
      | _ => exact act_feed hb nofun nofun
    · rw [published_of_some hb]
      have hfeed := (act_of_batch hb).1.feed
      obtain ⟨i, _, _, _, _, _, hpoll, -⟩ := of_batch? hb
      -- only a poll takes in a batch
      cases action with
      | poll j =>
        rw [List.flatten_singleton]
        exact hfeed
      | _ => simp [Move.action] at hpoll
  · rfl

/-- Unless it clears, a move turns the entries into what the changes that it publishes make of
them. -/
theorem move_entries (hm : m ≠ .act .clear) :
    Fitting s.refresher.replica.entries (s.published m).flatten ∧
      replayAll s.refresher.replica.entries (s.published m).flatten =
        (s.move m).refresher.replica.entries ∧
      ∀ changes ∈ s.published m, changes.Pairwise fun a b => a.key ≠ b.key := by
  rcases hb : s.batch? (m.action s.refresher.replica) with _ | batch
  · rw [published_of_none hb]
    refine ⟨trivial, ?_, nofun⟩
    refine (act_steady hb ?_).entries.symm
    rcases m with action | step
    · cases action with
      | clear => exact absurd rfl hm
      | _ => nofun
    · nofun
  · rw [published_of_some hb, List.flatten_singleton]
    obtain ⟨hfit, hent, hdist⟩ := merge_replays s.refresher.replica.entries batch
    refine ⟨hfit, hent.trans (act_of_batch hb).1.entries.symm, ?_⟩
    intro changes hmem
    rw [List.mem_singleton.mp hmem]
    exact hdist

theorem move_sound (h : s.refresher.replica.feed.Sound) (m : Move R) :
    (s.move m).refresher.replica.feed.Sound := by
  rw [move_feed]
  split
  · exact h.close
  · exact h.publishAll _
  · exact h.listen _

theorem next_le_move (s : Session R ι) (m : Move R) :
    s.refresher.replica.feed.next ≤ (s.move m).refresher.replica.feed.next := by
  rw [move_feed]
  split
  · exact Nat.le_refl _
  · exact Nat.le_of_eq (Feed.next_publishAll _ _).symm
  · exact Feed.next_le_listen _ _

theorem moves_sound (kind : CacheKind) (skew : Span) (buffer : Nat) (now : Instant)
    (moves : List (Move R)) :
    ((start kind skew buffer now : Session R ι).moves moves).refresher.replica.feed.Sound := by
  have hstart : (start kind skew buffer now : Session R ι).refresher.replica.feed.Sound :=
    Feed.Sound.create kind.name buffer
  generalize (start kind skew buffer now : Session R ι) = s at hstart
  induction moves generalizing s with
  | nil => exact hstart
  | cons m rest ih => exact ih (s.move m) (move_sound hstart m)

end Session

namespace Hearing

variable {h : Hearing R ι} {n : Nat} {entries : Std.ExtTreeMap String R}
  {backlog queue : List (Change R)}

/-- What holds while a listener hears of everything that happens after the entries were as given and
the backlog was queued for it. -/
structure Sound (n : Nat) (entries : Std.ExtTreeMap String R) (backlog : List (Change R))
    (h : Hearing R ι) : Prop where
  feed : h.session.refresher.replica.feed.Sound
  given : n < h.session.refresher.replica.feed.next
  heard : ∀ queue, h.session.refresher.replica.feed.Awaits n queue → h.dropped = [] →
    h.received ++ queue = backlog ++ h.published.flatten
  fitting : Fitting entries h.published.flatten
  entries : replayAll entries h.published.flatten = h.session.refresher.replica.entries
  distinct : ∀ changes ∈ h.published, changes.Pairwise fun a b => a.key ≠ b.key

theorem heard_move (hs : h.session.refresher.replica.feed.Sound)
    (hn : n < h.session.refresher.replica.feed.next) {m : Move R}
    (hq : (h.session.move m).refresher.replica.feed.Awaits n queue) :
    ∃ earlier, h.session.refresher.replica.feed.Awaits n earlier ∧
      ((h.move n m).dropped = [] → h.dropped = [] ∧
        (h.move n m).received ++ queue =
          h.received ++ earlier ++ (h.session.published m).flatten) := by
  rw [Session.move_feed] at hq
  rcases m with action | step
  · by_cases hclose : action = .close
    · subst hclose
      exact absurd hq (Feed.not_awaits_close hs)
    · have hq : (h.session.refresher.replica.feed.publishAll
          (h.session.published (.act action)).flatten).Awaits n queue := by
        cases action with
        | close => exact absurd rfl hclose
        | _ => exact hq
      obtain ⟨earlier, hearlier, hqueue⟩ := Feed.publishAll_connected hs hq
      refine ⟨earlier, hearlier, fun hd => ?_⟩
      obtain ⟨hbefore, hnow⟩ := List.append_eq_nil_iff.mp hd
      refine ⟨hbefore, ?_⟩
      show (h.received ++ []) ++ queue = _
      rw [hqueue hnow, List.append_nil, List.append_assoc]
  · refine ⟨_, Feed.listen_connected hn hq, fun hd => ?_⟩
    obtain ⟨hbefore, -⟩ := List.append_eq_nil_iff.mp hd
    refine ⟨hbefore, ?_⟩
    have hnone : h.session.published (.listen step) = [] := rfl
    show (h.received ++ h.session.refresher.replica.feed.heard n step) ++ queue = _
    rw [hnone, List.flatten_nil, List.append_nil, List.append_assoc]

theorem Sound.move (hs : h.Sound n entries backlog) {m : Move R} (hm : m ≠ .act .clear) :
    (h.move n m).Sound n entries backlog := by
  obtain ⟨hfit, hent, hdist⟩ := h.session.move_entries hm
  have hflat : (h.move n m).published.flatten =
      h.published.flatten ++ (h.session.published m).flatten := List.flatten_append
  refine ⟨Session.move_sound hs.feed m, ?_, ?_, ?_, ?_, ?_⟩
  · exact Nat.lt_of_lt_of_le hs.given (h.session.next_le_move m)
  · intro queue hq hd
    obtain ⟨earlier, hearlier, hnext⟩ := heard_move hs.feed hs.given hq
    obtain ⟨hbefore, heard⟩ := hnext hd
    rw [heard, hs.heard earlier hearlier hbefore, hflat, List.append_assoc]
  · rw [hflat, fitting_append, hs.entries]
    exact ⟨hs.fitting, hfit⟩
  · rw [hflat, replayAll_append, hs.entries]
    exact hent
  · intro changes hmem
    rcases List.mem_append.mp hmem with hmem | hmem
    · exact hs.distinct changes hmem
    · exact hdist changes hmem

theorem Sound.moves (hs : h.Sound n entries backlog) {later : List (Move R)}
    (hl : ∀ m ∈ later, m ≠ .act .clear) : (h.moves n later).Sound n entries backlog := by
  induction later generalizing h with
  | nil => exact hs
  | cons m rest ih =>
    exact ih (hs.move (hl m List.mem_cons_self)) fun m' hm' => hl m' (List.mem_cons_of_mem _ hm')

omit [Index R ι] in
/-- A listener that is connected at the outset. -/
theorem Sound.outset {s : Session R ι} (hs : s.refresher.replica.feed.Sound)
    (hb : s.refresher.replica.feed.Awaits n backlog) :
    ({ session := s } : Hearing R ι).Sound n s.refresher.replica.entries backlog where
  feed := hs
  given := (hs.connected n _ hb).1
  heard queue hq _ := by
    have heq : (⟨backlog, true⟩ : Inbox (Change R)) = ⟨queue, true⟩ :=
      Option.some.inj (hb.symm.trans hq)
    rw [Inbox.mk.injEq] at heq
    rw [heq.1]
    exact (List.append_nil _).symm
  fitting := trivial
  entries := rfl
  distinct := nofun

/-- **Replaying rebuilds the entries.** Take a listener that is connected in some state of a session
and still is after more moves, none of which clears, and for which nothing was dropped. What it
received and what is queued for it is its backlog and, batch by batch, all that was published. These
changes fit the entries of that state one after the other, they make the present entries of them,
and no two changes of a batch are about one key. -/
theorem replay_rebuilds (kind : CacheKind) (skew : Span) (buffer : Nat) (now : Instant)
    (before later : List (Move R)) (n : Nat) (backlog queue : List (Change R)) :
    let s := (Session.start kind skew buffer now : Session R ι).moves before
    let h := ({ session := s } : Hearing R ι).moves n later
    (∀ m ∈ later, m ≠ .act .clear) →
    s.refresher.replica.feed.Awaits n backlog →
    h.session.refresher.replica.feed.Awaits n queue →
    h.dropped = [] →
    h.received ++ queue = backlog ++ h.published.flatten ∧
      Fitting s.refresher.replica.entries h.published.flatten ∧
      replayAll s.refresher.replica.entries h.published.flatten =
        h.session.refresher.replica.entries ∧
      ∀ changes ∈ h.published, changes.Pairwise fun a b => a.key ≠ b.key := by
  intro s h hl hbacklog hqueue hdropped
  have hs := (Sound.outset (Session.moves_sound kind skew buffer now before) hbacklog).moves hl
  exact ⟨hs.heard queue hqueue hdropped, hs.fitting, hs.entries, hs.distinct⟩

/-- A namespace is created and changed, and its listener has received the first of two events. -/
theorem create_and_update_replayed :
    let first : Namespace :=
      { name := "shop", modified := ⟨1, 0, by decide, by decide, by decide⟩ }
    let second : Namespace :=
      { first with comment := "moved", modified := ⟨2, 0, by decide, by decide, by decide⟩ }
    let later : List (Move Namespace) :=
      [.act (.enter ⟨"reader", false, false⟩), .act (.answer 0 (.ok [first])), .act (.poll 0),
        .listen (.receive 0), .act (.enter ⟨"reader", false, false⟩),
        .act (.answer 0 (.ok [second])), .act (.poll 0)]
    let s := (Session.start .namespaces (.seconds (-2)) 4 .epoch : Session Namespace Exports).moves
      [.listen .subscribe]
    let h := ({ session := s } : Hearing Namespace Exports).moves 0 later
    h.published = [[⟨.created, none, first⟩], [⟨.updated, some first, second⟩]] ∧
      h.received ++ [⟨.updated, some first, second⟩] = h.published.flatten ∧
      replayAll s.refresher.replica.entries h.published.flatten =
        h.session.refresher.replica.entries := by
  intro first second later
  have hl : ∀ m ∈ later, m ≠ .act .clear := by simp [later]
  obtain ⟨hheard, -, hent, -⟩ := @replay_rebuilds Namespace Exports _ _ .namespaces
    (.seconds (-2)) 4 .epoch [.listen .subscribe] later 0 [] [⟨.updated, some first, second⟩] hl rfl
    (by cbv) (by cbv)
  exact ⟨by cbv, hheard, hent⟩

end Hearing

end GovernanceCache.Desk
