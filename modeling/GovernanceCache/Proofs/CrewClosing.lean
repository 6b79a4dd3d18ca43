import GovernanceCache.Proofs.ClosedForGood
import GovernanceCache.Proofs.Crews

/-!
# Closing beside other threads

To close a replica is to set a flag, which takes no lock. A thread that has looked at the flag and
goes on does not see it any more: it still takes its ticket and asks the store, or merges its batch
and ends well. Nobody else does, once the flag is set.

1. `Behind` compares a crew with the one in which the flag was set: whoever is past a look at the
   flag was so then. Every step of a crew with the flag set keeps it.
2. A reset waits for the thread that merges, so nothing is merged after it.
3. What is no merge queues nothing for a listener.
-/

namespace GovernanceCache

namespace Feed

variable {ε : Type} {feed feed' feed'' : Feed ε}

/-- What is queued for a listener was queued for it before. -/
def Quiet (feed feed' : Feed ε) : Prop :=
  ∀ (n : Nat) (box : Inbox ε), feed'.inboxes[n]? = some box → box.queue = [] ∨
    ∃ old, feed.inboxes[n]? = some old ∧ box.queue <:+ old.queue

namespace Quiet

theorem refl (feed : Feed ε) : feed.Quiet feed :=
  fun _ box hbox => .inr ⟨box, hbox, List.suffix_refl _⟩

theorem trans (h : feed.Quiet feed') (h' : feed'.Quiet feed'') : feed.Quiet feed'' := by
  intro n box hbox
  rcases h' n box hbox with hnone | ⟨mid, hmid, hsuffix⟩
  · exact .inl hnone
  · rcases h n mid hmid with hnone | ⟨old, hold, hsuffix'⟩
    · rw [hnone] at hsuffix
      exact .inl (List.suffix_nil.mp hsuffix)
    · exact .inr ⟨old, hold, hsuffix.trans hsuffix'⟩

theorem listen (h : feed.Sound) (step : Listening) : feed.Quiet (feed.listen step) := by
  intro n box hbox
  rcases Nat.lt_or_ge n feed.next with hn | hn
  · obtain ⟨old, hold, hqueue, -⟩ := of_listen_getElem? hn hbox
    exact .inr ⟨old, hold, _, hqueue.symm⟩
  · rw [listen_newcomer h hn hbox]
    exact .inl rfl

theorem close (h : feed.Sound) : feed.Quiet feed.close := by
  intro n box hbox
  rw [close_getElem? h] at hbox
  split at hbox
  · obtain ⟨old, hold, rfl⟩ := Option.map_eq_some_iff.mp hbox
    exact .inr ⟨old, hold, List.suffix_refl _⟩
  · exact .inr ⟨box, hbox, List.suffix_refl _⟩

end Quiet

theorem mem_of_mem_publishAll {n : Nat} {events : List ε}
    (h : n ∈ (feed.publishAll events).subscribers) : n ∈ feed.subscribers := by
  induction events generalizing feed with
  | nil => exact h
  | cons e rest ih => exact (List.mem_filter.mp (ih h)).1

end Feed

namespace Crew

variable {R ι : Type}

/-! ## Past the look at the flag -/

namespace Post

/-- The call of a thread that is to take its ticket. -/
def admitted? : Post R → Option Nat
  | .admitted call _ => some call
  | _ => none

/-- The call of a thread whose pull was accepted, or ended well. -/
def granted? : Post R → Option Nat
  | .merging p _ | .merged p _ | .measured p _ => some p.call
  | .leaving call (.ok ()) | .parting call (.finished (.ok ())) => some call
  | _ => none

/-- The call of a thread whose pull has ended well. -/
def finished? : Post R → Option Nat
  | .leaving call (.ok ()) | .parting call (.finished (.ok ())) => some call
  | _ => none

end Post

/-- The call has ended well. -/
def EndedWell (s : Crew R ι) (call : Nat) : Prop :=
  s.refresher.flights.progress[call]? = some (.finished (.ok ()))

/-- A thread of the crew has its pull accepted, or ended well. -/
def Granted (s : Crew R ι) (call : Nat) : Prop := ∃ w ∈ s.posts, w.granted? = some call

/-- What may be done after the flag was set in the crew. -/
def LateLaw (base : Crew R ι) : Deed R ι → Prop
  | .asked p _ => ∃ w ∈ base.posts, w.admitted? = some p.call
  | .merged p batch _ => .merging p batch ∈ base.posts
  | .ended call (.finished (.ok ())) => base.Granted call
  | .shared call (.ok ()) => base.EndedWell call ∨ base.Granted call
  | _ => True

/-- What holds of a crew after the flag was set in the first one. -/
structure Behind (base : Crew R ι) (log : List (Deed R ι)) (s : Crew R ι) : Prop where
  staffed : Staffed s
  closed : s.refresher.replica.closed = true
  admitted : ∀ w ∈ s.posts, ∀ call, w.admitted? = some call →
    ∃ v ∈ base.posts, v.admitted? = some call
  merging : ∀ p batch, .merging p batch ∈ s.posts → .merging p batch ∈ base.posts
  granted : ∀ call, s.Granted call → base.Granted call
  well : ∀ call, .following call ∈ s.posts → s.EndedWell call →
    base.EndedWell call ∨ base.Granted call
  told : ∀ e ∈ log, LateLaw base e
  /-- A thread that merges gives the lock back. -/
  merges : log.countP Deed.isMerge + s.posts.countP Post.isMerging ≤
    base.posts.countP Post.isMerging

variable [Record R] [Index R ι] {r r' : Refresher R ι} {others before after : List (Post R)}
  {p q : Option (Post R)} {deed : Deed R ι} {base s s' : Crew R ι} {log : List (Deed R ι)}
  {w : Post R} {call : Nat}

theorem Moves.closed (hm : Moves r others p deed q r') (h : r.replica.closed = true) :
    r'.replica.closed = true := by
  cases hm with
  | giveUp pull answer fault =>
    show (r.replica.giveUp fault).closed = true
    unfold Replica.giveUp
    split <;> exact h
  | share call r' result hr =>
    rw [(share?_eq_some hr).1]
    exact h
  | bar => rfl
  | _ => exact h

/-- With the flag set nobody is admitted. -/
theorem Moves.admitted (hm : Moves r others p deed q r') (h : r.replica.closed = true) :
    q.bind Post.admitted? = none := by
  cases hm with
  | proceed call mark hc =>
    rw [h] at hc
    cases hc
  | _ => rfl

/-- With the flag set no batch is accepted. -/
theorem Moves.merging (hm : Moves r others p deed q r') (h : r.replica.closed = true) :
    q.toList.countP Post.isMerging = 0 := by
  cases hm with
  | accept pull batch hv =>
    have hc := (Replica.verdict_eq_ok.mp hv).2.2.1
    rw [h] at hc
    cases hc
  | _ => rfl

theorem Moves.granted (hm : Moves r others p deed q r') (h : r.replica.closed = true)
    (hq : q.bind Post.granted? = some call) : p.bind Post.granted? = some call := by
  cases hm with
  | accept pull batch hv =>
    have hc := (Replica.verdict_eq_ok.mp hv).2.2.1
    rw [h] at hc
    cases hc
  | merge pull batch => exact hq
  | count pull changes => exact hq
  | publish pull size => exact hq
  | leave call' result =>
    rcases result with fault | ⟨⟨⟩⟩
    · cases hq
    · exact hq
  | _ => cases hq

/-- A call that ends well in a move is that of a thread whose pull did, or one of another key. -/
theorem Moves.endedWell (hm : Moves r others p deed q r')
    (h : r'.flights.progress[call]? = some (.finished (.ok ()))) :
    r.flights.progress[call]? = some (.finished (.ok ())) ∨ p.bind Post.granted? = some call ∨
      ∃ key, p = some (.away key call) := by
  have hlead : ∀ key, (r.flights.lead key).progress[call]? = some (.finished (.ok ())) →
      r.flights.progress[call]? = some (.finished (.ok ())) := by
    intro key h
    rw [SingleFlight.lead_progress] at h
    split at h
    · cases h
    · exact h
  cases hm with
  | lead flights call' hl =>
    obtain ⟨-, rfl, -⟩ := SingleFlight.of_enter_leader hl
    exact .inl (hlead _ h)
  | leadAway key flights call' hk hl =>
    obtain ⟨-, rfl, -⟩ := SingleFlight.of_enter_leader hl
    exact .inl (hlead key h)
  | drop pull =>
    rw [SingleFlight.unregister_progress] at h
    exact .inl h
  | leave call' result =>
    rw [SingleFlight.unregister_progress] at h
    exact .inl h
  | endCall call' progress =>
    rw [SingleFlight.close_progress] at h
    split at h
    · rename_i hcall
      obtain rfl := Option.some.inj h
      rw [hcall]
      exact .inr (.inl rfl)
    · exact .inl h
  | finishAway key call' result =>
    rw [SingleFlight.finish_eq_close, SingleFlight.close_progress] at h
    split at h
    · rename_i hcall
      rw [hcall]
      exact .inr (.inr ⟨key, rfl⟩)
    · exact .inl h
  | abandonAway key call' =>
    have h : (r.flights.close key call' .abandoned).progress[call]? = some (.finished (.ok ())) := h
    rw [SingleFlight.close_progress] at h
    split at h
    · cases h
    · exact .inl h
  | share call' r' result hr =>
    rw [(share?_eq_some hr).1] at h
    exact .inl h
  | _ => exact .inl h

namespace Behind

omit [Record R] [Index R ι] in
theorem granted_of_moving (h : Behind base log s) (hp : s.posts = before ++ p.toList ++ after)
    (hg : p.bind Post.granted? = some call) : base.Granted call := by
  obtain ⟨v, rfl, hv⟩ := Option.bind_eq_some_iff.mp hg
  exact h.granted call ⟨v, hp ▸ mem_split.mpr (.inl rfl), hv⟩

theorem well_move (h : Behind base log s) (hp : s.posts = before ++ p.toList ++ after)
    (hm : Moves s.refresher (before ++ after) p deed q r')
    (hw : q = some (.following call) ∨ .following call ∈ before ++ after)
    (hended : r'.flights.progress[call]? = some (.finished (.ok ()))) :
    base.EndedWell call ∨ base.Granted call := by
  rcases hw with rfl | hw
  · cases hm with
    | follow call hf =>
      -- the call that it joins runs
      have hrun := h.staffed.led.running _
        (h.staffed.led.registered _ _ (SingleFlight.of_enter_follower hf))
      rw [hrun] at hended
      cases hended
  · have hmem : .following call ∈ s.posts := hp ▸ mem_split.mpr (.inr hw)
    rcases hm.endedWell hended with hwas | hg | ⟨key, rfl⟩
    · exact h.well call hmem hwas
    · exact .inr (h.granted_of_moving hp hg)
    · exact absurd (hp ▸ mem_split.mpr (.inl rfl)) ((h.staffed.joined call hmem).2 key)

theorem lateLaw (h : Behind base log s) (hp : s.posts = before ++ p.toList ++ after)
    (hm : Moves s.refresher (before ++ after) p deed q r') : LateLaw base deed := by
  have hmem : ∀ {w}, p = some w → w ∈ s.posts := fun hw => hp ▸ mem_split.mpr (.inl hw)
  cases hm with
  | ask call mark now hu => exact h.admitted _ (hmem rfl) call rfl
  | merge pull batch => exact h.merging pull batch (hmem rfl)
  | endCall call progress =>
    rcases progress with _ | (fault | ⟨⟨⟩⟩) | _
    · trivial
    · trivial
    · exact h.granted_of_moving hp rfl
    · trivial
  | share call r' result hr =>
    rcases result with fault | ⟨⟨⟩⟩
    · trivial
    · exact h.well call (hmem rfl) (Desk.Session.finished_of_resultFor_ok (share?_eq_some hr).2)
  | _ => trivial

theorem merges_move (h : Behind base log s) (hp : s.posts = before ++ p.toList ++ after)
    (hm : Moves s.refresher (before ++ after) p deed q r') :
    (deed :: log).countP Deed.isMerge + (before ++ q.toList ++ after).countP Post.isMerging ≤
      base.posts.countP Post.isMerging := by
  have hwas := h.merges
  have hnone := hm.merging h.closed
  rw [hp, countP_split] at hwas
  rw [countP_split, hnone]
  rcases hmerge : deed.isMerge with _ | _
  · rw [List.countP_cons_of_neg (by rw [hmerge]; exact Bool.false_ne_true)]
    omega
  · rw [List.countP_cons_of_pos hmerge]
    have hone : p.toList.countP Post.isMerging = 1 := by
      cases hm with
      | merge pull batch => rfl
      | _ => cases hmerge
    omega

theorem step (h : Behind base log s) (hs : Step s deed s') : Behind base (deed :: log) s' := by
  have hstaffed := h.staffed.step hs
  cases hs with
  | move before after p q deed r' hp hm =>
    have hrest : ∀ {w}, w ∈ before ++ after → w ∈ s.posts :=
      fun hw => hp ▸ mem_split.mpr (.inr hw)
    refine ⟨hstaffed, hm.closed h.closed, ?_, ?_, ?_, ?_, ?_, h.merges_move hp hm⟩
    · intro w hw call hadm
      rcases mem_split.mp hw with rfl | hw
      · have hnone : w.admitted? = none := hm.admitted h.closed
        rw [hnone] at hadm
        cases hadm
      · exact h.admitted w (hrest hw) call hadm
    · intro pull batch hw
      rcases mem_split.mp hw with rfl | hw
      · cases hm.merging h.closed
      · exact h.merging pull batch (hrest hw)
    · rintro call ⟨w, hw, hg⟩
      rcases mem_split.mp hw with rfl | hw
      · exact h.granted_of_moving hp (hm.granted h.closed hg)
      · exact h.granted call ⟨w, hrest hw, hg⟩
    · exact fun call hw => h.well_move hp hm (mem_split.mp hw)
    · exact List.forall_mem_cons.mpr ⟨h.lateLaw hp hm, h.told⟩

/-- The flag is set. -/
theorem bar (h : Staffed base) (hs : Step base .barred s) : Behind base [] s := by
  have hstaffed := h.step hs
  cases hs with
  | move before after p q deed r' hp hm =>
    cases hm with
    | bar =>
      have hwas : ∀ {w}, w ∈ before ++ (some Post.closing).toList ++ after →
          w = .closing ∨ w ∈ base.posts := by
        intro w hw
        rcases mem_split.mp hw with heq | hw
        · exact .inl (Option.some.inj heq).symm
        · exact .inr (hp ▸ mem_split.mpr (.inr hw))
      refine ⟨hstaffed, rfl, ?_, ?_, ?_, fun _ _ => .inl, List.forall_mem_nil _, ?_⟩
      · intro w hw call hadm
        rcases hwas hw with rfl | hw
        · cases hadm
        · exact ⟨w, hw, hadm⟩
      · intro pull batch hw
        rcases hwas hw with heq | hw
        · cases heq
        · exact hw
      · rintro call ⟨w, hw, hg⟩
        rcases hwas hw with rfl | hw
        · cases hg
        · exact ⟨w, hw, hg⟩
      · rw [hp, countP_split, countP_split]
        exact Nat.le_of_eq (Nat.zero_add _)

theorem steps (h : Behind base [] s) (hs : Steps s log s') : Behind base log s' := by
  induction hs with
  | refl => exact h
  | step _ hstep ih => exact ih.step hstep

end Behind

/-! ## Contents -/

/-- The replica is closed, it was reset, and nobody merges. -/
structure Emptied (s : Crew R ι) : Prop where
  closed : s.refresher.replica.closed = true
  unlocked : Unlocked s.posts
  entries : s.refresher.replica.entries = ∅
  watermark : s.refresher.replica.watermark = .zero

namespace Emptied

theorem of_reset (hc : s.refresher.replica.closed = true) (hs : Step s deed s')
    (hreset : deed.isReset = true) : Emptied s' := by
  cases hs with
  | move before after p q deed r' hp hm =>
    cases hm with
    | reset hu =>
      refine ⟨hc, fun w hw => ?_, rfl, rfl⟩
      rcases mem_split.mp hw with heq | hw
      · rw [← Option.some.inj heq]
        rfl
      · exact hu w hw
    | _ => cases hreset

theorem step (h : Emptied s) (hs : Step s deed s') : Emptied s' := by
  by_cases hreset : deed.isReset = true
  · exact of_reset h.closed hs hreset
  · cases hs with
    | move before after p q deed r' hp hm =>
      have hmerge : deed.isMerge = false := by
        cases hm with
        | merge pull batch =>
          cases h.unlocked (.merging pull batch) (hp ▸ mem_split.mpr (.inl rfl))
        | _ => rfl
      have halike := hm.alike hmerge (Bool.eq_false_iff.mpr hreset)
      refine ⟨hm.closed h.closed, fun w hw => ?_, halike.entries.trans h.entries,
        halike.watermark.trans h.watermark⟩
      rcases mem_split.mp hw with rfl | hw
      · have hnone := hm.merging h.closed
        exact Bool.eq_false_iff.mpr (List.countP_eq_zero.mp hnone w List.mem_cons_self)
      · exact h.unlocked w (hp ▸ mem_split.mpr (.inr hw))

end Emptied

theorem Steps.closed (hs : Steps s log s') (h : s.refresher.replica.closed = true) :
    s'.refresher.replica.closed = true := by
  induction hs with
  | refl => exact h
  | step _ hstep ih =>
    cases hstep with
    | move before after p q deed r' hp hm => exact hm.closed ih

/-- A reset after the flag was set empties the replica for good. -/
theorem Steps.emptied (hs : Steps s log s') (h : s.refresher.replica.closed = true)
    (hreset : ∃ e ∈ log, e.isReset = true) : Emptied s' := by
  induction hs with
  | refl =>
    obtain ⟨e, he, -⟩ := hreset
    cases he
  | step hsteps hstep ih =>
    obtain ⟨e, he, hreset⟩ := hreset
    rcases List.mem_cons.mp he with rfl | he
    · exact .of_reset (hsteps.closed h) hstep hreset
    · exact (ih ⟨e, he, hreset⟩).step hstep

/-- Deeds that are no merge and no reset leave the replica alike. -/
theorem Steps.alike (hs : Steps s log s') (h : ∀ e ∈ log, e.disturbs = false) :
    s.refresher.replica.Alike s'.refresher.replica := by
  induction hs with
  | refl => exact ⟨rfl, rfl, rfl, rfl, rfl, rfl⟩
  | step _ hstep ih =>
    obtain ⟨hnow, hrest⟩ := List.forall_mem_cons.mp h
    obtain ⟨hmerge, hreset⟩ := Bool.or_eq_false_iff.mp hnow
    cases hstep with
    | move before after p q deed r' hp hm => exact (ih hrest).trans (hm.alike hmerge hreset)

/-! ## Listeners -/

/-- The feed after a move. -/
theorem Moves.feed (hm : Moves r others p deed q r') :
    r'.replica.feed = r.replica.feed ∨ (∃ step, r'.replica.feed = r.replica.feed.listen step) ∨
      r'.replica.feed = r.replica.feed.close ∧ deed = .dismissed ∨
      deed.isMerge = true ∧ ∃ changes, r'.replica.feed = r.replica.feed.publishAll changes := by
  cases hm with
  | giveUp pull answer fault => exact .inl (r.replica.giveUp_untouched fault).feed
  | merge pull batch => exact .inr (.inr (.inr ⟨rfl, _, rfl⟩))
  | share call r' result hr =>
    rw [(share?_eq_some hr).1]
    exact .inl rfl
  | dismiss => exact .inr (.inr (.inl ⟨rfl, rfl⟩))
  | listen step => exact .inr (.inl ⟨step, rfl⟩)
  | _ => exact .inl rfl

theorem Moves.sound (hm : Moves r others p deed q r') (h : r.replica.feed.Sound) :
    r'.replica.feed.Sound := by
  rcases hm.feed with heq | ⟨step, heq⟩ | ⟨heq, -⟩ | ⟨-, changes, heq⟩
  · exact heq ▸ h
  · exact heq ▸ h.listen step
  · exact heq ▸ h.close
  · exact heq ▸ h.publishAll changes

theorem Moves.feed_next_le (hm : Moves r others p deed q r') :
    r.replica.feed.next ≤ r'.replica.feed.next := by
  rcases hm.feed with heq | ⟨step, heq⟩ | ⟨heq, -⟩ | ⟨-, changes, heq⟩
  · exact Nat.le_of_eq (congrArg Feed.next heq).symm
  · exact heq ▸ Feed.next_le_listen _ step
  · exact Nat.le_of_eq (congrArg Feed.next heq).symm
  · exact heq ▸ Nat.le_of_eq (Feed.next_publishAll _ changes).symm

theorem Steps.sound (hs : Steps s log s') (h : s.refresher.replica.feed.Sound) :
    s'.refresher.replica.feed.Sound := by
  induction hs with
  | refl => exact h
  | step _ hstep ih =>
    cases hstep with
    | move before after p q deed r' hp hm => exact hm.sound ih

theorem Steps.feed_next_le (hs : Steps s log s') :
    s.refresher.replica.feed.next ≤ s'.refresher.replica.feed.next := by
  induction hs with
  | refl => exact Nat.le_refl _
  | step _ hstep ih =>
    cases hstep with
    | move before after p q deed r' hp hm => exact Nat.le_trans ih hm.feed_next_le

/-- Deeds that are no merge queue nothing for anybody. -/
theorem Steps.quiet (hs : Steps s log s') (h : s.refresher.replica.feed.Sound)
    (hmerge : ∀ e ∈ log, e.isMerge = false) :
    s.refresher.replica.feed.Quiet s'.refresher.replica.feed := by
  induction hs with
  | refl => exact .refl _
  | step hsteps hstep ih =>
    obtain ⟨hnow, hrest⟩ := List.forall_mem_cons.mp hmerge
    refine (ih hrest).trans ?_
    cases hstep with
    | move before after p q deed r' hp hm =>
      rcases hm.feed with heq | ⟨step, heq⟩ | ⟨heq, -⟩ | ⟨hmerge, -⟩
      · exact heq ▸ .refl _
      · exact heq ▸ .listen (hsteps.sound h) step
      · exact heq ▸ .close (hsteps.sound h)
      · rw [hnow] at hmerge
        cases hmerge

/-- A move takes in nobody whose number was given out before. -/
theorem Moves.subscribers (hm : Moves r others p deed q r') (hs : r.replica.feed.Sound) {n : Nat}
    (hn : n < r.replica.feed.next) (h : n ∈ r'.replica.feed.subscribers) :
    n ∈ r.replica.feed.subscribers ∧ deed ≠ .dismissed := by
  have hother : deed ≠ .dismissed ∨ r'.replica.feed = r.replica.feed.close := by
    cases hm with
    | dismiss => exact .inr rfl
    | _ => exact .inl nofun
  rcases hother with hdeed | heq
  · refine ⟨?_, hdeed⟩
    rcases hm.feed with heq | ⟨step, heq⟩ | ⟨-, rfl⟩ | ⟨-, changes, heq⟩
    · exact heq ▸ h
    · rw [heq] at h
      exact ((Feed.mem_listen hs fun _ => Nat.ne_of_lt hn).mp h).1
    · exact absurd rfl hdeed
    · rw [heq] at h
      exact Feed.mem_of_mem_publishAll h
  · rw [heq] at h
    cases h

/-- Once the listeners were let go, the feed takes only new ones. -/
theorem Steps.subscribers (hs : Steps s log s') (h : s.refresher.replica.feed.Sound)
    (hlog : .dismissed ∈ log) {n : Nat} (hn : n < s.refresher.replica.feed.next) :
    n ∉ s'.refresher.replica.feed.subscribers := by
  induction hs with
  | refl => cases hlog
  | step hsteps hstep ih =>
    cases hstep with
    | move before after p q deed r' hp hm =>
      intro hmem
      obtain ⟨hwas, hdeed⟩ := hm.subscribers (hsteps.sound h)
        (Nat.lt_of_lt_of_le hn hsteps.feed_next_le) hmem
      exact ih ((List.mem_cons.mp hlog).resolve_left hdeed.symm) hwas

/-! ## After the flag was set -/

/-- Closing is final: nothing is begun or taken in after the flag was set in the crew, and nobody
ends well but those whose pull had ended well. -/
def Final (base : Crew R ι) : Deed R ι → Prop
  | .asked .. | .merged .. => False
  | .ended call (.finished (.ok ())) => ∃ w ∈ base.posts, w.finished? = some call
  | .shared call (.ok ()) => base.EndedWell call ∨ ∃ w ∈ base.posts, w.finished? = some call
  | _ => True

/-- Nobody is past a look at the flag, unless its pull has ended. -/
def Settled (base : Crew R ι) : Prop :=
  ∀ w ∈ base.posts, w.admitted? = none ∧ w.granted? = w.finished?

/-- What is true after the flag was set in the first crew. -/
structure ClosedBehind (base : Crew R ι) (log : List (Deed R ι)) (s : Crew R ι) : Prop where
  /-- Only those ask, merge or end well who were past their look at the flag. -/
  told : ∀ e ∈ log, LateLaw base e
  once : log.countP Deed.isMerge ≤ 1
  kept : (∀ e ∈ log, e.disturbs = false) → base.refresher.replica.Alike s.refresher.replica
  emptied : (∃ e ∈ log, e.isReset = true) →
    s.refresher.replica.entries = ∅ ∧ s.refresher.replica.watermark = .zero
  quiet : (∀ e ∈ log, e.isMerge = false) →
    base.refresher.replica.feed.Quiet s.refresher.replica.feed
  /-- Once the listeners were let go, they can still receive what is queued for them, and then they
  find that nothing will come. -/
  ends : .dismissed ∈ log → ∀ n box, n < base.refresher.replica.feed.next →
    s.refresher.replica.feed.inboxes[n]? = some box →
    (s.refresher.replica.feed.receive n).2 = box.queue.head?.elim .disconnected .event
  final : Settled base → ∀ e ∈ log, Final base e

omit [Record R] [Index R ι] in
/-- If nobody was past a look at the flag, closing is final. -/
theorem LateLaw.final (h : LateLaw base deed) (hs : Settled base) : Final base deed := by
  have hgranted : ∀ {call}, base.Granted call → ∃ w ∈ base.posts, w.finished? = some call := by
    rintro call ⟨w, hw, hg⟩
    exact ⟨w, hw, (hs w hw).2 ▸ hg⟩
  cases deed with
  | asked p seen =>
    obtain ⟨w, hw, hadm⟩ := h
    rw [(hs w hw).1] at hadm
    cases hadm
  | merged p batch into => cases (hs (.merging p batch) h).2
  | ended call progress =>
    rcases progress with _ | (fault | ⟨⟨⟩⟩) | _
    · trivial
    · trivial
    · exact hgranted h
    · trivial
  | shared call result =>
    rcases result with fault | ⟨⟨⟩⟩
    · trivial
    · exact h.imp id hgranted
  | _ => trivial

theorem Steps.of_bar {told : List (Deed R ι)} (hs : Steps base told s) (h : told = log ++ [.barred]) :
    ∃ s₁, Step base .barred s₁ ∧ Steps s₁ log s := by
  induction hs generalizing log with
  | refl => cases log <;> cases h
  | step hsteps hstep ih =>
    cases log with
    | nil =>
      obtain ⟨rfl, rfl⟩ := List.cons.inj h
      cases hsteps with
      | refl => exact ⟨_, hstep, .refl⟩
    | cons e rest =>
      obtain ⟨rfl, htold⟩ := List.cons.inj h
      obtain ⟨s₁, hbar, hrest⟩ := ih htold
      exact ⟨s₁, hbar, hrest.step hstep⟩

/-- **Closing beside other threads.** Set the flag in whatever state of a crew. After that only those
ask the store, merge or end well who were past their look at the flag, and one merges at most. A
clear empties the replica for good, nothing else changes the contents, and nothing else is queued
for those who listen; once they were let go, they learn that nothing will come. If nobody was past a
look, closing is final. -/
theorem closes_behind {kind : CacheKind} {skew : Span} {buffer : Nat} {earlier : List (Deed R ι)}
    (h : Steps (start kind skew buffer) earlier base) (hs : Steps base (log ++ [.barred]) s) :
    ClosedBehind base log s := by
  obtain ⟨s₁, hbar, hs⟩ := hs.of_bar rfl
  have hstaffed : Staffed base := (Staffed.start kind skew buffer).steps h
  have hbehind := (Behind.bar hstaffed hbar).steps hs
  have hclosed := (Behind.bar hstaffed hbar).closed
  have hfirst : Steps base [.barred] s₁ := Steps.refl.step hbar
  have hsound := h.sound (Feed.Sound.create _ _)
  have hsound₁ := hfirst.sound hsound
  refine ⟨hbehind.told, ?_, ?_, ?_, ?_, ?_, fun hset e he => (hbehind.told e he).final hset⟩
  · exact Nat.le_trans (Nat.le_add_right _ _) (Nat.le_trans hbehind.merges hstaffed.alone)
  · intro hcalm
    exact (hfirst.alike (List.forall_mem_singleton.mpr rfl)).trans (hs.alike hcalm)
  · intro hreset
    have hempty := hs.emptied hclosed hreset
    exact ⟨hempty.entries, hempty.watermark⟩
  · intro hcalm
    exact (hfirst.quiet hsound (List.forall_mem_singleton.mpr rfl)).trans (hs.quiet hsound₁ hcalm)
  · intro hlog n box hn hbox
    have hgone := hs.subscribers hsound₁ hlog (Nat.lt_of_lt_of_le hn hfirst.feed_next_le)
    have hlost : box.connected = false := by
      by_contra hc
      exact hgone (((hs.sound hsound₁).connected n box hbox).2.mp (Bool.of_not_eq_false hc))
    exact Desk.Session.receive_of_disconnected hbox hlost

/-- A thread that has looked at the flag asks the store after it was set. -/
theorem asked_behind_close : ∃ (earlier log : List (Deed Namespace Exports))
    (base s : Crew Namespace Exports), Steps (start .namespaces (.seconds (-5)) 4) earlier base ∧
      Steps base (log ++ [.barred]) s ∧ (∃ pull seen, .asked pull seen ∈ log) ∧
        ClosedBehind base log s := by
  obtain ⟨earlier, base, h, hposts⟩ : ∃ (earlier : List (Deed Namespace Exports))
      (base : Crew Namespace Exports), Steps (start .namespaces (.seconds (-5)) 4) earlier base ∧
        base.posts = [.admitted 0 (some 0)] := by
    have h₀ : Steps (start .namespaces (.seconds (-5)) 4 : Crew Namespace Exports) [] _ := .refl
    have h₁ := h₀.step (.move [] [] none _ _ _ rfl (.lead _ 0 rfl))
    exact ⟨_, _, h₁.step (.move [] [] (some _) _ _ _ rfl (.proceed 0 _ rfl)), rfl⟩
  have hs₀ : Steps base [] base := .refl
  have hs₁ := hs₀.step (.move [.admitted 0 (some 0)] [] none _ _ _ hposts .bar)
  have hs₂ := hs₁.step (.move [] [.closing] (some _) _ _ _ rfl (.ask 0 _ .epoch (by decide)))
  exact ⟨_, [_], _, _, h, hs₂, ⟨_, _, .head _⟩, closes_behind h hs₂⟩

/-- A thread whose batch was accepted merges it after the flag was set, and ends well. -/
theorem merged_behind_close : ¬ ∀ (earlier log : List (Deed Namespace Exports))
    (base s : Crew Namespace Exports), Steps (start .namespaces (.seconds (-5)) 4) earlier base →
      Steps base (log ++ [.barred]) s → ∀ e ∈ log, Final base e := by
  intro hall
  obtain ⟨earlier, base, pull, h, hposts⟩ : ∃ (earlier : List (Deed Namespace Exports))
      (base : Crew Namespace Exports) (pull : Pull),
      Steps (start .namespaces (.seconds (-5)) 4) earlier base ∧
        base.posts = [.merging pull []] := by
    have h₀ : Steps (start .namespaces (.seconds (-5)) 4 : Crew Namespace Exports) [] _ := .refl
    have h₁ := h₀.step (.move [] [] none _ _ _ rfl (.lead _ 0 rfl))
    have h₂ := h₁.step (.move [] [] (some _) _ _ _ rfl (.proceed 0 _ rfl))
    have h₃ := h₂.step (.move [] [] (some _) _ _ _ rfl (.ask 0 _ .epoch (by decide)))
    exact ⟨_, _, _, h₃.step (.move [] [] (some _) _ _ _ rfl (.accept _ [] rfl (by decide))), rfl⟩
  have hs₀ : Steps base [] base := .refl
  have hs₁ := hs₀.step (.move [.merging pull []] [] none _ _ _ hposts .bar)
  have hs₂ := hs₁.step (.move [] [.closing] (some _) _ _ _ rfl (.merge pull []))
  exact hall earlier [_] base _ h hs₂ _ (.head _)

end Crew

end GovernanceCache
