import GovernanceCache.Proofs.Listeners
import GovernanceCache.Proofs.WholePulls

/-!
# A closed replica stays closed

A replica may be closed while pulls are under way and callers wait for them. Whatever happens after
that, no store is asked and no batch is merged, only a clear changes the contents, no event is
queued for anybody, and a caller ends well only if it joined a call that had ended well before.

1. `Barred base s` compares a session with the one at the close. Every step keeps it, since a closed
   replica opens no pull and its verdict on every answer is a fault.
2. A move takes in no batch, so it publishes nothing: what is queued for a listener only gets
   shorter, and is heard (`move_inbox`).
-/

namespace GovernanceCache

variable {R ι : Type}

namespace Replica

variable {m : Replica R ι} {ticket : Ticket} {answer : Answer R}

theorem openPull_of_closed (h : m.closed = true) (now : Instant) : m.openPull now = none :=
  if_pos h

theorem Steady.trans {m₁ m₂ m₃ : Replica R ι} (h : m₁.Steady m₂) (h' : m₂.Steady m₃) :
    m₁.Steady m₃ where
  entries := h'.entries.trans h.entries
  index := h'.index.trans h.index
  watermark := h'.watermark.trans h.watermark
  firstLoad := h'.firstLoad.trans h.firstLoad

variable [Record R]

theorem verdict_of_closed (h : m.closed = true) (ticket : Ticket) (answer : Answer R) :
    ∃ fault, m.verdict ticket answer = .error fault := by
  rcases hv : m.verdict ticket answer with fault | batch
  · exact ⟨fault, rfl⟩
  · have hopen := (verdict_eq_ok.mp hv).2.2.1
    rw [h] at hopen
    cases hopen

theorem closePull_closed [Index R ι] (m : Replica R ι) (ticket : Ticket) (answer : Answer R) :
    (m.closePull ticket answer).1.closed = m.closed := by
  rcases hv : m.verdict ticket answer with fault | batch
  · rw [closePull_of_error hv]
    unfold giveUp
    split <;> rfl
  · rw [closePull_of_ok hv]
    rfl

end Replica

namespace Feed

/-- Nothing is queued for a listener that just came. -/
theorem listen_newcomer {ε : Type} {feed : Feed ε} {step : Listening} {n : Nat} {box : Inbox ε}
    (h : feed.Sound) (hn : feed.next ≤ n)
    (hbox : (feed.listen step).inboxes[n]? = some box) : box = {} := by
  have hold : ∀ box, feed.inboxes[n]? ≠ some box := fun box hbox =>
    Nat.lt_irrefl n (Nat.lt_of_lt_of_le (h.connected n box hbox).1 hn)
  by_cases hstep : step = .subscribe
  · subst hstep
    have hbox : ((feed.subscribe?.map Prod.fst).getD feed).inboxes[n]? = some box := hbox
    unfold subscribe? at hbox
    split at hbox
    · simp only [Option.map_some, Option.getD_some, getElem?_insert_eq] at hbox
      split at hbox
      · exact (Option.some.inj hbox).symm
      · exact absurd hbox (hold box)
    · exact absurd hbox (hold box)
  · obtain ⟨_, _, hwith⟩ := feed.listen_eq_with hstep
    have hlt := ((h.listen step).connected n box hbox).1
    rw [hwith] at hlt
    exact absurd hlt (Nat.not_lt.mpr hn)

end Feed

namespace Desk

namespace Session

variable {base s s' : Session R ι} {before after : List (Visit R)} {arrival call n : Nat}
  {client asClient : Client} {refreshed : Refreshed} {v : Visit R}

/-- The call has ended well. -/
def EndedWell (s : Session R ι) (call : Nat) : Prop :=
  s.refresher.flights.progress[call]? = some (.finished (.ok ()))

/-- The caller that came at the arrival follows a call that has ended well. -/
def Shares (s : Session R ι) (arrival : Nat) (client : Client) : Prop :=
  ∃ v ∈ s.visits, v.arrival = arrival ∧ v.client = client ∧
    ∃ call, v.caller.stage = .following call ∧ s.EndedWell call

/-- What may come on record after the replica was closed in the session. -/
def ClosedLaw (s : Session R ι) : Occurrence R ι → Prop
  | .opened .. | .merged .. => False
  | .ended arrival client refreshed => refreshed.result = .ok () → s.Shares arrival client
  | _ => True

/-- What holds of a session in which the replica was closed when it was as in the first one. -/
structure Barred (base s : Session R ι) : Prop where
  orderly : Orderly s
  closed : s.refresher.replica.closed = true
  told : ∃ told, s.log = told ++ base.log ∧ ∀ e ∈ told, ClosedLaw base e
  /-- No other call ends well any more. -/
  well : ∀ n, Opened s.log n → (s.EndedWell n ↔ base.EndedWell n)
  /-- Those who follow such a call did so before. -/
  shares : ∀ v ∈ s.visits, ∀ call, v.caller.stage = .following call → base.EndedWell call →
    base.Shares v.arrival v.client

/-! ## Every step after the close -/

theorem opened_append {told log : List (Occurrence R ι)} (h : ∀ e ∈ told, ClosedLaw base e) :
    Opened (told ++ log) n ↔ Opened log n := by
  unfold Opened
  refine exists_congr fun ticket => exists_congr fun seen => ?_
  rw [List.mem_append]
  exact or_iff_right fun hmem => h _ hmem

/-- A call that runs is settled otherwise than well. -/
theorem endedWell_close {flights : SingleFlight Outcome} {key : String} {p : Progress Outcome}
    (hrun : flights.progress[call]? = some .running) (hp : p ≠ .finished (.ok ())) (n : Nat) :
    (flights.close key call p).progress[n]? = some (.finished (.ok ())) ↔
      flights.progress[n]? = some (.finished (.ok ())) := by
  rw [SingleFlight.close_progress]
  split
  · rename_i hn
    rw [← hn, hrun, Option.some.injEq]
    exact iff_of_false hp nofun
  · rfl

/-- The call of a visit that pulls runs. -/
theorem Orderly.running (h : Orderly s) (hmem : v ∈ s.visits) {ticket : Ticket}
    (hv : v.caller.stage = .pulling call ticket ()) :
    s.refresher.flights.progress[call]? = some .running :=
  h.led.running _ (List.mem_append_left _ (mem_leads hmem hv))

namespace Barred

/-- The step puts on record what it may, no call ends well by it, and those who wait after it waited
before or follow a call that has not ended well. -/
theorem frame (h : Barred base s) (ho : Orderly s') (hc : s'.refresher.replica.closed = true)
    (ht : ∃ told, s'.log = told ++ s.log ∧ ∀ e ∈ told, ClosedLaw base e)
    (hw : ∀ n, Opened s.log n → (s'.EndedWell n ↔ s.EndedWell n))
    (hv : ∀ v ∈ s'.visits, ∀ call, v.caller.stage = .following call →
      (∃ u ∈ s.visits, u.arrival = v.arrival ∧ u.client = v.client ∧
        u.caller.stage = .following call) ∨ Opened s.log call ∧ ¬ s.EndedWell call) :
    Barred base s' := by
  obtain ⟨told, hlog, hlaw⟩ := h.told
  obtain ⟨more, hmore, hlaw'⟩ := ht
  refine ⟨ho, hc, ⟨more ++ told, ?_, ?_⟩, ?_, ?_⟩
  · rw [hmore, hlog, List.append_assoc]
  · intro e he
    rcases List.mem_append.mp he with he | he
    · exact hlaw' e he
    · exact hlaw e he
  · intro n hn
    rw [hmore, opened_append hlaw'] at hn
    exact (hw n hn).trans (h.well n hn)
  · intro v hmem call hstage hended
    rcases hv v hmem call hstage with ⟨u, hu, harr, hcl, hust⟩ | ⟨hopened, hnot⟩
    · rw [← harr, ← hcl]
      exact h.shares u hu call hust hended
    · exact absurd ((h.well call hopened).mpr hended) hnot

/-- Nobody comes to wait, and nothing is put on record. -/
theorem quiet (h : Barred base s) (ho : Orderly s') (hc : s'.refresher.replica.closed = true)
    (hlog : s'.log = s.log) (hw : ∀ n, Opened s.log n → (s'.EndedWell n ↔ s.EndedWell n))
    (hv : s'.visits ⊆ s.visits) : Barred base s' :=
  h.frame ho hc ⟨[], hlog, List.forall_mem_nil _⟩ hw
    fun v hmem _ hstage => .inl ⟨v, hv hmem, rfl, rfl, hstage⟩

theorem begin (h : Barred base s) (hw : s.visits = before ++ after) (arrival : Nat)
    (client asClient : Client) :
    Barred base (s.resume before after arrival client (begin s.now s.refresher asClient none)) := by
  have ho := h.orderly.begin hw arrival client asClient
  rcases hk : s.refresher.flights.current[s.refresher.key]? with _ | call
  · have hrefused := Replica.openPull_of_closed h.closed s.now
    rw [resume_begin_refused hk hrefused] at ho ⊢
    refine h.frame ho h.closed ⟨[_], rfl, ?_⟩ ?_ ?_
    · intro e he
      rw [List.mem_singleton.mp he]
      nofun
    · intro n hn
      have hlt := (h.orderly.numbered n hn).1
      unfold EndedWell
      simp only
      rw [SingleFlight.close_progress, if_neg (Nat.ne_of_gt hlt), SingleFlight.lead_progress,
        if_neg (Nat.ne_of_gt hlt)]
    · intro v hmem _ hstage
      exact .inl ⟨v, hw ▸ hmem, rfl, rfl, hstage⟩
  · rw [resume_begin_follow hk] at ho ⊢
    refine h.frame ho h.closed ⟨[], rfl, List.forall_mem_nil _⟩ (fun _ _ => .rfl) ?_
    intro v hmem call' hstage
    rcases Waiting.eq_or_mem_rest hmem with rfl | hmem
    · -- the call that it joins runs
      obtain rfl : call = call' := Stage.following.inj hstage
      refine .inr ⟨(h.orderly.latest call hk).1, ?_⟩
      have hlead := List.mem_append_left s.strangers (h.orderly.lead_of_current hk)
      have hrun : s.refresher.flights.progress[call]? = some .running :=
        h.orderly.led.running _ hlead
      unfold EndedWell
      rw [hrun]
      nofun
    · exact .inl ⟨v, hw ▸ hmem, rfl, rfl, hstage⟩

theorem conclude (h : Barred base s) (hw : s.visits = before ++ after) (arrival : Nat)
    (client asClient : Client) (hok : refreshed.result = .ok () → base.Shares arrival client) :
    Barred base (s.resume before after arrival client
      (conclude s.now s.refresher asClient refreshed)) := by
  have ho := h.orderly.conclude hw arrival client asClient refreshed
  rcases hagain : asClient.thorough && refreshed.needsAgain with _ | _
  · rw [resume_conclude_ended hagain] at ho ⊢
    refine h.frame ho h.closed ⟨[_], rfl, ?_⟩ (fun _ _ => .rfl) ?_
    · intro e he
      rw [List.mem_singleton.mp he]
      exact hok
    · intro v hmem _ hstage
      exact .inl ⟨v, hw ▸ hmem, rfl, rfl, hstage⟩
  · rw [resume_conclude_again hagain]
    exact h.begin hw arrival client _

theorem enter (h : Barred base s) (client : Client) : Barred base (s.enter client) := by
  have hentered : Barred base { s with log := .entered client :: s.log } :=
    h.frame
      (h.orderly.frame rfl rfl rfl rfl (fun n => opened_cons_of_ne fun _ _ _ heq => nomatch heq)
        h.orderly.called)
      h.closed ⟨[_], rfl, fun e he => by rw [List.mem_singleton.mp he]; trivial⟩ (fun _ _ => .rfl)
      fun v hmem _ hstage => .inl ⟨v, hmem, rfl, rfl, hstage⟩
  exact hentered.begin (List.append_nil _).symm _ _ _

theorem answer (h : Barred base s) (i : Nat) (a : Answer R) : Barred base (s.answer i a) := by
  have ho := h.orderly.answer i a
  unfold Session.answer at ho ⊢
  split at ho
  · rename_i before v after hpick
    have hw := Waiting.eq_append_of_pick? hpick
    refine h.frame ho h.closed ⟨[_], rfl, ?_⟩ (fun _ _ => .rfl) ?_
    · intro e he
      rw [List.mem_singleton.mp he]
      trivial
    · intro w hmem _ hstage
      rcases Waiting.eq_or_mem_rest hmem with rfl | hmem
      · exact .inl ⟨v, Waiting.mem_of_split hw, rfl, rfl, hstage⟩
      · exact .inl ⟨w, Waiting.mem_of_mem_rest hw hmem, rfl, rfl, hstage⟩
  · exact h

theorem drop (h : Barred base s) (i : Nat) : Barred base (s.drop i) := by
  have ho := h.orderly.drop i
  unfold Session.drop at ho ⊢
  split at ho
  · rename_i before v after hpick
    have hw := Waiting.eq_append_of_pick? hpick
    have hmem := Waiting.mem_of_split hw
    have hsub : before ++ after ⊆ s.visits := fun _ hu => Waiting.mem_of_mem_rest hw hu
    unfold release at ho ⊢
    rcases hv : v.caller.stage with ⟨call, ticket, ⟨⟩⟩ | call
    · simp only [hv] at ho ⊢
      have hrun := h.orderly.running hmem hv
      have hp : Progress.abandoned ≠ Progress.finished (.ok () : Outcome) := nofun
      exact h.quiet ho h.closed rfl (fun n _ => endedWell_close hrun hp n) hsub
    · simp only [hv] at ho ⊢
      exact h.quiet ho h.closed rfl (fun _ _ => .rfl) hsub
  · exact h

theorem elsewhere (h : Barred base s) (step : Elsewhere) : Barred base (s.elsewhere step) := by
  have ho := h.orderly.elsewhere step
  obtain ⟨flights, strangers, heq, -, hprogress⟩ := h.orderly.elsewhere_eq step
  rw [heq] at ho ⊢
  refine h.quiet ho h.closed rfl (fun n hn => ?_) (List.Subset.refl _)
  unfold EndedWell
  rw [← hprogress n hn]
  rfl

variable [Index R ι]

theorem clear (h : Barred base s) : Barred base s.clear :=
  h.frame h.orderly.clear h.closed
    ⟨[_], rfl, fun e he => by rw [List.mem_singleton.mp he]; trivial⟩ (fun _ _ => .rfl)
    fun v hmem _ hstage => .inl ⟨v, hmem, rfl, rfl, hstage⟩

variable [Record R]

theorem settled (h : Barred base s) (hw : s.visits = before ++ v :: after) {ticket : Ticket}
    (hv : v.caller.stage = .pulling call ticket ()) (answer : Answer R) :
    Barred base (s.settled before after call ticket answer) ∧
      s.outcome ticket answer ≠ .ok () := by
  obtain ⟨fault, hfault⟩ := Replica.verdict_of_closed h.closed ticket answer
  have hout := outcome_of_error hfault
  have hrun := h.orderly.running (Waiting.mem_of_split hw) hv
  have hne : s.outcome ticket answer ≠ .ok () := by
    rw [hout]
    nofun
  refine ⟨h.quiet (h.orderly.settled hw hv answer) ?_ ?_ ?_ ?_, hne⟩
  · exact (Replica.closePull_closed _ _ _).trans h.closed
  · -- a closed replica merges nothing
    show Occurrence.merges _ _ _ _ ++ s.log = s.log
    unfold Occurrence.merges
    rw [hfault]
    rfl
  · intro n _
    exact endedWell_close hrun (fun heq => hne (Progress.finished.inj heq)) n
  · exact fun _ hu => Waiting.mem_of_mem_rest hw hu

theorem poll (h : Barred base s) (i : Nat) : Barred base (s.poll i) := by
  rcases hpick : Waiting.pick? (fun _ => true) i s.visits with _ | ⟨before, v, after⟩
  · rw [poll_of_none hpick]
    exact h
  · have hw := Waiting.eq_append_of_pick? hpick
    have hmem := Waiting.mem_of_split hw
    rcases hv : v.caller.stage with ⟨call, ticket, ⟨⟩⟩ | call
    · rcases ha : v.caller.answer with _ | a
      · rw [poll_of_open hpick hv ha]
        exact h
      · rw [poll_of_answered hpick hv ha]
        obtain ⟨hsettled, hout⟩ := h.settled hw hv a
        exact hsettled.conclude rfl _ _ _ fun hok => absurd hok hout
    · rcases hr : s.refresher.flights.resultFor s.refresher.key call with _ | result
      · rw [poll_of_waiting hpick hv hr]
        exact h
      · rw [poll_of_shared hpick hv hr]
        have hshared : Barred base (s.shared before after) :=
          h.quiet (h.orderly.shared hw hv) h.closed rfl (fun _ _ => .rfl)
            fun _ hu => Waiting.mem_of_mem_rest hw hu
        refine hshared.conclude rfl _ _ _ fun hok => ?_
        have hok : result = .ok () := hok
        have hopened : Opened s.log call := call_of_following hv ▸ h.orderly.called v hmem
        rw [hok] at hr
        exact h.shares v hmem call hv ((h.well call hopened).mp (finished_of_resultFor_ok hr))

theorem act (h : Barred base s) (action : Action R) : Barred base (s.act action) := by
  have ho := h.orderly.act action
  cases action with
  | enter client => exact h.enter client
  | answer i a => exact h.answer i a
  | poll i => exact h.poll i
  | drop i => exact h.drop i
  | clear => exact h.clear
  | close => exact h.quiet ho rfl rfl (fun _ _ => .rfl) (List.Subset.refl _)
  | tick now => exact h.quiet ho h.closed rfl (fun _ _ => .rfl) (List.Subset.refl _)
  | aside tally feed => exact h.quiet ho h.closed rfl (fun _ _ => .rfl) (List.Subset.refl _)
  | elsewhere step => exact h.elsewhere step

/-- The replica is closed. -/
theorem close (ho : Orderly s) : Barred s (s.act .close) where
  orderly := ho.act .close
  closed := rfl
  told := ⟨[], rfl, List.forall_mem_nil _⟩
  well _ _ := .rfl
  shares v hv call hstage hended := ⟨v, hv, rfl, rfl, call, hstage, hended⟩

end Barred

/-! ## What a move after the close publishes -/

variable [Record R]

theorem batch?_of_closed (h : s.refresher.replica.closed = true) (action : Action R) :
    s.batch? action = none := by
  rw [Option.eq_none_iff_forall_ne_some]
  intro batch hb
  obtain ⟨_, _, _, _, _, ticket, _, _, _, _, hv⟩ := of_batch? hb
  obtain ⟨fault, hfault⟩ := Replica.verdict_of_closed h ticket (.ok batch)
  rw [hfault] at hv
  cases hv

variable {m : Move R} {box : Inbox (Change R)}

theorem published_of_closed (h : s.refresher.replica.closed = true) (m : Move R) :
    s.published m = [] :=
  published_of_none (batch?_of_closed h _)

variable [Index R ι]

/-- What a listener hears in a move. -/
def heardIn (s : Session R ι) (n : Nat) : Move R → List (Change R)
  | .act _ => []
  | .listen step => s.refresher.replica.feed.heard n step

/-- A move that publishes nothing queues nothing for a listener. -/
theorem move_inbox (hp : s.published m = []) (hs : s.refresher.replica.feed.Sound)
    (hn : n < s.refresher.replica.feed.next)
    (hbox : (s.move m).refresher.replica.feed.inboxes[n]? = some box) :
    ∃ old, s.refresher.replica.feed.inboxes[n]? = some old ∧
      old.queue = s.heardIn n m ++ box.queue ∧ (box.connected = true → old.connected = true) := by
  rw [move_feed] at hbox
  split at hbox
  · rw [Feed.close_getElem? hs] at hbox
    split at hbox
    · obtain ⟨old, hold, rfl⟩ := Option.map_eq_some_iff.mp hbox
      exact ⟨old, hold, rfl, nofun⟩
    · exact ⟨box, hbox, rfl, id⟩
  · rw [hp] at hbox
    exact ⟨box, hbox, rfl, id⟩
  · exact Feed.of_listen_getElem? hn hbox

/-- A receiver is there until it is given up. -/
theorem mem_inboxes_move (hp : s.published m = []) (hs : s.refresher.replica.feed.Sound)
    (hn : n < s.refresher.replica.feed.next) (hm : m ≠ .listen (.discard n))
    (hmem : n ∈ s.refresher.replica.feed.inboxes) :
    n ∈ (s.move m).refresher.replica.feed.inboxes := by
  rw [move_feed]
  split
  · rw [Std.ExtTreeMap.mem_iff_isSome_getElem?, Feed.close_getElem? hs]
    rw [Std.ExtTreeMap.mem_iff_isSome_getElem?] at hmem
    split
    · rw [Option.isSome_map]
      exact hmem
    · exact hmem
  · rw [hp]
    exact hmem
  · refine (Feed.mem_inboxes_listen fun _ => Nat.ne_of_lt hn).mpr ⟨hmem, ?_⟩
    rintro rfl
    exact hm rfl

/-- The inbox of a listener that comes in a move is empty. -/
theorem move_newcomer (hp : s.published m = []) (hs : s.refresher.replica.feed.Sound)
    (hn : s.refresher.replica.feed.next ≤ n)
    (hbox : (s.move m).refresher.replica.feed.inboxes[n]? = some box) : box.queue = [] := by
  have hnone : ∀ {box}, s.refresher.replica.feed.inboxes[n]? ≠ some box := fun hold =>
    Nat.lt_irrefl n (Nat.lt_of_lt_of_le (hs.connected n _ hold).1 hn)
  rw [move_feed] at hbox
  split at hbox
  · rw [Feed.close_getElem? hs] at hbox
    split at hbox
    · obtain ⟨old, hold, -⟩ := Option.map_eq_some_iff.mp hbox
      exact absurd hold hnone
    · exact absurd hbox hnone
  · rw [hp] at hbox
    exact absurd hbox hnone
  · rw [Feed.listen_newcomer hs hn hbox]

/-! ## Every run after the close -/

variable {later : List (Move R)}

theorem Barred.moves (h : Barred base s) (later : List (Move R)) : Barred base (s.moves later) := by
  induction later generalizing s with
  | nil => exact h
  | cons m rest ih => exact ih (h.act (m.action s.refresher.replica))

theorem Barred.steady_move (h : Barred base s) (hm : m ≠ .act .clear) :
    s.refresher.replica.Steady (s.move m).refresher.replica := by
  refine act_steady (batch?_of_closed h.closed _) ?_
  rcases m with action | step
  · cases action with
    | clear => exact absurd rfl hm
    | _ => nofun
  · nofun

theorem Barred.steady_moves (h : Barred base s) (hl : ∀ m ∈ later, m ≠ .act .clear) :
    s.refresher.replica.Steady (s.moves later).refresher.replica := by
  induction later generalizing s with
  | nil => exact ⟨rfl, rfl, rfl, rfl⟩
  | cons m rest ih =>
    exact (h.steady_move (hl m List.mem_cons_self)).trans
      (ih (h.act _) fun m' hm' => hl m' (List.mem_cons_of_mem _ hm'))

/-- What was cleared stays empty. -/
theorem Barred.empty_moves (h : Barred base s)
    (he : .act .clear ∈ later ∨
      s.refresher.replica.entries = ∅ ∧ s.refresher.replica.watermark = .zero) :
    (s.moves later).refresher.replica.entries = ∅ ∧
      (s.moves later).refresher.replica.watermark = .zero := by
  induction later generalizing s with
  | nil => exact he.resolve_left nofun
  | cons m rest ih =>
    refine ih (s := s.move m) (h.act _) ?_
    by_cases hm : m = .act .clear
    · rw [hm]
      exact .inr ⟨rfl, rfl⟩
    · have hsteady := h.steady_move hm
      rw [hsteady.entries, hsteady.watermark]
      exact he.imp_left fun hmem => (List.mem_cons.mp hmem).resolve_left (Ne.symm hm)

theorem Barred.newcomer_moves (h : Barred base s) (hs : s.refresher.replica.feed.Sound)
    (hnew : ∀ box, s.refresher.replica.feed.inboxes[n]? = some box → box.queue = [])
    (hbox : (s.moves later).refresher.replica.feed.inboxes[n]? = some box) : box.queue = [] := by
  induction later generalizing s with
  | nil => exact hnew box hbox
  | cons m rest ih =>
    have hp := published_of_closed h.closed m
    refine ih (s := s.move m) (h.act _) (move_sound hs m) ?_ hbox
    intro box hbox
    rcases Nat.lt_or_ge n s.refresher.replica.feed.next with hn | hn
    · obtain ⟨old, hold, hqueue, -⟩ := move_inbox hp hs hn hbox
      rw [hnew old hold] at hqueue
      exact (List.append_eq_nil_iff.mp hqueue.symm).2
    · exact move_newcomer hp hs hn hbox

theorem Barred.mem_moves (h : Barred base s) (hs : s.refresher.replica.feed.Sound)
    (hn : n < s.refresher.replica.feed.next) (hl : .listen (.discard n) ∉ later)
    (hmem : n ∈ s.refresher.replica.feed.inboxes) :
    n ∈ (s.moves later).refresher.replica.feed.inboxes := by
  induction later generalizing s with
  | nil => exact hmem
  | cons m rest ih =>
    refine ih (s := s.move m) (h.act _) (move_sound hs m)
      (Nat.lt_of_lt_of_le hn (s.next_le_move m)) (fun hr => hl (List.mem_cons_of_mem _ hr)) ?_
    refine mem_inboxes_move (published_of_closed h.closed m) hs hn ?_ hmem
    rintro rfl
    exact hl List.mem_cons_self

end Session

namespace Hearing

open Session (Barred)

variable [Record R] [Index R ι] {base : Session R ι} {h : Hearing R ι} {n : Nat}

theorem session_moves (h : Hearing R ι) (n : Nat) (later : List (Move R)) :
    (h.moves n later).session = h.session.moves later := by
  induction later generalizing h with
  | nil => rfl
  | cons m rest ih => exact ih (h.move n m)

/-- What a listener still hears after the replica was closed is what was queued for it. -/
structure Ebbs (base : Session R ι) (n : Nat) (h : Hearing R ι) : Prop where
  barred : Barred base h.session
  sound : h.session.refresher.replica.feed.Sound
  given : n < h.session.refresher.replica.feed.next
  rest : ∀ box, h.session.refresher.replica.feed.inboxes[n]? = some box →
    box.connected = false ∧ ∃ old, base.refresher.replica.feed.inboxes[n]? = some old ∧
      h.received ++ box.queue = old.queue

theorem Ebbs.move (he : Ebbs base n h) (m : Move R) : Ebbs base n (h.move n m) := by
  refine ⟨he.barred.act _, Session.move_sound he.sound m,
    Nat.lt_of_lt_of_le he.given (h.session.next_le_move m), ?_⟩
  intro box hbox
  obtain ⟨mid, hmid, hqueue, hconn⟩ := Session.move_inbox
    (Session.published_of_closed he.barred.closed m) he.sound he.given hbox
  obtain ⟨hlost, old, hold, hrest⟩ := he.rest mid hmid
  refine ⟨?_, old, hold, ?_⟩
  · rw [Bool.eq_false_iff]
    intro hc
    rw [hconn hc] at hlost
    cases hlost
  · have hreceived : (h.move n m).received = h.received ++ h.session.heardIn n m := by
      cases m <;> rfl
    rw [hreceived, List.append_assoc, ← hqueue]
    exact hrest

theorem Ebbs.moves (he : Ebbs base n h) (later : List (Move R)) :
    Ebbs base n (h.moves n later) := by
  induction later generalizing h with
  | nil => exact he
  | cons m rest ih => exact ih (he.move m)

/-- The replica is closed. -/
theorem Ebbs.close {s : Session R ι} (ho : Session.Orderly s)
    (hs : s.refresher.replica.feed.Sound) (hn : n < s.refresher.replica.feed.next) :
    Ebbs s n (({ session := s } : Hearing R ι).move n (.act .close)) := by
  refine ⟨.close ho, hs.close, hn, ?_⟩
  intro box hbox
  have hconn : box.connected = true ↔ n ∈ [] := (hs.close.connected n box hbox).2
  obtain ⟨old, hold, hqueue, -⟩ := Session.move_inbox (m := Move.act .close) rfl hs hn hbox
  exact ⟨Bool.eq_false_iff.mpr fun hc => List.not_mem_nil (hconn.mp hc), old, hold, hqueue.symm⟩

end Hearing

namespace Session

variable [Record R] [Index R ι] {s : Session R ι}

/-- The session after the replica is closed and later moves. -/
def closedThen (s : Session R ι) (later : List (Move R)) : Session R ι :=
  s.moves (.act .close :: later)

/-- The replica is closed for good: what there is in the session after the close and later moves. -/
structure ClosesForGood (s : Session R ι) (later : List (Move R)) : Prop where
  /-- No pull is opened and none is merged, and a caller ends well only if it followed a call that
  had ended well when the replica was closed. -/
  told : ∃ told, (s.closedThen later).log = told ++ s.log ∧
    ∀ e ∈ told, ClosedLaw s e
  kept : (∀ m ∈ later, m ≠ .act .clear) →
    s.refresher.replica.Steady (s.closedThen later).refresher.replica
  emptied : .act .clear ∈ later →
    (s.closedThen later).refresher.replica.entries = ∅ ∧
      (s.closedThen later).refresher.replica.watermark = .zero
  /-- What a listener has received since and what is queued for it was queued before. -/
  backlog : ∀ n box, n < s.refresher.replica.feed.next →
    (s.closedThen later).refresher.replica.feed.inboxes[n]? = some box →
    ∃ old, s.refresher.replica.feed.inboxes[n]? = some old ∧
      (({ session := s } : Hearing R ι).moves n (.act .close :: later)).received ++ box.queue =
        old.queue
  /-- It can still receive that, and then it finds that nothing will come. -/
  ends : ∀ n box, n < s.refresher.replica.feed.next →
    (s.closedThen later).refresher.replica.feed.inboxes[n]? = some box →
    ((s.closedThen later).refresher.replica.feed.receive n).2 =
      box.queue.head?.elim .disconnected .event
  there : ∀ n, n ∈ s.refresher.replica.feed.inboxes → .listen (.discard n) ∉ later →
    n ∈ (s.closedThen later).refresher.replica.feed.inboxes
  /-- Nothing is queued for those who come later. -/
  newcomers : ∀ n box, s.refresher.replica.feed.next ≤ n →
    (s.closedThen later).refresher.replica.feed.inboxes[n]? = some box →
    box.queue = []

theorem receive_of_disconnected {ε : Type} {feed : Feed ε} {n : Nat} {box : Inbox ε}
    (hbox : feed.inboxes[n]? = some box) (hlost : box.connected = false) :
    (feed.receive n).2 = box.queue.head?.elim .disconnected .event := by
  unfold Feed.receive
  rw [hbox]
  rcases box with ⟨_ | ⟨e, rest⟩, connected⟩
  · obtain rfl : connected = false := hlost
    rfl
  · rfl

theorem closesForGood (ho : Orderly s) (hs : s.refresher.replica.feed.Sound)
    (later : List (Move R)) : ClosesForGood s later := by
  have hclosed : Barred s (s.move (.act .close)) := .close ho
  have hebbs : ∀ n, n < s.refresher.replica.feed.next → Hearing.Ebbs s n
      (({ session := s } : Hearing R ι).moves n (.act .close :: later)) :=
    fun n hn => (Hearing.Ebbs.close ho hs hn).moves later
  have hsession : ∀ n, (({ session := s } : Hearing R ι).moves n (.act .close :: later)).session =
      s.closedThen later := fun n => Hearing.session_moves _ n _
  refine ⟨(hclosed.moves later).told, ?_, ?_, ?_, ?_, ?_, ?_⟩
  · intro hl
    have hclose : s.refresher.replica.Steady (s.move (.act .close)).refresher.replica :=
      ⟨rfl, rfl, rfl, rfl⟩
    exact hclose.trans (hclosed.steady_moves hl)
  · exact fun hmem => hclosed.empty_moves (.inl hmem)
  · intro n box hn hbox
    rw [← hsession n] at hbox
    exact ((hebbs n hn).rest box hbox).2
  · intro n box hn hbox
    rw [← hsession n] at hbox ⊢
    exact receive_of_disconnected hbox ((hebbs n hn).rest box hbox).1
  · intro n hmem hl
    obtain ⟨box, hbox⟩ := Option.isSome_iff_exists.mp
      (Std.ExtTreeMap.mem_iff_isSome_getElem?.mp hmem)
    have hn := (hs.connected n box hbox).1
    have hstays : n ∈ (s.move (.act .close)).refresher.replica.feed.inboxes :=
      mem_inboxes_move (m := Move.act .close) rfl hs hn nofun hmem
    exact hclosed.mem_moves hs.close hn hl hstays
  · intro n box hn hbox
    refine hclosed.newcomer_moves hs.close ?_ hbox
    intro box hbox
    exact move_newcomer (m := Move.act .close) rfl hs hn hbox

theorem orderly_moves (kind : CacheKind) (skew : Span) (buffer : Nat) (now : Instant)
    (moves : List (Move R)) : Orderly ((start kind skew buffer now : Session R ι).moves moves) := by
  have hstart : Orderly (start kind skew buffer now : Session R ι) := .start kind skew buffer now
  generalize (start kind skew buffer now : Session R ι) = s at hstart
  induction moves generalizing s with
  | nil => exact hstart
  | cons m rest ih => exact ih (s.move m) (hstart.act _)

/-- **Closing is final.** Close a replica in whatever state, and let anything happen after that. No
store is asked and no batch is merged; only a clear changes the contents, and empties them. Those
who listened receive what was queued for them and then learn that nothing will come, and nobody else
is sent anything. A caller ends well only if it followed a call that had ended well before. -/
theorem run_closesForGood (kind : CacheKind) (skew : Span) (buffer : Nat) (now : Instant)
    (before later : List (Move R)) :
    ClosesForGood ((start kind skew buffer now : Session R ι).moves before) later :=
  closesForGood (orderly_moves kind skew buffer now before)
    (moves_sound kind skew buffer now before) later

/-- A pull that was answered before the close comes too late, for its leader and its follower. -/
example :
    let s := (start .namespaces (.seconds (-2)) 4 .epoch : Session Namespace Exports).moves
      [.act (.enter ⟨"leader", false, false⟩), .act (.enter ⟨"follower", false, false⟩),
        .act (.answer 0 (.ok []))]
    (s.closedThen [.act (.poll 0), .act (.poll 0)]).log.take 2 =
      [.ended 2 ⟨"follower", false, false⟩ ⟨.follower, .error (.closed "namespace")⟩,
        .ended 0 ⟨"leader", false, false⟩ ⟨.leader, .error (.closed "namespace")⟩] := by cbv

end Session

end Desk

end GovernanceCache
