import GovernanceCache.Namespaces
import GovernanceCache.Proofs.DeskCalls

/-!
# Pulls are serial

Two pulls of one replica may be in flight at once, since a clear forgets the call of the first. They
never disturb each other: a batch is merged only into the entries, the watermark and the first-load
flag from which its ticket was computed.

1. `Pulls` is what a visit knows of its own pull: as long as its generation lasts, its call is the
   registered one and nothing was merged or cleared since it was opened.
2. A leader opens a pull only when no call is registered, so no other one of the generation is open.
3. `Serial` collects this with the law of the log, and every step keeps it.
-/

namespace GovernanceCache.Desk

variable {R ι : Type}

/-- The occurrence changes the entries, the watermark or the first-load flag of the replica. -/
def Occurrence.Disturbs : Occurrence R ι → Prop
  | .merged .. | .cleared => True
  | _ => False

/-- The occurrence concerns no pull. -/
def Occurrence.IsQuiet : Occurrence R ι → Prop
  | .opened .. | .merged .. | .cleared => False
  | _ => True

theorem Occurrence.IsQuiet.not_disturbs {e : Occurrence R ι} (h : e.IsQuiet) : ¬ e.Disturbs := by
  cases e <;> simp_all [Occurrence.IsQuiet, Occurrence.Disturbs]

/-- The visit waits for its own pull of the generation. -/
def Visit.pullsIn (generation : Nat) (v : Visit R) : Bool :=
  match v.caller.stage with
  | .pulling _ ticket _ => ticket.generation == generation
  | .following _ => false

variable [Record R]

/-- The entries that the log accounts for. -/
def held : List (Occurrence R ι) → Std.ExtTreeMap String R
  | .merged _ batch into :: _ => (merge into.entries batch).entries
  | .cleared :: _ => ∅
  | _ :: earlier => held earlier
  | [] => ∅

/-- What may happen after the earlier occurrences. -/
def SerialLaw (earlier : List (Occurrence R ι)) : Occurrence R ι → Prop
  | .opened _ ticket seen =>
    ticket.since = seen.watermark.since seen.skew ∧ ticket.firstLoad = seen.firstLoad ∧
      seen.entries = held earlier
  | .merged call batch into => ∃ between ticket seen old,
    earlier = between ++ .opened call ticket seen :: old ∧
      .answered call (.ok batch) ∈ between ∧
      (∀ e ∈ between, ¬ e.Disturbs) ∧
      into.entries = seen.entries ∧ into.watermark = seen.watermark ∧
      into.firstLoad = seen.firstLoad
  | _ => True

namespace Session

variable {s s' : Session R ι} {m m' : Replica R ι} {current current' : Option Nat}
  {log : List (Occurrence R ι)} {call : Nat} {ticket : Ticket}
  {reply : Option (Answer R)} {before after : List (Visit R)} {v w : Visit R}

/-- What a visit knows of its own pull, given the replica, the call that the key has registered, and
the answer that is at hand. -/
def Pulls (m : Replica R ι) (current : Option Nat) (log : List (Occurrence R ι)) (call : Nat)
    (ticket : Ticket) (reply : Option (Answer R)) : Prop :=
  ∃ later seen earlier, log = later ++ .opened call ticket seen :: earlier ∧
    (∀ a, reply = some a → .answered call a ∈ later) ∧
    ticket.generation ≤ m.generation ∧
    (ticket.generation = m.generation →
      current = some call ∧ seen.Alike m ∧ ∀ e ∈ later, ¬ e.Disturbs) ∧
    (ticket.generation ≠ m.generation → .cleared ∈ later)

namespace Pulls

omit [Record R]

/-- A pull is undisturbed as long as the replica stays alike. -/
theorem keep (h : Pulls m current log call ticket reply) (told : List (Occurrence R ι))
    (hm : m.Alike m') (hc : current = some call → current' = some call)
    (ht : ∀ e ∈ told, ¬ e.Disturbs) : Pulls m' current' (told ++ log) call ticket reply := by
  obtain ⟨later, seen, earlier, rfl, ha, hle, hnow, hold⟩ := h
  refine ⟨told ++ later, seen, earlier, by rw [List.append_assoc], ?_, ?_, ?_, ?_⟩
  · exact fun a heq => List.mem_append_right _ (ha a heq)
  · rw [hm.generation]
    exact hle
  · intro hgen
    rw [hm.generation] at hgen
    obtain ⟨h₁, h₂, h₃⟩ := hnow hgen
    refine ⟨hc h₁, h₂.trans hm, ?_⟩
    intro e he
    rcases List.mem_append.mp he with he | he
    · exact ht e he
    · exact h₃ e he
  · intro hgen
    rw [hm.generation] at hgen
    exact List.mem_append_right _ (hold hgen)

/-- A pull of an older generation stays one. -/
theorem outlive (h : Pulls m current log call ticket reply)
    (hgen : ticket.generation ≠ m.generation) (hm : m.generation ≤ m'.generation)
    (current' : Option Nat) (told : List (Occurrence R ι)) :
    Pulls m' current' (told ++ log) call ticket reply := by
  obtain ⟨later, seen, earlier, rfl, ha, hle, -, hold⟩ := h
  refine ⟨told ++ later, seen, earlier, by rw [List.append_assoc], ?_, Nat.le_trans hle hm, ?_, ?_⟩
  · exact fun a heq => List.mem_append_right _ (ha a heq)
  · intro heq
    omega
  · exact fun _ => List.mem_append_right _ (hold hgen)

/-- A clear makes every pull one of an older generation. -/
theorem outdate (h : Pulls m current log call ticket reply)
    (hm : m'.generation = m.generation + 1) (current' : Option Nat) :
    Pulls m' current' (.cleared :: log) call ticket reply := by
  obtain ⟨later, seen, earlier, rfl, ha, hle, -, -⟩ := h
  refine ⟨.cleared :: later, seen, earlier, rfl, ?_, by omega, ?_, ?_⟩
  · exact fun a heq => List.mem_cons_of_mem _ (ha a heq)
  · intro heq
    omega
  · exact fun _ => List.mem_cons_self

theorem answered (h : Pulls m current log call ticket none) (a : Answer R) :
    Pulls m current (.answered call a :: log) call ticket (some a) := by
  obtain ⟨later, seen, earlier, rfl, -, hle, hnow, hold⟩ := h
  refine ⟨.answered call a :: later, seen, earlier, rfl, ?_, hle, ?_, ?_⟩
  · intro b heq
    cases heq
    exact List.mem_cons_self
  · intro hgen
    obtain ⟨h₁, h₂, h₃⟩ := hnow hgen
    refine ⟨h₁, h₂, ?_⟩
    intro e he
    rcases List.mem_cons.mp he with rfl | he
    · exact id
    · exact h₃ e he
  · exact fun hgen => List.mem_cons_of_mem _ (hold hgen)

theorem of_opened (hs : ticket.generation = m.generation) :
    Pulls m (some call) (.opened call ticket m :: log) call ticket none := by
  refine ⟨[], m, log, rfl, nofun, Nat.le_of_eq hs, ?_, ?_⟩
  · exact fun _ => ⟨rfl, ⟨rfl, rfl, rfl, rfl, rfl, rfl⟩, by simp⟩
  · exact fun hne => absurd hs hne

end Pulls

/-- The pulls of the visits and the log go together. -/
structure Serial (s : Session R ι) : Prop where
  pulls : ∀ v ∈ s.visits, ∀ call ticket, v.caller.stage = .pulling call ticket () →
    Pulls s.refresher.replica s.refresher.flights.current[s.refresher.key]? s.log call ticket
      v.caller.answer
  entries : s.refresher.replica.entries = held s.log
  lawful : Chronicle SerialLaw s.log

theorem held_of_quiet {e : Occurrence R ι} (he : e.IsQuiet) : held (e :: log) = held log := by
  cases e <;> first | rfl | exact he.elim

theorem lawful_of_quiet {e : Occurrence R ι} (he : e.IsQuiet) : SerialLaw log e := by
  cases e <;> first | exact trivial | exact he.elim

namespace Serial

/-- Occurrences that concern no pull: the replica stays alike, and the visits that pull did so
before, with their calls registered as they were. -/
theorem frame (h : Serial s) (told : List (Occurrence R ι))
    (hm : s.refresher.replica.Alike s'.refresher.replica)
    (hl : s'.log = told ++ s.log) (ht : ∀ e ∈ told, e.IsQuiet)
    (hv : ∀ w ∈ s'.visits, ∀ call ticket, w.caller.stage = .pulling call ticket () →
      (∃ v ∈ s.visits, v.caller = w.caller) ∧
        (s.refresher.flights.current[s.refresher.key]? = some call →
          s'.refresher.flights.current[s'.refresher.key]? = some call)) : Serial s' := by
  refine ⟨?_, ?_, ?_⟩
  · intro w hw call ticket hp
    obtain ⟨⟨v, hmem, heq⟩, hc⟩ := hv w hw call ticket hp
    rw [← heq] at hp ⊢
    rw [hl]
    exact (h.pulls v hmem call ticket hp).keep told hm hc fun e he => (ht e he).not_disturbs
  · rw [hm.entries, h.entries, hl]
    clear hl
    induction told with
    | nil => rfl
    | cons e told ih =>
      rw [List.cons_append, held_of_quiet (ht e List.mem_cons_self)]
      exact ih fun e he => ht e (List.mem_cons_of_mem _ he)
  · rw [hl]
    clear hl
    induction told with
    | nil => exact h.lawful
    | cons e told ih =>
      exact ⟨lawful_of_quiet (ht e List.mem_cons_self),
        ih fun e he => ht e (List.mem_cons_of_mem _ he)⟩

/-- While no call is registered every open pull is of an older generation. -/
theorem older_of_free (h : Serial s)
    (hk : s.refresher.flights.current[s.refresher.key]? = none) (hv : v ∈ s.visits)
    (hp : v.caller.stage = .pulling call ticket ()) :
    ticket.generation ≠ s.refresher.replica.generation := by
  intro hgen
  obtain ⟨_, _, _, _, _, _, hnow, _⟩ := h.pulls v hv call ticket hp
  obtain ⟨hc, -⟩ := hnow hgen
  rw [hk] at hc
  cases hc

theorem lead (h : Serial s) (hw : s.visits = before ++ after)
    (hk : s.refresher.flights.current[s.refresher.key]? = none) {replica : Replica R ι}
    (ho : s.refresher.replica.openPull s.now = some (replica, ticket)) (arrival : Nat)
    (client asClient : Client) :
    Serial
      { s with
        refresher := ⟨s.refresher.flights.lead s.refresher.key, replica⟩
        visits := before ++ ⟨arrival, client, ⟨asClient,
          .pulling s.refresher.flights.next ticket (), none⟩⟩ :: after
        log := .opened s.refresher.flights.next ticket replica :: s.log } := by
  obtain ⟨hm, hsince, hfirst, hgen⟩ := Replica.openPull_eq_some ho
  have hkey : (⟨s.refresher.flights.lead s.refresher.key, replica⟩ : Refresher R ι).key =
      s.refresher.key := congrArg CacheKind.name hm.kind
  refine ⟨?_, ?_, ?_, h.lawful⟩
  · intro w hmem call ticket' hp
    simp only [hkey, SingleFlight.lead_current, if_pos]
    rcases Waiting.eq_or_mem_rest hmem with rfl | hmem
    · cases hp
      exact Pulls.of_opened (hgen.trans hm.generation.symm)
    · have hmem' : w ∈ s.visits := by rw [hw]; exact hmem
      -- the key had no call, so the other pulls are of older generations
      exact (h.pulls w hmem' call ticket' hp).outlive (h.older_of_free hk hmem' hp)
        (Nat.le_of_eq hm.generation.symm) (some s.refresher.flights.next) [_]
  · exact hm.entries.trans h.entries
  · refine ⟨?_, hfirst.trans hm.firstLoad.symm, hm.entries.trans h.entries⟩
    rw [hsince, hm.watermark, hm.skew]

/-- A ticket of the current generation is what a pull that opens now would get. -/
theorem ticket_eq (h : Serial s) (hv : v ∈ s.visits)
    (hp : v.caller.stage = .pulling call ticket ())
    (hgen : ticket.generation = s.refresher.replica.generation) :
    ticket.since = s.refresher.replica.watermark.since s.refresher.replica.skew ∧
      ticket.firstLoad = s.refresher.replica.firstLoad := by
  obtain ⟨later, seen, earlier, hlog, -, -, hnow, -⟩ := h.pulls v hv call ticket hp
  obtain ⟨-, hseen, -⟩ := hnow hgen
  have hlaw := h.lawful
  rw [hlog] at hlaw
  obtain ⟨hsince, hfirst, -⟩ := Chronicle.law_of_split hlaw
  rw [hseen.watermark, hseen.skew, hseen.firstLoad]
  exact ⟨hsince, hfirst⟩

/-- Besides a pull of the current generation every other one is of an older generation, since its
call is not the registered one. -/
theorem alone (h : Serial s) (ho : Orderly s) (hw : s.visits = before ++ v :: after)
    (hp : v.caller.stage = .pulling call ticket ())
    (hgen : ticket.generation = s.refresher.replica.generation) (hmem : w ∈ before ++ after)
    {call' : Nat} {ticket' : Ticket} (hp' : w.caller.stage = .pulling call' ticket' ()) :
    ticket'.generation ≠ s.refresher.replica.generation := by
  intro hgen'
  have hmem' : w ∈ s.visits := Waiting.mem_of_mem_rest hw hmem
  obtain ⟨_, _, _, _, _, _, hnow, _⟩ := h.pulls v (Waiting.mem_of_split hw) call ticket hp
  obtain ⟨_, _, _, _, _, _, hnow', _⟩ := h.pulls w hmem' call' ticket' hp'
  have hc := (hnow hgen).1
  rw [(hnow' hgen').1] at hc
  exact ho.call_ne hw hp hmem hp' (Option.some.inj hc)

/-- The leader of a call leaves, and the replica stays alike. -/
theorem leave (h : Serial s) (ho : Orderly s) (hw : s.visits = before ++ v :: after)
    (hp : v.caller.stage = .pulling call ticket ()) {p : Progress Outcome}
    (hm : s.refresher.replica.Alike s'.refresher.replica) (hl : s'.log = s.log)
    (hf : s'.refresher.flights = s.refresher.flights.close s.refresher.key call p)
    (hv : s'.visits = before ++ after) : Serial s' := by
  refine h.frame [] hm hl (by simp) ?_
  intro w hmem call' ticket' hp'
  rw [hv] at hmem
  refine ⟨⟨w, Waiting.mem_of_mem_rest hw hmem, rfl⟩, ?_⟩
  · intro hc
    have hkey : s'.refresher.key = s.refresher.key := congrArg CacheKind.name hm.kind
    rw [hf, hkey, SingleFlight.close_current_eq_some]
    exact ⟨hc, fun heq => ho.call_ne hw hp hmem hp' heq.2⟩

/-- The visits that pull did so before, and the registered call stays. -/
theorem frame_subset (h : Serial s) (told : List (Occurrence R ι))
    (hm : s.refresher.replica.Alike s'.refresher.replica)
    (hl : s'.log = told ++ s.log) (ht : ∀ e ∈ told, e.IsQuiet)
    (hf : s'.refresher.flights = s.refresher.flights)
    (hv : ∀ w ∈ s'.visits, ∀ call ticket, w.caller.stage = .pulling call ticket () →
      ∃ v ∈ s.visits, v.caller = w.caller) : Serial s' := by
  refine h.frame told hm hl ht ?_
  intro w hmem call ticket hp
  have hkey : s'.refresher.key = s.refresher.key := congrArg CacheKind.name hm.kind
  rw [hf, hkey]
  exact ⟨hv w hmem call ticket hp, id⟩

theorem withReplica (h : Serial s) (hm : s.refresher.replica.Alike m') :
    Serial (s.withReplica m') :=
  h.frame_subset [] hm rfl (by simp) rfl fun w hw _ _ _ => ⟨w, hw, rfl⟩

/-! ### Every step -/

theorem begin (h : Serial s) (hw : s.visits = before ++ after) (arrival : Nat)
    (client asClient : Client) :
    Serial (s.resume before after arrival client (begin s.now s.refresher asClient none)) := by
  rcases hk : s.refresher.flights.current[s.refresher.key]? with _ | call
  · rcases ho : s.refresher.replica.openPull s.now with _ | ⟨replica, ticket⟩
    · rw [resume_begin_refused hk ho]
      refine h.frame [_] ⟨rfl, rfl, rfl, rfl, rfl, rfl⟩ rfl (by simp [Occurrence.IsQuiet]) ?_
      intro w hmem call ticket hp
      refine ⟨⟨w, by rw [hw]; exact hmem, rfl⟩, ?_⟩
      rw [hk]
      nofun
    · rw [resume_begin_lead hk ho]
      exact h.lead hw hk ho arrival client asClient
  · rw [resume_begin_follow hk]
    refine h.frame_subset [] ⟨rfl, rfl, rfl, rfl, rfl, rfl⟩ rfl (by simp) rfl ?_
    intro w hmem call ticket hp
    rcases Waiting.eq_or_mem_rest hmem with rfl | hmem
    · cases hp
    · exact ⟨w, by rw [hw]; exact hmem, rfl⟩

theorem conclude (h : Serial s) (hw : s.visits = before ++ after) (arrival : Nat)
    (client asClient : Client) (refreshed : Refreshed) :
    Serial (s.resume before after arrival client
      (conclude s.now s.refresher asClient refreshed)) := by
  rcases hagain : asClient.thorough && refreshed.needsAgain with _ | _
  · rw [resume_conclude_ended hagain]
    refine h.frame_subset [_] ⟨rfl, rfl, rfl, rfl, rfl, rfl⟩ rfl
      (by simp [Occurrence.IsQuiet]) rfl ?_
    exact fun w hmem _ _ _ => ⟨w, by rw [hw]; exact hmem, rfl⟩
  · rw [resume_conclude_again hagain]
    exact h.begin hw arrival client _

theorem remove (h : Serial s) (hw : s.visits = before ++ v :: after) :
    Serial { s with visits := before ++ after } := by
  refine h.frame_subset [] ⟨rfl, rfl, rfl, rfl, rfl, rfl⟩ rfl (by simp) rfl ?_
  exact fun w hmem _ _ _ => ⟨w, Waiting.mem_of_mem_rest hw hmem, rfl⟩

theorem enter (h : Serial s) (client : Client) : Serial (s.enter client) := by
  refine begin (s := { s with log := .entered client :: s.log }) ?_ (List.append_nil _).symm _ _ _
  exact h.frame_subset [_] ⟨rfl, rfl, rfl, rfl, rfl, rfl⟩ rfl
    (by simp [Occurrence.IsQuiet]) rfl fun w hmem _ _ _ => ⟨w, hmem, rfl⟩

theorem answer (h : Serial s) (i : Nat) (a : Answer R) : Serial (s.answer i a) := by
  unfold Session.answer
  split
  · rename_i before v after hpick
    have hw := Waiting.eq_append_of_pick? hpick
    obtain ⟨call, ticket, hp, hnone⟩ := Visit.of_isOpen (Waiting.of_pick? hpick)
    refine ⟨?_, h.entries, trivial, h.lawful⟩
    intro w hmem call' ticket' hp'
    rcases Waiting.eq_or_mem_rest hmem with rfl | hmem
    · have hpull := h.pulls v (Waiting.mem_of_split hw) call ticket hp
      rw [hnone] at hpull
      rw [hp] at hp'
      cases hp'
      rw [call_of_pulling hp]
      exact hpull.answered a
    · exact (h.pulls w (Waiting.mem_of_mem_rest hw hmem) call' ticket' hp').keep [_]
        ⟨rfl, rfl, rfl, rfl, rfl, rfl⟩ id (by simp [Occurrence.Disturbs])
  · exact h

/-- The registered call of the replica's key is spared by those of other keys. -/
theorem elsewhere (h : Serial s) (ho : Orderly s) (step : Elsewhere) :
    Serial (s.elsewhere step) := by
  obtain ⟨flights, strangers, heq, hc, -⟩ := ho.elsewhere_eq step
  rw [heq]
  refine h.frame [] ⟨rfl, rfl, rfl, rfl, rfl, rfl⟩ rfl (by simp) ?_
  exact fun w hmem call ticket _ => ⟨⟨w, hmem, rfl⟩, fun hk => hc.trans hk⟩

theorem drop (h : Serial s) (ho : Orderly s) (i : Nat) : Serial (s.drop i) := by
  unfold Session.drop
  split
  · rename_i before v after hpick
    have hw := Waiting.eq_append_of_pick? hpick
    unfold release
    split
    · rename_i call ticket _ hv
      exact h.leave ho hw hv (p := .abandoned) ⟨rfl, rfl, rfl, rfl, rfl, rfl⟩ rfl rfl rfl
    · exact h.remove hw
  · exact h

variable [Index R ι]

theorem settled (h : Serial s) (ho : Orderly s) (hw : s.visits = before ++ v :: after)
    (hp : v.caller.stage = .pulling call ticket ()) {a : Answer R} (ha : v.caller.answer = some a) :
    Serial (s.settled before after call ticket a) := by
  rcases hd : s.refresher.replica.verdict ticket a with fault | batch
  · have halike : s.refresher.replica.Alike (s.refresher.replica.closePull ticket a).1 := by
      rw [Replica.closePull_of_error hd]
      exact s.refresher.replica.giveUp_alike fault
    refine h.leave ho hw hp halike ?_ rfl rfl
    unfold Session.settled Occurrence.merges
    rw [hd]
    rfl
  · obtain ⟨rfl, -, -, hgen⟩ := Replica.verdict_eq_ok.mp hd
    obtain ⟨later, seen, earlier, hlog, hans, -, hnow, -⟩ :=
      h.pulls v (Waiting.mem_of_split hw) call ticket hp
    obtain ⟨-, hseen, hquiet⟩ := hnow hgen.symm
    have hmerges : Occurrence.merges s.refresher.replica call ticket (.ok batch) =
        [.merged call batch s.refresher.replica] := by
      unfold Occurrence.merges; rw [hd]
    refine ⟨?_, ?_, ?_⟩
    · intro w hmem call' ticket' hp'
      have hmem' : w ∈ s.visits := Waiting.mem_of_mem_rest hw hmem
      exact (h.pulls w hmem' call' ticket' hp').outlive (h.alone ho hw hp hgen.symm hmem hp')
        (Nat.le_of_eq (Replica.closePull_keeps _ _ _).2.2.symm) _ _
    · unfold Session.settled Refresher.settle
      rw [Replica.closePull_of_ok hd, hmerges]
      rfl
    · unfold Session.settled
      rw [hmerges]
      exact ⟨⟨later, ticket, seen, earlier, hlog, hans _ ha, hquiet, hseen.entries, hseen.watermark,
        hseen.firstLoad⟩, h.lawful⟩

theorem poll (h : Serial s) (ho : Orderly s) (i : Nat) : Serial (s.poll i) := by
  rcases hpick : Waiting.pick? (fun _ => true) i s.visits with _ | ⟨before, v, after⟩
  · rw [poll_of_none hpick]
    exact h
  · have hw := Waiting.eq_append_of_pick? hpick
    rcases hv : v.caller.stage with ⟨call, ticket, ⟨⟩⟩ | call
    · rcases ha : v.caller.answer with _ | a
      · rw [poll_of_open hpick hv ha]
        exact h
      · rw [poll_of_answered hpick hv ha]
        exact (h.settled ho hw hv ha).conclude rfl _ _ _ _
    · rcases hr : s.refresher.flights.resultFor s.refresher.key call with _ | result
      · rw [poll_of_waiting hpick hv hr]
        exact h
      · rw [poll_of_shared hpick hv hr]
        have hshared : Serial (s.shared before after) :=
          (h.remove hw).withReplica ⟨rfl, rfl, rfl, rfl, rfl, rfl⟩
        exact hshared.conclude rfl _ _ _ _

theorem clear (h : Serial s) : Serial s.clear := by
  refine ⟨?_, rfl, trivial, h.lawful⟩
  exact fun w hmem call ticket hp => (h.pulls w hmem call ticket hp).outdate rfl _

theorem act (h : Serial s) (ho : Orderly s) (action : Action R) : Serial (s.act action) := by
  cases action with
  | enter client => exact h.enter client
  | answer i a => exact h.answer i a
  | poll i => exact h.poll ho i
  | drop i => exact h.drop ho i
  | clear => exact h.clear
  | close => exact h.withReplica ⟨rfl, rfl, rfl, rfl, rfl, rfl⟩
  | tick now => exact ⟨h.pulls, h.entries, h.lawful⟩
  | aside tally feed => exact h.withReplica ⟨rfl, rfl, rfl, rfl, rfl, rfl⟩
  | elsewhere step => exact h.elsewhere ho step

theorem start (kind : CacheKind) (skew : Span) (buffer : Nat) (now : Instant) :
    Serial (start kind skew buffer now : Session R ι) where
  pulls v hv := by simp [Session.start] at hv
  entries := rfl
  lawful := trivial

/-- Every run of steps keeps the order of the calls and the pulls serial. -/
theorem run (ho : Orderly s) (h : Serial s) (actions : List (Action R)) :
    Orderly (s.run actions) ∧ Serial (s.run actions) := by
  induction actions generalizing s with
  | nil => exact ⟨ho, h⟩
  | cons action rest ih => exact ih (ho.act action) (h.act ho action)

end Serial

/-! ## The pulls of every session -/

/-- The pulls of a session are serial. -/
structure PullsSerially (s : Session R ι) : Prop where
  /-- Tickets are computed from the replica, and batches merged into the replica as it was then. -/
  lawful : Chronicle SerialLaw s.log
  /-- The entries are those that the merges and clears on record leave behind. -/
  accounted : s.refresher.replica.entries = held s.log
  /-- At most one open pull is of the current generation. -/
  single : (s.visits.filter (Visit.pullsIn s.refresher.replica.generation)).length ≤ 1
  /-- A pull is of the current generation if nothing was cleared since it was opened. -/
  current : ∀ v ∈ s.visits, ∀ call ticket, v.caller.stage = .pulling call ticket () →
    ∃ later seen earlier, s.log = later ++ .opened call ticket seen :: earlier ∧
      (ticket.generation = s.refresher.replica.generation ↔ .cleared ∉ later)

theorem Serial.single (h : Serial s) (ho : Orderly s) :
    (s.visits.filter (Visit.pullsIn s.refresher.replica.generation)).length ≤ 1 := by
  have hlead : ∀ v ∈ s.visits.filter (Visit.pullsIn s.refresher.replica.generation),
      v.lead? s.refresher.key = some (s.refresher.key, v.caller.call) ∧
        s.refresher.flights.current[s.refresher.key]? = some v.caller.call := by
    intro v hv
    obtain ⟨hv, hin⟩ := List.mem_filter.mp hv
    unfold Visit.pullsIn at hin
    split at hin
    · rename_i call ticket _ hp
      obtain ⟨_, _, _, _, _, _, hnow, _⟩ := h.pulls v hv call ticket hp
      rw [call_of_pulling hp]
      exact ⟨lead?_of_pulling hp, (hnow (beq_iff_eq.mp hin)).1⟩
    · cases hin
  -- their calls are distinct, and each is the registered one
  have hmap : (s.visits.filter (Visit.pullsIn s.refresher.replica.generation)).filterMap
        (Visit.lead? s.refresher.key) =
      (s.visits.filter (Visit.pullsIn s.refresher.replica.generation)).map
        fun v => (s.refresher.key, v.caller.call) := by
    rw [← List.filterMap_eq_map]
    exact List.filterMap_congr fun v hv => (hlead v hv).1
  have hsub : ((s.visits.filter (Visit.pullsIn s.refresher.replica.generation)).filterMap
      (Visit.lead? s.refresher.key)).Sublist (s.leads ++ s.strangers) :=
    (List.filter_sublist.filterMap _).trans (List.sublist_append_left _ _)
  have hnodup := ho.led.distinct.sublist (hsub.map Prod.snd)
  rw [hmap, List.map_map] at hnodup
  match hl : s.visits.filter (Visit.pullsIn s.refresher.replica.generation) with
  | [] | [_] => simp
  | v :: w :: rest =>
    rw [hl] at hlead hnodup
    have hv := (hlead v (by simp)).2
    have hw := (hlead w (by simp)).2
    rw [hv] at hw
    simp only [List.map_cons, List.nodup_cons, List.mem_cons, Function.comp] at hnodup
    exact absurd (Or.inl (Option.some.inj hw)) hnodup.1

variable [Index R ι]

/-- **Pulls are serial.** In every session a batch is merged only into the very entries, watermark
and first-load flag from which its ticket was computed, with no merge and no clear in between, and
at most one open pull is of the current generation. -/
theorem run_pullsSerially (kind : CacheKind) (skew : Span) (buffer : Nat) (now : Instant)
    (actions : List (Action R)) :
    PullsSerially ((start kind skew buffer now : Session R ι).run actions) := by
  have hstart : Serial (start kind skew buffer now : Session R ι) := .start kind skew buffer now
  obtain ⟨ho, h⟩ := Serial.run (.start kind skew buffer now) hstart actions
  refine ⟨h.lawful, h.entries, h.single ho, ?_⟩
  intro v hv call ticket hp
  obtain ⟨later, seen, earlier, hlog, -, -, hnow, hold⟩ := h.pulls v hv call ticket hp
  refine ⟨later, seen, earlier, hlog, ?_⟩
  constructor
  · intro hgen hmem
    exact (hnow hgen).2.2 _ hmem trivial
  · intro hnot
    by_contra hgen
    exact hnot (hold hgen)

/-- After a clear two pulls are in flight, one of each generation. -/
example : ((start .namespaces 0 1 .epoch : Session Namespace Exports).run
    [.enter ⟨"a", false, false⟩, .clear, .enter ⟨"b", false, false⟩]).visits.map
      (Visit.pullsIn 1) = [false, true] := by decide +kernel

end Session

end GovernanceCache.Desk
