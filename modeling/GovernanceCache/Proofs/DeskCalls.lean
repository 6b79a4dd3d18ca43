import GovernanceCache.Proofs.DeskSession

/-!
# The calls of a session

What holds of the flights in every session of a desk: the visits that pull and the leaders of other
keys are the leaders under way, and the call that the replica's key has registered is the latest one
that was opened.
-/

namespace GovernanceCache.Desk.Session

variable {R ι : Type} {s : Session R ι} {before after : List (Visit R)} {arrival call : Nat}
  {client asClient : Client} {ticket : Ticket}

/-! ## Calls on record -/

/-- The call was opened. -/
def Opened (log : List (Occurrence R ι)) (call : Nat) : Prop :=
  ∃ ticket seen, .opened call ticket seen ∈ log

variable {log : List (Occurrence R ι)} {e : Occurrence R ι} {n : Nat}

theorem opened_cons :
    Opened (e :: log) n ↔ (∃ ticket seen, e = .opened n ticket seen) ∨ Opened log n := by
  unfold Opened
  constructor
  · rintro ⟨ticket, seen, h⟩
    rcases List.mem_cons.mp h with h | h
    · exact Or.inl ⟨ticket, seen, h.symm⟩
    · exact Or.inr ⟨ticket, seen, h⟩
  · rintro (⟨ticket, seen, rfl⟩ | ⟨ticket, seen, h⟩)
    · exact ⟨ticket, seen, List.mem_cons_self⟩
    · exact ⟨ticket, seen, List.mem_cons_of_mem _ h⟩

theorem opened_cons_self {ticket : Ticket} {seen : Replica R ι} :
    Opened (.opened n ticket seen :: log) n := ⟨ticket, seen, List.mem_cons_self⟩

theorem Opened.cons (h : Opened log n) (e : Occurrence R ι) : Opened (e :: log) n :=
  opened_cons.mpr (Or.inr h)

theorem opened_cons_of_ne (he : ∀ call ticket seen, e ≠ .opened call ticket seen) :
    Opened (e :: log) n ↔ Opened log n := by
  rw [opened_cons]
  refine or_iff_right ?_
  rintro ⟨ticket, seen, rfl⟩
  exact he _ _ _ rfl

theorem opened_merges [Record R] {replica : Replica R ι} {answer : Answer R} :
    Opened (Occurrence.merges replica call ticket answer ++ log) n ↔ Opened log n := by
  unfold Occurrence.merges
  split
  · exact opened_cons_of_ne fun _ _ _ h => nomatch h
  · rfl

/-! ## The order of the calls -/

/-- The leaders that wait, each with its key and its call. -/
def leads (s : Session R ι) : List (String × Nat) :=
  s.visits.filterMap (Visit.lead? s.refresher.key)

/-- What holds of the flights in every session. -/
structure Orderly (s : Session R ι) : Prop where
  /-- The leaders under way are the visits that pull and the strangers. -/
  led : SingleFlight.Led s.refresher.flights (s.leads ++ s.strangers)
  apart : ∀ l ∈ s.strangers, l.1 ≠ s.refresher.key
  /-- Opened calls were given out, and never to a stranger. -/
  numbered : ∀ n, Opened s.log n → n < s.refresher.flights.next ∧ ∀ l ∈ s.strangers, l.2 ≠ n
  /-- The registered call of the replica's key is the latest one that was opened. -/
  latest : ∀ n, s.refresher.flights.current[s.refresher.key]? = some n →
    Opened s.log n ∧ ∀ m, Opened s.log m → m ≤ n
  called : ∀ v ∈ s.visits, Opened s.log v.caller.call

theorem lead?_of_pulling {v : Visit R} {key : String}
    (hv : v.caller.stage = .pulling call ticket ()) : v.lead? key = some (key, call) := by
  unfold Visit.lead?; rw [hv]

theorem lead?_of_following {v : Visit R} {key : String} (hv : v.caller.stage = .following call) :
    v.lead? key = none := by
  unfold Visit.lead?; rw [hv]

theorem call_of_pulling {c : Caller R} (h : c.stage = .pulling call ticket ()) : c.call = call := by
  unfold Caller.call; rw [h]

theorem call_of_following {c : Caller R} (h : c.stage = .following call) : c.call = call := by
  unfold Caller.call; rw [h]

namespace Orderly

variable {s' : Session R ι} {v : Visit R} {flights : SingleFlight Outcome}
  {strangers l₁ l₂ : List (String × Nat)} {p : Progress Outcome} {key : String}

theorem mem_leads (hv : v ∈ s.visits) (hp : v.caller.stage = .pulling call ticket ()) :
    (s.refresher.key, call) ∈ s.leads :=
  List.mem_filterMap.mpr ⟨v, hv, lead?_of_pulling hp⟩

theorem lead_of_current (h : Orderly s)
    (hk : s.refresher.flights.current[s.refresher.key]? = some call) :
    (s.refresher.key, call) ∈ s.leads := by
  rcases List.mem_append.mp (h.led.registered _ _ hk) with hl | hl
  · exact hl
  · exact absurd rfl (h.apart _ hl)

/-- No other visit leads the same call. -/
theorem call_ne (h : Orderly s) (hw : s.visits = before ++ v :: after)
    (hp : v.caller.stage = .pulling call ticket ()) {w : Visit R} (hmem : w ∈ before ++ after)
    {call' : Nat} {ticket' : Ticket} (hp' : w.caller.stage = .pulling call' ticket' ()) :
    call' ≠ call := by
  have hd := h.led.distinct
  unfold leads at hd
  rw [hw, List.filterMap_append, List.filterMap_cons_some (lead?_of_pulling hp), List.append_assoc,
    List.cons_append, List.map_append, List.map_cons, List.nodup_middle, List.nodup_cons,
    ← List.map_append, ← List.append_assoc, ← List.filterMap_append] at hd
  rintro rfl
  refine hd.1 (List.mem_map.mpr ⟨(s.refresher.key, call'), ?_, rfl⟩)
  exact List.mem_append_left _ (List.mem_filterMap.mpr ⟨w, hmem, lead?_of_pulling hp'⟩)

/-- Leaders and calls stay as they are. -/
theorem frame (h : Orderly s) (hf : s'.refresher.flights = s.refresher.flights)
    (hkey : s'.refresher.key = s.refresher.key) (hs : s'.strangers = s.strangers)
    (hl : s'.leads = s.leads) (ho : ∀ n, Opened s'.log n ↔ Opened s.log n)
    (hc : ∀ v ∈ s'.visits, Opened s.log v.caller.call) : Orderly s' := by
  refine ⟨?_, ?_, ?_, ?_, ?_⟩
  · rw [hf, hl, hs]
    exact h.led
  · rw [hs, hkey]
    exact h.apart
  · intro n hn
    rw [hf, hs]
    exact h.numbered n ((ho n).mp hn)
  · intro n hn
    rw [hf, hkey] at hn
    obtain ⟨h₁, h₂⟩ := h.latest n hn
    exact ⟨(ho n).mpr h₁, fun m hm => h₂ m ((ho m).mp hm)⟩
  · exact fun v hv => (ho _).mpr (hc v hv)

theorem leave (h : Orderly s) (hw : s.visits = before ++ v :: after)
    (hp : v.caller.stage = .pulling call ticket ())
    (hf : s'.refresher.flights = s.refresher.flights.close s.refresher.key call p)
    (hkey : s'.refresher.key = s.refresher.key) (hs : s'.strangers = s.strangers)
    (hv : s'.visits = before ++ after) (ho : ∀ n, Opened s'.log n ↔ Opened s.log n) :
    Orderly s' := by
  have hled := h.led
  unfold leads at hled
  rw [hw, List.filterMap_append, List.filterMap_cons_some (lead?_of_pulling hp), List.append_assoc,
    List.cons_append] at hled
  refine ⟨?_, ?_, ?_, ?_, ?_⟩
  · unfold leads
    rw [hf, hkey, hs, hv, List.filterMap_append, List.append_assoc]
    exact hled.close p
  · rw [hs, hkey]
    exact h.apart
  · intro n hn
    rw [hf, hs, SingleFlight.close_next]
    exact h.numbered n ((ho n).mp hn)
  · intro n hn
    rw [hf, hkey, SingleFlight.close_current_eq_some] at hn
    obtain ⟨h₁, h₂⟩ := h.latest n hn.1
    exact ⟨(ho n).mpr h₁, fun m hm => h₂ m ((ho m).mp hm)⟩
  · intro w hmem
    rw [hv] at hmem
    refine (ho _).mpr (h.called w ?_)
    exact Waiting.mem_of_mem_rest hw hmem

theorem lead (h : Orderly s) (hw : s.visits = before ++ after)
    {replica : Replica R ι} (hkind : replica.kind = s.refresher.replica.kind) (arrival : Nat)
    (client asClient : Client) (ticket : Ticket) :
    Orderly
      { s with
        refresher := ⟨s.refresher.flights.lead s.refresher.key, replica⟩
        visits := before ++ ⟨arrival, client, ⟨asClient,
          .pulling s.refresher.flights.next ticket (), none⟩⟩ :: after
        log := .opened s.refresher.flights.next ticket replica :: s.log } := by
  have hkey : (⟨s.refresher.flights.lead s.refresher.key, replica⟩ : Refresher R ι).key =
      s.refresher.key := congrArg CacheKind.name hkind
  have hold : ∀ n, Opened s.log n → n < s.refresher.flights.next := fun n hn => (h.numbered n hn).1
  have hsplit : ∀ n, Opened (.opened s.refresher.flights.next ticket replica :: s.log) n →
      n = s.refresher.flights.next ∨ Opened s.log n := by
    intro n hn
    rcases opened_cons.mp hn with ⟨_, _, heq⟩ | hn
    · cases heq; exact Or.inl rfl
    · exact Or.inr hn
  refine ⟨?_, ?_, ?_, ?_, ?_⟩
  · unfold leads
    simp only [hkey]
    rw [List.filterMap_append, List.filterMap_cons_some (lead?_of_pulling rfl), List.append_assoc,
      List.cons_append]
    refine (h.led.lead s.refresher.key).perm ?_
    unfold leads
    rw [hw, List.filterMap_append, List.append_assoc]
    exact List.perm_middle.symm
  · simp only [hkey]
    exact h.apart
  · intro n hn
    simp only [SingleFlight.lead_next]
    rcases hsplit n hn with rfl | hn
    · refine ⟨by omega, ?_⟩
      intro l hl
      have := h.led.call_lt (List.mem_append_right _ hl)
      omega
    · obtain ⟨h₁, h₂⟩ := h.numbered n hn
      exact ⟨by omega, h₂⟩
  · intro n hn
    simp only [hkey, SingleFlight.lead_current, if_pos, Option.some.injEq] at hn
    subst hn
    refine ⟨opened_cons_self, ?_⟩
    intro m hm
    rcases hsplit m hm with rfl | hm
    · exact Nat.le_refl _
    · exact Nat.le_of_lt (hold m hm)
  · intro w hmem
    rcases Waiting.eq_or_mem_rest hmem with rfl | hmem
    · exact opened_cons_self
    · exact (h.called w (by rw [hw]; exact hmem)).cons _

/-- A call is led and ended by nobody. -/
theorem refuse (h : Orderly s) (hw : s.visits = before ++ after) (p : Progress Outcome)
    (he : ∀ call ticket seen, e ≠ .opened call ticket seen) :
    Orderly
      { s with
        refresher :=
          { s.refresher with
            flights := (s.refresher.flights.lead s.refresher.key).close s.refresher.key
              s.refresher.flights.next p }
        visits := before ++ after
        log := e :: s.log } := by
  have hled : SingleFlight.Led ((s.refresher.flights.lead s.refresher.key).close s.refresher.key
      s.refresher.flights.next p) ([] ++ (s.leads ++ s.strangers)) :=
    (h.led.lead s.refresher.key).close p
  refine ⟨?_, h.apart, ?_, ?_, ?_⟩
  · unfold leads at hled ⊢
    rw [hw] at hled
    exact hled
  · intro n hn
    simp only [SingleFlight.close_next, SingleFlight.lead_next]
    obtain ⟨h₁, h₂⟩ := h.numbered n ((opened_cons_of_ne he).mp hn)
    exact ⟨by omega, h₂⟩
  · intro n hn
    have hn : ((s.refresher.flights.lead s.refresher.key).close s.refresher.key
        s.refresher.flights.next p).current[s.refresher.key]? = some n := hn
    rw [SingleFlight.close_current_eq_some, SingleFlight.lead_current, if_pos rfl] at hn
    exact absurd ⟨rfl, (Option.some.inj hn.1).symm⟩ hn.2
  · intro w hmem
    exact (h.called w (by rw [hw]; exact hmem)).cons _

/-! ### Other keys -/

theorem stranger_lead (h : Orderly s) (hk : key ≠ s.refresher.key) :
    Orderly (s.withOthers (s.refresher.flights.lead key)
      ((key, s.refresher.flights.next) :: s.strangers)) := by
  refine ⟨?_, ?_, ?_, ?_, h.called⟩
  · exact (h.led.lead key).perm List.perm_middle.symm
  · intro l hl
    rcases List.mem_cons.mp hl with rfl | hl
    · exact hk
    · exact h.apart l hl
  · intro n hn
    obtain ⟨h₁, h₂⟩ := h.numbered n hn
    refine ⟨Nat.lt_succ_of_lt h₁, ?_⟩
    intro l hl
    rcases List.mem_cons.mp hl with rfl | hl
    · exact Nat.ne_of_gt h₁
    · exact h₂ l hl
  · intro n hn
    have hn : (s.refresher.flights.lead key).current[s.refresher.key]? = some n := hn
    rw [SingleFlight.lead_current, if_neg hk] at hn
    exact h.latest n hn

theorem stranger_leave (h : Orderly s) (hs : s.strangers = l₁ ++ (key, call) :: l₂)
    (p : Progress Outcome) :
    Orderly (s.withOthers (s.refresher.flights.close key call p) (l₁ ++ l₂)) := by
  have hsub : ∀ l ∈ l₁ ++ l₂, l ∈ s.strangers := by
    intro l hl
    exact Waiting.mem_of_mem_rest hs hl
  refine ⟨?_, ?_, ?_, ?_, h.called⟩
  · have hled := h.led
    rw [hs, ← List.append_assoc] at hled
    have := hled.close p
    rw [List.append_assoc] at this
    exact this
  · exact fun l hl => h.apart l (hsub l hl)
  · intro n hn
    obtain ⟨h₁, h₂⟩ := h.numbered n hn
    refine ⟨?_, fun l hl => h₂ l (hsub l hl)⟩
    show n < (s.refresher.flights.close key call p).next
    rw [SingleFlight.close_next]
    exact h₁
  · intro n hn
    exact h.latest n (SingleFlight.close_current_eq_some.mp hn).1

theorem forget (h : Orderly s) (hf : s'.refresher.flights = s.refresher.flights.forget key)
    (hkey : s'.refresher.key = s.refresher.key) (hs : s'.strangers = s.strangers)
    (hv : s'.visits = s.visits) (ho : ∀ n, Opened s'.log n ↔ Opened s.log n) : Orderly s' := by
  refine ⟨?_, ?_, ?_, ?_, ?_⟩
  · unfold leads
    rw [hf, hv, hkey, hs]
    exact h.led.forget key
  · rw [hs, hkey]
    exact h.apart
  · intro n hn
    rw [hf, hs]
    exact h.numbered n ((ho n).mp hn)
  · intro n hn
    rw [hf, hkey, SingleFlight.forget_current_eq_some] at hn
    obtain ⟨h₁, h₂⟩ := h.latest n hn.1
    exact ⟨(ho n).mpr h₁, fun m hm => h₂ m ((ho m).mp hm)⟩
  · rw [hv]
    exact fun w hw => (ho _).mpr (h.called w hw)

/-! ### Every step -/

theorem begin (h : Orderly s) (hw : s.visits = before ++ after) (arrival : Nat)
    (client asClient : Client) :
    Orderly (s.resume before after arrival client (begin s.now s.refresher asClient none)) := by
  rcases hk : s.refresher.flights.current[s.refresher.key]? with _ | call
  · rcases ho : s.refresher.replica.openPull s.now with _ | ⟨replica, ticket⟩
    · rw [resume_begin_refused hk ho]
      exact h.refuse hw _ fun _ _ _ heq => nomatch heq
    · rw [resume_begin_lead hk ho]
      exact h.lead hw (Replica.openPull_eq_some ho).1.kind arrival client asClient ticket
  · rw [resume_begin_follow hk]
    refine h.frame rfl rfl rfl ?_ (fun _ => Iff.rfl) ?_
    · unfold leads
      rw [hw, List.filterMap_append, List.filterMap_append,
        List.filterMap_cons_none (lead?_of_following rfl)]
    · intro w hmem
      rcases Waiting.eq_or_mem_rest hmem with rfl | hmem
      · exact (h.latest call hk).1
      · exact h.called w (by rw [hw]; exact hmem)

theorem conclude (h : Orderly s) (hw : s.visits = before ++ after) (arrival : Nat)
    (client asClient : Client) (refreshed : Refreshed) :
    Orderly (s.resume before after arrival client
      (conclude s.now s.refresher asClient refreshed)) := by
  rcases hagain : asClient.thorough && refreshed.needsAgain with _ | _
  · rw [resume_conclude_ended hagain]
    refine h.frame rfl rfl rfl ?_ (fun n => opened_cons_of_ne fun _ _ _ heq => nomatch heq) ?_
    · unfold leads; rw [hw]
    · rw [← hw]; exact h.called
  · rw [resume_conclude_again hagain]
    exact h.begin hw arrival client _

theorem remove (h : Orderly s) (hw : s.visits = before ++ v :: after)
    (hv : v.caller.stage = .following call) : Orderly { s with visits := before ++ after } := by
  refine h.frame rfl rfl rfl ?_ (fun _ => Iff.rfl) ?_
  · unfold leads
    rw [hw, List.filterMap_append, List.filterMap_append,
      List.filterMap_cons_none (lead?_of_following hv)]
  · intro w hmem
    refine h.called w ?_
    exact Waiting.mem_of_mem_rest hw hmem

theorem withReplica (h : Orderly s) {replica : Replica R ι}
    (hkind : replica.kind = s.refresher.replica.kind) : Orderly (s.withReplica replica) := by
  have hkey : (s.withReplica replica).refresher.key = s.refresher.key :=
    congrArg CacheKind.name hkind
  refine h.frame rfl hkey rfl ?_ (fun _ => Iff.rfl) h.called
  unfold leads
  rw [hkey]
  rfl

/-- Those of other keys change neither the registered call of the replica's key nor the progress of
the calls that were opened. -/
theorem elsewhere_eq (h : Orderly s) (step : Elsewhere) :
    ∃ flights strangers, s.elsewhere step = s.withOthers flights strangers ∧
      flights.current[s.refresher.key]? = s.refresher.flights.current[s.refresher.key]? ∧
      ∀ n, Opened s.log n → flights.progress[n]? = s.refresher.flights.progress[n]? := by
  have hsame : ∃ flights strangers, s = s.withOthers flights strangers ∧
      flights.current[s.refresher.key]? = s.refresher.flights.current[s.refresher.key]? ∧
      ∀ n, Opened s.log n → flights.progress[n]? = s.refresher.flights.progress[n]? :=
    ⟨s.refresher.flights, s.strangers, rfl, rfl, fun _ _ => rfl⟩
  have hclose : ∀ {i l₁ key call l₂},
      Waiting.pick? (fun _ => true) i s.strangers = some (l₁, (key, call), l₂) →
      ∀ p, (s.refresher.flights.close key call p).current[s.refresher.key]? =
          s.refresher.flights.current[s.refresher.key]? ∧
        ∀ n, Opened s.log n →
          (s.refresher.flights.close key call p).progress[n]? =
            s.refresher.flights.progress[n]? := by
    intro i l₁ key call l₂ hpick p
    have hmem : (key, call) ∈ s.strangers := by
      rw [Waiting.eq_append_of_pick? hpick]; simp
    constructor
    · ext n
      rw [SingleFlight.close_current_eq_some]
      exact and_iff_left fun heq => h.apart _ hmem heq.1.symm
    · intro n hn
      rw [SingleFlight.close_progress, if_neg ((h.numbered n hn).2 _ hmem)]
  unfold Session.elsewhere
  cases step with
  | enter key =>
    simp only
    split
    · exact hsame
    · rename_i hk
      rcases hc : s.refresher.flights.current[key]? with _ | call
      · rw [SingleFlight.enter_of_free hc]
        refine ⟨_, _, rfl, ?_, ?_⟩
        · rw [SingleFlight.lead_current, if_neg hk]
        · intro n hn
          have := (h.numbered n hn).1
          rw [SingleFlight.lead_progress, if_neg (by omega)]
      · rw [SingleFlight.enter_of_registered hc]
        exact ⟨_, _, rfl, rfl, fun _ _ => rfl⟩
  | finish i result =>
    simp only
    split
    · rename_i hpick
      exact ⟨_, _, rfl, hclose hpick _⟩
    · exact hsame
  | abandon i =>
    simp only
    split
    · rename_i hpick
      exact ⟨_, _, rfl, hclose hpick _⟩
    · exact hsame
  | forget key =>
    simp only
    split
    · exact hsame
    · rename_i hk
      refine ⟨_, _, rfl, ?_, fun _ _ => rfl⟩
      ext n
      rw [SingleFlight.forget_current_eq_some]
      exact and_iff_left (Ne.symm hk)

theorem elsewhere (h : Orderly s) (step : Elsewhere) : Orderly (s.elsewhere step) := by
  unfold Session.elsewhere
  cases step with
  | enter key =>
    simp only
    split
    · exact h
    · rename_i hk
      rcases hc : s.refresher.flights.current[key]? with _ | call
      · rw [SingleFlight.enter_of_free hc]
        exact h.stranger_lead hk
      · rw [SingleFlight.enter_of_registered hc]
        exact h.frame rfl rfl rfl rfl (fun _ => Iff.rfl) h.called
  | finish i result =>
    simp only
    split
    · rename_i hpick
      exact h.stranger_leave (Waiting.eq_append_of_pick? hpick) _
    · exact h
  | abandon i =>
    simp only
    split
    · rename_i hpick
      exact h.stranger_leave (Waiting.eq_append_of_pick? hpick) _
    · exact h
  | forget key =>
    simp only
    split
    · exact h
    · exact h.forget rfl rfl rfl rfl fun _ => Iff.rfl

theorem shared (h : Orderly s) (hw : s.visits = before ++ v :: after)
    (hv : v.caller.stage = .following call) : Orderly (s.shared before after) :=
  (h.remove hw hv).withReplica rfl

theorem enter (h : Orderly s) (client : Client) : Orderly (s.enter client) := by
  refine begin (s := { s with log := .entered client :: s.log }) ?_ (List.append_nil _).symm _ _ _
  exact h.frame rfl rfl rfl rfl (fun n => opened_cons_of_ne fun _ _ _ heq => nomatch heq) h.called

theorem answer (h : Orderly s) (i : Nat) (a : Answer R) : Orderly (s.answer i a) := by
  unfold Session.answer
  split
  · rename_i before v after hpick
    have hw := Waiting.eq_append_of_pick? hpick
    refine h.frame rfl rfl rfl ?_ (fun n => opened_cons_of_ne fun _ _ _ heq => nomatch heq) ?_
    · unfold leads
      rw [hw, List.filterMap_append, List.filterMap_append, List.filterMap_cons,
        List.filterMap_cons]
      rfl
    · intro w hmem
      rcases Waiting.eq_or_mem_rest hmem with rfl | hmem
      · exact h.called v (Waiting.mem_of_split hw)
      · exact h.called w (Waiting.mem_of_mem_rest hw hmem)
  · exact h

theorem drop (h : Orderly s) (i : Nat) : Orderly (s.drop i) := by
  unfold Session.drop
  split
  · rename_i before v after hpick
    have hw := Waiting.eq_append_of_pick? hpick
    unfold release
    split
    · rename_i call ticket _ hv
      exact h.leave hw hv (p := .abandoned) rfl rfl rfl rfl fun _ => Iff.rfl
    · rename_i call hv
      exact h.remove hw hv
  · exact h

variable [Index R ι]

theorem start (kind : CacheKind) (skew : Span) (buffer : Nat) (now : Instant) :
    Orderly (start kind skew buffer now : Session R ι) where
  led := SingleFlight.Led.empty
  apart l hl := by simp [Session.start] at hl
  numbered n hn := by simp [Session.start, Opened] at hn
  latest n hn := by simp [Session.start] at hn
  called v hv := by simp [Session.start] at hv

theorem clear (h : Orderly s) : Orderly s.clear :=
  h.forget rfl rfl rfl rfl fun _ => opened_cons_of_ne fun _ _ _ heq => nomatch heq

variable [Record R]

theorem settled (h : Orderly s) (hw : s.visits = before ++ v :: after)
    (hp : v.caller.stage = .pulling call ticket ()) (answer : Answer R) :
    Orderly (s.settled before after call ticket answer) :=
  h.leave hw hp (p := .finished (s.outcome ticket answer)) rfl
    (congrArg CacheKind.name (Replica.closePull_keeps _ _ _).1) rfl rfl fun _ => opened_merges

theorem poll (h : Orderly s) (i : Nat) : Orderly (s.poll i) := by
  rcases hpick : Waiting.pick? (fun _ => true) i s.visits with _ | ⟨before, v, after⟩
  · rw [poll_of_none hpick]
    exact h
  · have hw := Waiting.eq_append_of_pick? hpick
    rcases hv : v.caller.stage with ⟨call, ticket, ⟨⟩⟩ | call
    · rcases ha : v.caller.answer with _ | a
      · rw [poll_of_open hpick hv ha]
        exact h
      · rw [poll_of_answered hpick hv ha]
        exact (h.settled hw hv a).conclude rfl _ _ _ _
    · rcases hr : s.refresher.flights.resultFor s.refresher.key call with _ | result
      · rw [poll_of_waiting hpick hv hr]
        exact h
      · rw [poll_of_shared hpick hv hr]
        exact (h.shared hw hv).conclude rfl _ _ _ _

theorem act (h : Orderly s) (action : Action R) : Orderly (s.act action) := by
  cases action with
  | enter client => exact h.enter client
  | answer i a => exact h.answer i a
  | poll i => exact h.poll i
  | drop i => exact h.drop i
  | clear => exact h.clear
  | close => exact h.withReplica rfl
  | tick now => exact h.frame rfl rfl rfl rfl (fun _ => Iff.rfl) h.called
  | aside tally feed => exact h.withReplica rfl
  | elsewhere step => exact h.elsewhere step

end Orderly

end GovernanceCache.Desk.Session
