import GovernanceCache.Proofs.SerialPulls

/-!
# A thorough refresh reads what was written before it

A thorough caller that ends well was served by a pull that began after it had come, whether its
refreshes led or followed.

1. While a caller waits for a call, every later call is opened after it has come: the call that it
   joined was the latest one (`Visit.Timely.newer`).
2. A second refresh joins no call but a later one, since the first one is over, and the call that
   the key has registered is the latest that was opened.
3. A leader ends well only if it merged the batch of its own pull, and a follower only if its leader
   did (`Fresh.delivered`).
-/

namespace GovernanceCache.Desk

variable {R ι : Type}

/-- The caller had come at its arrival. -/
def Entered (log : List (Occurrence R ι)) (client : Client) (arrival : Nat) : Prop :=
  ∃ between before, log = between ++ .entered client :: before ∧ before.length = arrival

/-- Wherever the call was opened, the caller had come. -/
def OpenedSince (log : List (Occurrence R ι)) (client : Client) (arrival call : Nat) : Prop :=
  ∀ later ticket seen old, log = later ++ .opened call ticket seen :: old →
    Entered old client arrival

/-- The call was opened and answered, and its batch was merged. -/
def Delivered (log : List (Occurrence R ι)) (call : Nat) : Prop :=
  ∃ recent batch into mid ticket seen old,
    log = recent ++ .merged call batch into :: mid ++ .opened call ticket seen :: old ∧
      .answered call (.ok batch) ∈ mid

/-- A pull that began after the caller had come was answered with a batch, which was merged. -/
def Served (log : List (Occurrence R ι)) (client : Client) (arrival : Nat) : Prop :=
  ∃ recent call batch into mid ticket seen between before,
    log = recent ++ .merged call batch into :: mid ++ .opened call ticket seen :: between ++
      .entered client :: before ∧
    .answered call (.ok batch) ∈ mid ∧ before.length = arrival

/-- What may happen after the earlier occurrences: a thorough caller that ends well was served. -/
def FreshLaw (earlier : List (Occurrence R ι)) : Occurrence R ι → Prop
  | .ended arrival client refreshed =>
    client.thorough = true → refreshed.result = .ok () → Served earlier client arrival
  | _ => True

variable {log : List (Occurrence R ι)} {client : Client} {arrival call : Nat} {v : Visit R}

theorem Entered.append (h : Entered log client arrival) (told : List (Occurrence R ι)) :
    Entered (told ++ log) client arrival := by
  obtain ⟨between, before, rfl, hlen⟩ := h
  exact ⟨told ++ between, before, by rw [List.append_assoc], hlen⟩

theorem Delivered.append (h : Delivered log call) (told : List (Occurrence R ι)) :
    Delivered (told ++ log) call := by
  obtain ⟨recent, batch, into, mid, ticket, seen, old, rfl, hans⟩ := h
  exact ⟨told ++ recent, batch, into, mid, ticket, seen, old, by simp, hans⟩

/-- What happens now happens after the caller has come. -/
theorem OpenedSince.append (h : OpenedSince log client arrival call)
    (hin : Entered log client arrival) (told : List (Occurrence R ι)) :
    OpenedSince (told ++ log) client arrival call := by
  induction told with
  | nil => exact h
  | cons e told ih =>
    intro later ticket seen old heq
    cases later with
    | nil =>
      obtain ⟨-, rfl⟩ := List.cons.inj heq
      exact hin.append told
    | cons x later => exact ih later ticket seen old (List.cons.inj heq).2

theorem OpenedSince.of_not_opened (h : ¬ Session.Opened log call) :
    OpenedSince log client arrival call := by
  rintro later ticket seen old rfl
  exact absurd ⟨ticket, seen, by simp⟩ h

theorem Delivered.served (h : Delivered log call) (ho : OpenedSince log client arrival call) :
    Served log client arrival := by
  obtain ⟨recent, batch, into, mid, ticket, seen, old, hlog, hans⟩ := h
  obtain ⟨between, before, rfl, hlen⟩ := ho _ ticket seen old hlog
  refine ⟨recent, call, batch, into, mid, ticket, seen, between, before, ?_, hans, hlen⟩
  rw [hlog]
  simp

/-- The calls that a thorough visit may still profit from were opened after it had come: every later
one, its own pull, and the call that it waits for in its second refresh. -/
structure Visit.Timely (log : List (Occurrence R ι)) (v : Visit R) : Prop where
  newer : ∀ n, v.caller.call < n → OpenedSince log v.client v.arrival n
  own : ∀ call ticket, v.caller.stage = .pulling call ticket () →
    OpenedSince log v.client v.arrival call
  last : v.caller.client.thorough = false → OpenedSince log v.client v.arrival v.caller.call

theorem Visit.Timely.append (h : v.Timely log) (hin : Entered log v.client v.arrival)
    (told : List (Occurrence R ι)) : v.Timely (told ++ log) where
  newer n hn := (h.newer n hn).append hin told
  own call ticket hp := (h.own call ticket hp).append hin told
  last hl := (h.last hl).append hin told

namespace Session

variable {s s' : Session R ι} {before after : List (Visit R)} {asClient : Client} {ticket : Ticket}
  {result : Outcome} {n : Nat}

/-- What holds of every session, so that a thorough caller reads what was written before it. -/
structure Fresh (s : Session R ι) : Prop where
  /-- A call that ended well merged its batch. -/
  delivered : ∀ n, Opened s.log n →
    s.refresher.flights.progress[n]? = some (.finished (.ok ())) → Delivered s.log n
  entered : ∀ v ∈ s.visits, Entered s.log v.client v.arrival
  timely : ∀ v ∈ s.visits, v.client.thorough = true → v.Timely s.log
  lawful : Chronicle FreshLaw s.log

theorem finished_of_resultFor_ok {flights : SingleFlight Outcome} {key : String}
    (h : flights.resultFor key call = some (.ok ())) :
    flights.progress[call]? = some (.finished (.ok ())) := by
  unfold SingleFlight.resultFor SingleFlight.progressOf at h
  rcases hp : flights.progress[call]? with _ | p
  · rw [hp] at h
    cases h
  · rw [hp] at h
    cases p with
    | running => cases h
    | finished result =>
      cases h
      rfl
    | abandoned => cases h

theorem no_result_of_running {flights : SingleFlight Outcome} {key : String}
    (h : flights.progress[call]? = some .running) : flights.resultFor key call = none := by
  unfold SingleFlight.resultFor SingleFlight.progressOf
  rw [h]
  rfl

namespace Fresh

/-- Calls that are opened and end well did so before, what is told obeys the law, and visits came
and wait as before. -/
theorem frame (h : Fresh s) (told : List (Occurrence R ι)) (hl : s'.log = told ++ s.log)
    (ho : ∀ n, Opened s'.log n → Opened s.log n)
    (hp : ∀ n, Opened s.log n →
      s'.refresher.flights.progress[n]? = some (.finished (.ok ())) →
      s.refresher.flights.progress[n]? = some (.finished (.ok ())))
    (hlaw : Chronicle FreshLaw s'.log)
    (hv : ∀ w ∈ s'.visits, ∃ v ∈ s.visits, v.client = w.client ∧ v.arrival = w.arrival ∧
      v.caller.client = w.caller.client ∧ v.caller.stage = w.caller.stage) : Fresh s' := by
  refine ⟨?_, ?_, ?_, hlaw⟩
  · intro n hn hf
    rw [hl]
    exact (h.delivered n (ho n hn) (hp n (ho n hn) hf)).append told
  · intro w hw
    obtain ⟨v, hmem, hclient, harrival, -, -⟩ := hv w hw
    rw [← hclient, ← harrival, hl]
    exact (h.entered v hmem).append told
  · intro w hw hthorough
    obtain ⟨v, hmem, hclient, harrival, has, hstage⟩ := hv w hw
    rw [← hclient] at hthorough
    have ht := (h.timely v hmem hthorough).append (h.entered v hmem) told
    have hcall : v.caller.call = w.caller.call := by unfold Caller.call; rw [hstage]
    rw [← hl] at ht
    refine ⟨?_, ?_, ?_⟩
    · rw [← hclient, ← harrival, ← hcall]
      exact ht.newer
    · rw [← hclient, ← harrival, ← hstage]
      exact ht.own
    · rw [← hclient, ← harrival, ← hcall, ← has]
      exact ht.last

theorem frame_subset (h : Fresh s) (told : List (Occurrence R ι)) (hl : s'.log = told ++ s.log)
    (ho : ∀ n, Opened s'.log n → Opened s.log n)
    (hp : ∀ n, Opened s.log n →
      s'.refresher.flights.progress[n]? = some (.finished (.ok ())) →
      s.refresher.flights.progress[n]? = some (.finished (.ok ())))
    (hlaw : Chronicle FreshLaw s'.log) (hv : ∀ w ∈ s'.visits, w ∈ s.visits) : Fresh s' :=
  h.frame told hl ho hp hlaw fun w hw => ⟨w, hv w hw, rfl, rfl, rfl, rfl⟩

/-- A refresh joins the registered call, which is the latest one. -/
theorem follow (h : Fresh s) (ho : Orderly s) (hw : s.visits = before ++ after)
    (hk : s.refresher.flights.current[s.refresher.key]? = some call)
    (hin : Entered s.log client arrival)
    (hlast : client.thorough = true → asClient.thorough = false →
      OpenedSince s.log client arrival call) :
    Fresh
      { s with
        visits := before ++ ⟨arrival, client, ⟨asClient, .following call, none⟩⟩ :: after } := by
  refine ⟨h.delivered, ?_, ?_, h.lawful⟩
  · intro w hw'
    rcases Waiting.eq_or_mem_rest hw' with rfl | hw'
    · exact hin
    · exact h.entered w (by rw [hw]; exact hw')
  · intro w hw' hthorough
    rcases Waiting.eq_or_mem_rest hw' with rfl | hw'
    · refine ⟨?_, fun _ _ hp => (nomatch hp), hlast hthorough⟩
      intro n hn
      refine .of_not_opened fun hopened => ?_
      have := (ho.latest call hk).2 n hopened
      have : call < n := hn
      omega
    · exact h.timely w (by rw [hw]; exact hw') hthorough

theorem lead (h : Fresh s) (ho : Orderly s) (hw : s.visits = before ++ after)
    (replica : Replica R ι) (ticket : Ticket) (hin : Entered s.log client arrival) :
    Fresh
      { s with
        refresher := ⟨s.refresher.flights.lead s.refresher.key, replica⟩
        visits := before ++ ⟨arrival, client, ⟨asClient,
          .pulling s.refresher.flights.next ticket (), none⟩⟩ :: after
        log := .opened s.refresher.flights.next ticket replica :: s.log } := by
  -- neither the new call nor a later one was opened before
  have hnew : ∀ n, s.refresher.flights.next ≤ n →
      OpenedSince (.opened s.refresher.flights.next ticket replica :: s.log) client arrival n := by
    intro n hn
    refine OpenedSince.append (.of_not_opened fun hopened => ?_) hin [_]
    have := (ho.numbered n hopened).1
    omega
  refine ⟨?_, ?_, ?_, trivial, h.lawful⟩
  · intro n hn hf
    have hf : (s.refresher.flights.lead s.refresher.key).progress[n]? =
        some (.finished (.ok ())) := hf
    rw [SingleFlight.lead_progress] at hf
    split at hf
    · cases hf
    · rename_i hne
      rcases opened_cons.mp hn with ⟨_, _, heq⟩ | hn
      · cases heq
        exact absurd rfl hne
      · exact (h.delivered n hn hf).append [_]
  · intro w hw'
    rcases Waiting.eq_or_mem_rest hw' with rfl | hw'
    · exact hin.append [_]
    · exact (h.entered w (by rw [hw]; exact hw')).append [_]
  · intro w hw' hthorough
    rcases Waiting.eq_or_mem_rest hw' with rfl | hw'
    · refine ⟨?_, ?_, fun _ => hnew _ (Nat.le_refl _)⟩
      · exact fun n hn => hnew n (Nat.le_of_lt hn)
      · intro call ticket' hp
        cases hp
        exact hnew _ (Nat.le_refl _)
    · rw [← hw] at hw'
      exact (h.timely w hw' hthorough).append (h.entered w hw') [_]

theorem leave (h : Fresh s) (hw : s.visits = before ++ v :: after) :
    Fresh
      { s with
        refresher := s.refresher.abandon call
        visits := before ++ after } := by
  refine h.frame_subset [] rfl (fun _ => id) ?_ h.lawful ?_
  · intro n hn hf
    have hf : (s.refresher.flights.close s.refresher.key call .abandoned).progress[n]? =
        some (.finished (.ok ())) := hf
    rw [SingleFlight.close_progress] at hf
    split at hf
    · cases hf
    · exact hf
  · intro w hmem
    exact Waiting.mem_of_mem_rest hw hmem

theorem withReplica (h : Fresh s) (replica : Replica R ι) : Fresh (s.withReplica replica) :=
  h.frame_subset [] rfl (fun _ => id) (fun _ _ => id) h.lawful fun _ => id

theorem remove (h : Fresh s) (hw : s.visits = before ++ v :: after) :
    Fresh { s with visits := before ++ after } := by
  refine h.frame_subset [] rfl (fun _ => id) (fun _ _ => id) h.lawful fun w hmem => ?_
  exact Waiting.mem_of_mem_rest hw hmem

/-! ### Every step -/

/-- A refresh begins. If it is the second one, the call that it may join is new enough. -/
theorem begin (h : Fresh s) (ho : Orderly s) (hw : s.visits = before ++ after)
    (hin : Entered s.log client arrival)
    (hlast : client.thorough = true → asClient.thorough = false →
      ∀ n, s.refresher.flights.current[s.refresher.key]? = some n →
        OpenedSince s.log client arrival n) :
    Fresh (s.resume before after arrival client (begin s.now s.refresher asClient none)) := by
  rcases hk : s.refresher.flights.current[s.refresher.key]? with _ | call
  · rcases hopen : s.refresher.replica.openPull s.now with _ | ⟨replica, ticket⟩
    · rw [resume_begin_refused hk hopen]
      refine h.frame_subset [_] rfl ?_ ?_ ⟨fun _ heq => (nomatch heq), h.lawful⟩ ?_
      · exact fun n hn => (opened_cons_of_ne (by intro _ _ _ heq; cases heq)).mp hn
      · intro n hn hf
        have hf : ((s.refresher.flights.lead s.refresher.key).close s.refresher.key
            s.refresher.flights.next (.finished (.error (.closed s.refresher.key)))).progress[n]? =
              some (.finished (.ok ())) := hf
        have := (ho.numbered n hn).1
        rw [SingleFlight.close_progress, if_neg (by omega), SingleFlight.lead_progress,
          if_neg (by omega)] at hf
        exact hf
      · exact fun w hmem => by rw [hw]; exact hmem
    · rw [resume_begin_lead hk hopen]
      exact h.lead ho hw replica ticket hin
  · rw [resume_begin_follow hk]
    exact h.follow ho hw hk hin fun hthorough hsecond => hlast hthorough hsecond call hk

/-- The refresh of a caller ended: it was served, or the call that it may join is new enough. -/
theorem conclude (h : Fresh s) (ho : Orderly s) (hw : s.visits = before ++ after)
    (hin : Entered s.log client arrival) {refreshed : Refreshed}
    (hserved : client.thorough = true → (asClient.thorough && refreshed.needsAgain) = false →
      refreshed.result = .ok () → Served s.log client arrival)
    (hlast : client.thorough = true → ∀ n,
      s.refresher.flights.current[s.refresher.key]? = some n →
        OpenedSince s.log client arrival n) :
    Fresh (s.resume before after arrival client
      (conclude s.now s.refresher asClient refreshed)) := by
  rcases hagain : asClient.thorough && refreshed.needsAgain with _ | _
  · rw [resume_conclude_ended hagain]
    refine h.frame_subset [_] rfl ?_ (fun _ _ => id) ⟨?_, h.lawful⟩ ?_
    · exact fun n hn => (opened_cons_of_ne (by intro _ _ _ heq; cases heq)).mp hn
    · exact fun hthorough hok => hserved hthorough hagain hok
    · exact fun w hmem => by rw [hw]; exact hmem
  · rw [resume_conclude_again hagain]
    exact h.begin ho hw hin fun hthorough _ => hlast hthorough

theorem shared (h : Fresh s) (ho : Orderly s) (hw : s.visits = before ++ v :: after)
    (hv : v.caller.stage = .following call)
    (hr : s.refresher.flights.resultFor s.refresher.key call = some result) :
    Fresh ((s.shared before after).resume before after v.arrival v.client
      (Desk.conclude s.now (s.shared before after).refresher v.caller.client
        ⟨.follower, result⟩)) := by
  have hmem : v ∈ s.visits := Waiting.mem_of_split hw
  have hcall := call_of_following hv
  have hopened : Opened s.log call := by
    rw [← hcall]
    exact ho.called v hmem
  have hshared : Fresh (s.shared before after) := (h.remove hw).withReplica _
  refine hshared.conclude (ho.shared hw hv) rfl (h.entered v hmem) ?_ ?_
  · intro hthorough hagain hok
    have hsecond : v.caller.client.thorough = false := by
      have : (⟨.follower, result⟩ : Refreshed).needsAgain = true := rfl
      rw [this, Bool.and_true] at hagain
      exact hagain
    have hok : result = .ok () := hok
    rw [hok] at hr
    have hlast := (h.timely v hmem hthorough).last hsecond
    rw [hcall] at hlast
    exact (h.delivered call hopened (finished_of_resultFor_ok hr)).served hlast
  · intro hthorough n hn
    have hn : s.refresher.flights.current[s.refresher.key]? = some n := hn
    refine (h.timely v hmem hthorough).newer n ?_
    rw [hcall]
    refine Nat.lt_of_le_of_ne ((ho.latest n hn).2 call hopened) ?_
    -- the registered call runs, the one that was shared is over
    rintro rfl
    have hrun := ho.led.running _ (List.mem_append_left _ (ho.lead_of_current hn))
    rw [no_result_of_running hrun] at hr
    cases hr

theorem enter (h : Fresh s) (ho : Orderly s) (client : Client) : Fresh (s.enter client) := by
  have hentered : Fresh { s with log := .entered client :: s.log } := by
    refine h.frame_subset [_] rfl ?_ (fun _ _ => id) ⟨trivial, h.lawful⟩ fun _ => id
    exact fun n hn => (opened_cons_of_ne (by intro _ _ _ heq; cases heq)).mp hn
  refine begin (s := { s with log := .entered client :: s.log }) hentered ?_
    (List.append_nil _).symm ⟨[], s.log, rfl, rfl⟩ ?_
  · refine ho.frame rfl rfl rfl rfl (fun n => opened_cons_of_ne ?_) ho.called
    intro _ _ _ heq
    cases heq
  · intro hthorough hsecond
    rw [hthorough] at hsecond
    cases hsecond

theorem answer (h : Fresh s) (i : Nat) (a : Answer R) : Fresh (s.answer i a) := by
  unfold Session.answer
  split
  · rename_i before v after hpick
    have hw := Waiting.eq_append_of_pick? hpick
    refine h.frame [_] rfl ?_ (fun _ _ => id) ⟨trivial, h.lawful⟩ ?_
    · exact fun n hn => (opened_cons_of_ne (by intro _ _ _ heq; cases heq)).mp hn
    · intro w hmem
      rcases Waiting.eq_or_mem_rest hmem with rfl | hmem
      · exact ⟨v, Waiting.mem_of_split hw, rfl, rfl, rfl, rfl⟩
      · refine ⟨w, ?_, rfl, rfl, rfl, rfl⟩
        exact Waiting.mem_of_mem_rest hw hmem
  · exact h

theorem drop (h : Fresh s) (i : Nat) : Fresh (s.drop i) := by
  unfold Session.drop
  split
  · rename_i before v after hpick
    have hw := Waiting.eq_append_of_pick? hpick
    unfold release
    split
    · exact h.leave hw
    · exact h.remove hw
  · exact h

theorem elsewhere (h : Fresh s) (ho : Orderly s) (step : Elsewhere) : Fresh (s.elsewhere step) := by
  obtain ⟨flights, strangers, heq, -, hp⟩ := ho.elsewhere_eq step
  rw [heq]
  refine h.frame_subset [] rfl (fun _ => id) ?_ h.lawful fun _ => id
  exact fun n hn hf => (hp n hn).symm.trans hf

variable [Index R ι]

theorem clear (h : Fresh s) : Fresh s.clear := by
  refine h.frame_subset [_] rfl ?_ (fun _ _ => id) ⟨trivial, h.lawful⟩ fun _ => id
  exact fun n hn => (opened_cons_of_ne (by intro _ _ _ heq; cases heq)).mp hn

theorem start (kind : CacheKind) (skew : Span) (buffer : Nat) (now : Instant) :
    Fresh (start kind skew buffer now : Session R ι) where
  delivered n hn := by simp [Session.start, Opened] at hn
  entered v hv := by simp [Session.start] at hv
  timely v hv := by simp [Session.start] at hv
  lawful := trivial

variable [Record R]

/-- A pull that ends well merged the batch that answered it. -/
theorem delivered_of_settled (before after : List (Visit R)) (hs : Serial s) (hv : v ∈ s.visits)
    (hp : v.caller.stage = .pulling call ticket ()) {a : Answer R} (ha : v.caller.answer = some a)
    (hok : s.outcome ticket a = .ok ()) :
    Delivered (s.settled before after call ticket a).log call := by
  unfold Session.outcome at hok
  rcases hd : s.refresher.replica.verdict ticket a with fault | batch
  · rw [Replica.closePull_of_error hd] at hok
    cases hok
  · obtain ⟨rfl, -⟩ := Replica.verdict_eq_ok.mp hd
    obtain ⟨later, seen, earlier, hlog, hans, -⟩ := hs.pulls v hv call ticket hp
    have hmerges : Occurrence.merges s.refresher.replica call ticket (.ok batch) =
        [.merged call batch s.refresher.replica] := by
      unfold Occurrence.merges; rw [hd]
    unfold Session.settled
    rw [hmerges]
    exact ⟨[], batch, s.refresher.replica, later, ticket, seen, earlier, by simp [hlog], hans _ ha⟩

theorem settled (h : Fresh s) (ho : Orderly s) (hs : Serial s)
    (hw : s.visits = before ++ v :: after) (hp : v.caller.stage = .pulling call ticket ())
    {a : Answer R} (ha : v.caller.answer = some a) :
    Fresh ((s.settled before after call ticket a).resume before after v.arrival v.client
      (Desk.conclude s.now (s.settled before after call ticket a).refresher v.caller.client
        ⟨.leader, s.outcome ticket a⟩)) := by
  have hmem : v ∈ s.visits := Waiting.mem_of_split hw
  have hcall := call_of_pulling hp
  have hopened : Opened s.log call := by
    rw [← hcall]
    exact ho.called v hmem
  have hdelivered := delivered_of_settled before after hs hmem hp ha
  have hsettled : Fresh (s.settled before after call ticket a) := by
    refine ⟨?_, ?_, ?_, ?_⟩
    · intro n hn hf
      have hf : (s.refresher.flights.close s.refresher.key call
        (.finished (s.outcome ticket a))).progress[n]? = some (.finished (.ok ())) := hf
      rw [SingleFlight.close_progress] at hf
      split at hf
      · rename_i hcalln
        rw [← hcalln]
        exact hdelivered (Progress.finished.inj (Option.some.inj hf))
      · exact (h.delivered n (opened_merges.mp hn) hf).append _
    · intro w hw'
      refine (h.entered w ?_).append _
      exact Waiting.mem_of_mem_rest hw hw'
    · intro w hw' hthorough
      have hw' : w ∈ s.visits := Waiting.mem_of_mem_rest hw hw'
      exact (h.timely w hw' hthorough).append (h.entered w hw') _
    · unfold Session.settled Occurrence.merges
      split
      · exact ⟨trivial, h.lawful⟩
      · exact h.lawful
  have hin := h.entered v hmem
  refine hsettled.conclude (ho.settled hw hp a) rfl (hin.append _) ?_ ?_
  · intro hthorough _ hok
    have hown := (h.timely v hmem hthorough).own call ticket hp
    exact (hdelivered hok).served (hown.append hin _)
  · intro hthorough n hn
    have hkey : (s.settled before after call ticket a).refresher.key = s.refresher.key :=
      congrArg CacheKind.name (Replica.closePull_keeps _ _ _).1
    have hn : (s.refresher.flights.close s.refresher.key call
        (.finished (s.outcome ticket a))).current[s.refresher.key]? = some n := by
      rw [hkey] at hn
      exact hn
    obtain ⟨hn, hne⟩ := SingleFlight.close_current_eq_some.mp hn
    refine ((h.timely v hmem hthorough).newer n ?_).append hin _
    rw [hcall]
    exact Nat.lt_of_le_of_ne ((ho.latest n hn).2 call hopened) fun heq => hne ⟨rfl, heq.symm⟩

theorem poll (h : Fresh s) (ho : Orderly s) (hs : Serial s) (i : Nat) : Fresh (s.poll i) := by
  rcases hpick : Waiting.pick? (fun _ => true) i s.visits with _ | ⟨before, v, after⟩
  · rw [poll_of_none hpick]
    exact h
  · have hw := Waiting.eq_append_of_pick? hpick
    rcases hv : v.caller.stage with ⟨call, ticket, ⟨⟩⟩ | call
    · rcases ha : v.caller.answer with _ | a
      · rw [poll_of_open hpick hv ha]
        exact h
      · rw [poll_of_answered hpick hv ha]
        exact h.settled ho hs hw hv ha
    · rcases hr : s.refresher.flights.resultFor s.refresher.key call with _ | result
      · rw [poll_of_waiting hpick hv hr]
        exact h
      · rw [poll_of_shared hpick hv hr]
        exact h.shared ho hw hv hr

theorem act (h : Fresh s) (ho : Orderly s) (hs : Serial s) (action : Action R) :
    Fresh (s.act action) := by
  cases action with
  | enter client => exact h.enter ho client
  | answer i a => exact h.answer i a
  | poll i => exact h.poll ho hs i
  | drop i => exact h.drop i
  | clear => exact h.clear
  | close => exact h.withReplica _
  | tick now => exact ⟨h.delivered, h.entered, h.timely, h.lawful⟩
  | aside tally feed => exact h.withReplica _
  | elsewhere step => exact h.elsewhere ho step

theorem run (h : Fresh s) (ho : Orderly s) (hs : Serial s) (actions : List (Action R)) :
    Fresh (s.run actions) := by
  induction actions generalizing s with
  | nil => exact h
  | cons action rest ih => exact ih (h.act ho hs action) (ho.act action) (hs.act ho action)

end Fresh

variable [Record R] [Index R ι]

/-- **Reading what was written.** In every session a thorough caller that ends well was served: a
pull that was opened after the caller had come was answered with a batch, and that was merged before
the caller ended. -/
theorem thorough_caller_served (kind : CacheKind) (skew : Span) (buffer : Nat) (now : Instant)
    (actions : List (Action R)) :
    Chronicle FreshLaw ((start kind skew buffer now : Session R ι).run actions).log := by
  have hfresh : Fresh (start kind skew buffer now : Session R ι) := .start kind skew buffer now
  exact (hfresh.run (.start kind skew buffer now) (.start kind skew buffer now) actions).lawful

end Session

end GovernanceCache.Desk
