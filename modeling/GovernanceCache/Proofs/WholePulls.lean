import GovernanceCache.Proofs.ReadAfterWrite
import GovernanceCache.Proofs.SessionContents

/-!
# Pulls are all or nothing

A pull that ends well has merged every record of its batch, and the watermark covers them all. A
pull that ends otherwise, or whose leader is dropped, has left all of the contents as they were.

1. The newest record of each key settles its entry, and no record is newer than the watermark
   (`TakesIn.whole`).
2. A caller that ends well ends in the poll in which its pull takes in the batch, or in a poll that
   shares the result of a call that did (`act_told`).
-/

namespace GovernanceCache

variable {R ι : Type} [Record R] [Index R ι]

namespace Replica

variable {m m' : Replica R ι} {batch : List R} {ticket : Ticket} {answer : Answer R}

/-- Every record of the batch was merged: a record of its key that is no older settled the entry.
The watermark covers the batch. -/
structure TakesWhole (m : Replica R ι) (batch : List R) (m' : Replica R ι) : Prop
    extends TakesIn m batch m' where
  settled : ∀ r ∈ batch, ∃ n ∈ batch, Record.key n = Record.key r ∧
    Record.modified r ≤ Record.modified n ∧
    m'.entries[Record.key r]? = entryAfter m.entries[Record.key r]? n
  covered : ∀ r ∈ batch, Record.modified r ≤ m'.watermark.lastModified

theorem le_advance {w : Watermark} {t fetched : Instant} :
    t ≤ (w.advance (some t) fetched).lastModified := by
  unfold Watermark.advance
  simp only
  split
  · exact Instant.le_refl t
  · rename_i h
    exact Instant.not_lt.mp h

theorem TakesIn.whole (h : m.TakesIn batch m') : m.TakesWhole batch m' := by
  refine ⟨h, ?_, ?_⟩
  · intro r hr
    obtain ⟨n, hn⟩ := Option.isSome_iff_exists.mp (newestFor_isSome hr)
    obtain ⟨hmem, hkey⟩ := newestFor_mem hn
    refine ⟨n, hmem, hkey, le_newestFor hr hn, ?_⟩
    rw [h.entries, merge_getElem?, hn]
  · intro r hr
    obtain ⟨t, ht, hle⟩ := le_latestTime hr
    obtain ⟨fetched, hw⟩ := h.watermark
    rw [hw, ht]
    exact Instant.le_trans hle le_advance

end Replica

namespace Desk

variable {s : Session R ι} {before after : List (Visit R)} {arrival : Nat}
  {client asClient : Client} {refreshed : Refreshed} {told : List (Occurrence R ι)}

/-- Pulls are all or nothing, whatever step comes next. -/
structure AllOrNothing (s : Session R ι) : Prop where
  /-- A caller that comes changes nothing: it opens a pull, joins one or is refused. -/
  enter : ∀ client, s.refresher.replica.Untouched (s.enter client).refresher.replica
  /-- The pull of a leader that is dropped has changed nothing. -/
  drop : ∀ i, s.refresher.replica.Untouched (s.drop i).refresher.replica
  /-- An answered pull takes in the whole batch and ends well, or it ends with a fault and changes
  nothing. -/
  close : ∀ i before v after call ticket answer,
    Waiting.pick? (fun _ => true) i s.visits = some (before, v, after) →
    v.caller.stage = .pulling call ticket () → v.caller.answer = some answer →
    (∃ batch, answer = .ok batch ∧ s.outcome ticket answer = .ok () ∧
      s.refresher.replica.TakesWhole batch (s.poll i).refresher.replica) ∨
    ∃ fault, s.outcome ticket answer = .error fault ∧
      s.refresher.replica.Untouched (s.poll i).refresher.replica
  /-- A pull that is not answered, or one of another caller, changes nothing by a poll. -/
  wait : ∀ i, (∀ before v after call ticket answer,
      Waiting.pick? (fun _ => true) i s.visits = some (before, v, after) →
      v.caller.stage = .pulling call ticket () → v.caller.answer ≠ some answer) →
    s.refresher.replica.Untouched (s.poll i).refresher.replica
  /-- A pull ends well if the store answered with sound records only, and the replica was neither
  closed nor cleared meanwhile. -/
  well_iff : ∀ ticket answer, s.outcome ticket answer = .ok () ↔
    ∃ batch, answer = .ok batch ∧ (∀ r ∈ batch, Record.defect? r = none) ∧
      s.refresher.replica.closed = false ∧ s.refresher.replica.generation = ticket.generation
  /-- A caller ends well only in a poll, and the pull of the call that it waited for, its own or
  that of another caller, was answered with a batch that was merged. -/
  told : ∀ action, ∃ told, (s.act action).log = told ++ s.log ∧
    ∀ arrival client refreshed, .ended arrival client refreshed ∈ told →
      refreshed.result = .ok () → ∃ i before v after, action = .poll i ∧
        Waiting.pick? (fun _ => true) i s.visits = some (before, v, after) ∧
        arrival = v.arrival ∧ client = v.client ∧
        Delivered (s.act action).log v.caller.call

namespace Session

/-- No caller is told to have ended well. -/
def NoneWell (told : List (Occurrence R ι)) : Prop :=
  ∀ arrival client refreshed, .ended arrival client refreshed ∈ told → refreshed.result ≠ .ok ()

omit [Record R] [Index R ι]

theorem begin_told (s : Session R ι) (before after : List (Visit R)) (arrival : Nat)
    (client asClient : Client) :
    ∃ told, (s.resume before after arrival client
      (begin s.now s.refresher asClient none)).log = told ++ s.log ∧ NoneWell told := by
  rcases hk : s.refresher.flights.current[s.refresher.key]? with _ | call
  · rcases ho : s.refresher.replica.openPull s.now with _ | ⟨replica, ticket⟩
    · rw [resume_begin_refused hk ho]
      refine ⟨[_], rfl, ?_⟩
      intro a c r hmem
      cases List.mem_singleton.mp hmem
      nofun
    · rw [resume_begin_lead hk ho]
      refine ⟨[_], rfl, ?_⟩
      intro a c r hmem
      cases List.mem_singleton.mp hmem
  · rw [resume_begin_follow hk]
    exact ⟨[], rfl, nofun⟩

theorem conclude_told (s : Session R ι) (before after : List (Visit R)) (arrival : Nat)
    (client asClient : Client) (refreshed : Refreshed) :
    ∃ told, (s.resume before after arrival client
      (conclude s.now s.refresher asClient refreshed)).log = told ++ s.log ∧
      ∀ a c r, .ended a c r ∈ told → r.result = .ok () →
        a = arrival ∧ c = client ∧ refreshed.result = .ok () := by
  rcases hagain : asClient.thorough && refreshed.needsAgain with _ | _
  · rw [resume_conclude_ended hagain]
    refine ⟨[_], rfl, ?_⟩
    intro a c r hmem hok
    cases List.mem_singleton.mp hmem
    exact ⟨rfl, rfl, hok⟩
  · rw [resume_conclude_again hagain]
    obtain ⟨told, hlog, hnone⟩ := s.begin_told before after arrival client _
    exact ⟨told, hlog, fun a c r hmem hok => absurd hok (hnone a c r hmem)⟩

variable [Record R] [Index R ι]

/-- The pull for which a caller waited that ends well in a poll was delivered. -/
theorem poll_told (ho : Orderly s) (hs : Serial s) (hf : Fresh s) (i : Nat) :
    ∃ told, (s.poll i).log = told ++ s.log ∧
      ∀ arrival client refreshed, .ended arrival client refreshed ∈ told →
        refreshed.result = .ok () → ∃ before v after,
          Waiting.pick? (fun _ => true) i s.visits = some (before, v, after) ∧
          arrival = v.arrival ∧ client = v.client ∧ Delivered (s.poll i).log v.caller.call := by
  rcases hpick : Waiting.pick? (fun _ => true) i s.visits with _ | ⟨before, v, after⟩
  · exact ⟨[], by rw [poll_of_none hpick]; rfl, nofun⟩
  · have hmem := Waiting.mem_of_split (Waiting.eq_append_of_pick? hpick)
    rcases hv : v.caller.stage with ⟨call, ticket, ⟨⟩⟩ | call
    · rcases ha : v.caller.answer with _ | a
      · exact ⟨[], by rw [poll_of_open hpick hv ha]; rfl, nofun⟩
      · rw [poll_of_answered hpick hv ha]
        obtain ⟨told, hlog, hwell⟩ := (s.settled before after call ticket a).conclude_told before
          after v.arrival v.client v.caller.client ⟨.leader, s.outcome ticket a⟩
        refine ⟨told ++ Occurrence.merges s.refresher.replica call ticket a, ?_, ?_⟩
        · rw [List.append_assoc]
          exact hlog
        · intro arrival client refreshed hended hok
          rcases List.mem_append.mp hended with hended | hended
          · obtain ⟨rfl, rfl, hout⟩ := hwell _ _ _ hended hok
            have hd := (Fresh.delivered_of_settled before after hs hmem hv ha hout).append told
            rw [← hlog] at hd
            refine ⟨before, v, after, rfl, rfl, rfl, ?_⟩
            rw [call_of_pulling hv]
            exact hd
          · -- the record of a merge tells of no caller
            unfold Occurrence.merges at hended
            split at hended
            · cases List.mem_singleton.mp hended
            · cases hended
    · rcases hr : s.refresher.flights.resultFor s.refresher.key call with _ | result
      · exact ⟨[], by rw [poll_of_waiting hpick hv hr]; rfl, nofun⟩
      · rw [poll_of_shared hpick hv hr]
        obtain ⟨told, hlog, hwell⟩ := (s.shared before after).conclude_told before after v.arrival
          v.client v.caller.client ⟨.follower, result⟩
        refine ⟨told, hlog, ?_⟩
        intro arrival client refreshed hended hok
        obtain ⟨rfl, rfl, hout⟩ := hwell _ _ _ hended hok
        have hopened := ho.called v hmem
        rw [call_of_following hv] at hopened
        have hout : result = .ok () := hout
        rw [hout] at hr
        have hd := (hf.delivered call hopened (finished_of_resultFor_ok hr)).append told
        have hlog : _ = told ++ s.log := hlog
        rw [← hlog] at hd
        refine ⟨before, v, after, rfl, rfl, rfl, ?_⟩
        rw [call_of_following hv]
        exact hd

/-- Only a poll tells of a caller that it ended well. -/
theorem act_told_of_ne_poll (s : Session R ι) {action : Action R} (h : ∀ i, action ≠ .poll i) :
    ∃ told, (s.act action).log = told ++ s.log ∧ NoneWell told := by
  have hquiet : ∀ {s' : Session R ι}, s'.log = s.log →
      ∃ told, s'.log = told ++ s.log ∧ NoneWell told := fun heq => ⟨[], heq, nofun⟩
  cases action with
  | enter client =>
    obtain ⟨told, hlog, hnone⟩ := begin_told { s with log := .entered client :: s.log } s.visits []
      s.log.length client client
    refine ⟨told ++ [.entered client], ?_, ?_⟩
    · rw [List.append_assoc]
      exact hlog
    · intro a c r hended
      rcases List.mem_append.mp hended with hended | hended
      · exact hnone a c r hended
      · cases List.mem_singleton.mp hended
  | answer i a =>
    show ∃ told, (s.answer i a).log = told ++ s.log ∧ NoneWell told
    unfold answer
    split
    · refine ⟨[_], rfl, ?_⟩
      intro a c r hended
      cases List.mem_singleton.mp hended
    · exact hquiet rfl
  | poll i => exact absurd rfl (h i)
  | drop i =>
    show ∃ told, (s.drop i).log = told ++ s.log ∧ NoneWell told
    unfold drop
    split <;> exact hquiet rfl
  | clear =>
    refine ⟨[.cleared], rfl, ?_⟩
    intro a c r hended
    cases List.mem_singleton.mp hended
  | close => exact hquiet rfl
  | tick now => exact hquiet rfl
  | aside tally feed => exact hquiet rfl
  | elsewhere step =>
    show ∃ told, (s.elsewhere step).log = told ++ s.log ∧ NoneWell told
    unfold elsewhere
    cases step <;> simp only <;> split <;> exact hquiet rfl

theorem outcome_eq_ok {ticket : Ticket} {answer : Answer R} :
    s.outcome ticket answer = .ok () ↔
      ∃ batch, s.refresher.replica.verdict ticket answer = .ok batch := by
  constructor
  · intro h
    rcases hv : s.refresher.replica.verdict ticket answer with fault | batch
    · rw [outcome_of_error hv] at h
      cases h
    · exact ⟨batch, rfl⟩
  · rintro ⟨batch, hv⟩
    unfold outcome
    rw [Replica.closePull_of_ok hv]
    rfl

omit [Index R ι] in
theorem batch?_of_pick {i : Nat} {v : Visit R} {call : Nat} {ticket : Ticket} {answer : Answer R}
    (hpick : Waiting.pick? (fun _ => true) i s.visits = some (before, v, after))
    (hv : v.caller.stage = .pulling call ticket ()) (ha : v.caller.answer = some answer) :
    s.batch? (.poll i) = (s.refresher.replica.verdict ticket answer).toOption := by
  unfold batch? Caller.batch?
  simp only [hpick, hv, ha]

/-- **All or nothing.** In every session a pull takes in its whole batch and ends well, or it
changes nothing; and a caller ends well only if the pull for which it waited did. -/
theorem run_allOrNothing (kind : CacheKind) (skew : Span) (buffer : Nat) (now : Instant)
    (actions : List (Action R)) :
    AllOrNothing ((start kind skew buffer now : Session R ι).run actions) := by
  have hserial : Serial (start kind skew buffer now : Session R ι) := .start kind skew buffer now
  have hfresh : Fresh (start kind skew buffer now : Session R ι) := .start kind skew buffer now
  obtain ⟨ho, hs⟩ := Serial.run (.start kind skew buffer now) hserial actions
  have hf := hfresh.run (.start kind skew buffer now) hserial actions
  generalize (start kind skew buffer now : Session R ι).run actions = s at ho hs hf
  refine ⟨enter_untouched s, drop_untouched s, ?_, ?_, ?_, ?_⟩
  · intro i before v after call ticket answer hpick hv ha
    have hb := batch?_of_pick hpick hv ha
    rcases hd : s.refresher.replica.verdict ticket answer with fault | batch
    · rw [hd] at hb
      exact Or.inr ⟨fault, outcome_of_error hd, poll_untouched hb⟩
    · rw [hd] at hb
      refine Or.inl ⟨batch, (Replica.verdict_eq_ok.mp hd).1, outcome_eq_ok.mpr ⟨batch, hd⟩, ?_⟩
      exact (act_of_batch hb).1.whole
  · intro i hno
    refine poll_untouched (Option.eq_none_iff_forall_ne_some.mpr fun batch hb => ?_)
    obtain ⟨j, before, v, after, call, ticket, hj, hpick, hv, ha, -⟩ := of_batch? hb
    cases hj
    exact hno before v after call ticket _ hpick hv ha
  · intro ticket answer
    simp only [outcome_eq_ok, Replica.verdict_eq_ok, Replica.defect?_eq_none]
  · intro action
    by_cases hpoll : ∃ i, action = .poll i
    · obtain ⟨i, rfl⟩ := hpoll
      obtain ⟨told, hlog, hwell⟩ := poll_told ho hs hf i
      refine ⟨told, hlog, ?_⟩
      intro arrival client refreshed hended hok
      obtain ⟨before, v, after, hrest⟩ := hwell arrival client refreshed hended hok
      exact ⟨i, before, v, after, rfl, hrest⟩
    · obtain ⟨told, hlog, hnone⟩ := s.act_told_of_ne_poll fun i heq => hpoll ⟨i, heq⟩
      exact ⟨told, hlog, fun a c r hended hok => absurd hok (hnone a c r hended)⟩

end Session

end Desk

end GovernanceCache
