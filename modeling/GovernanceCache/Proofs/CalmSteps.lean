import GovernanceCache.Proofs.SerialPulls

/-!
# Calm steps of a session

Most steps of a session neither merge nor clear. They leave the replica alike, and whoever pulls
after them with a batch at hand did so before. Only the merge of a leader, a clear and an answer
with a batch are not calm.
-/

namespace GovernanceCache.Desk.Session

variable {R ι : Type}

/-- Nothing was merged or cleared: the replica stayed alike, and whoever pulls did so before with no
other batch, or opened its call since then and has no batch. -/
structure Calm (s s' : Session R ι) : Prop where
  alike : s.refresher.replica.Alike s'.refresher.replica
  opened : ∀ n, Opened s.log n → Opened s'.log n
  pulls : ∀ w ∈ s'.visits, ∀ call ticket, w.caller.stage = .pulling call ticket () →
    (∃ v ∈ s.visits, v.caller.stage = w.caller.stage ∧
      ∀ batch, w.caller.answer = some (.ok batch) → v.caller.answer = some (.ok batch)) ∨
    ¬ Opened s.log call ∧ ∀ batch, w.caller.answer ≠ some (.ok batch)

namespace Calm

variable {s s' s'' : Session R ι} {before after : List (Visit R)} {v : Visit R} {call : Nat}
  {ticket : Ticket} {told : List (Occurrence R ι)}

theorem trans (h : Calm s s') (h' : Calm s' s'') : Calm s s'' := by
  refine ⟨h.alike.trans h'.alike, fun n hn => h'.opened n (h.opened n hn), ?_⟩
  intro w hw call ticket hp
  rcases h'.pulls w hw call ticket hp with ⟨v, hv, hstage, hans⟩ | ⟨hnot, hans⟩
  · rw [← hstage] at hp
    rcases h.pulls v hv call ticket hp with ⟨u, hu, hstage', hans'⟩ | ⟨hnot, hans'⟩
    · exact Or.inl ⟨u, hu, hstage'.trans hstage, fun batch hb => hans' batch (hans batch hb)⟩
    · exact Or.inr ⟨hnot, fun batch hb => hans' batch (hans batch hb)⟩
  · exact Or.inr ⟨fun hn => hnot (h.opened _ hn), hans⟩

/-- Some visits are left, and the replica is alike. -/
theorem of_subset (hm : s.refresher.replica.Alike s'.refresher.replica)
    (told : List (Occurrence R ι)) (hl : s'.log = told ++ s.log)
    (hv : ∀ w ∈ s'.visits, w ∈ s.visits) : Calm s s' := by
  refine ⟨hm, ?_, fun w hw call ticket _ => Or.inl ⟨w, hv w hw, rfl, fun _ => id⟩⟩
  rintro n ⟨ticket, seen, hmem⟩
  rw [hl]
  exact ⟨ticket, seen, List.mem_append_right _ hmem⟩

theorem begin (ho : Orderly s) (hw : s.visits = before ++ after) (arrival : Nat)
    (client asClient : Client) :
    Calm s (s.resume before after arrival client (begin s.now s.refresher asClient none)) := by
  rcases hk : s.refresher.flights.current[s.refresher.key]? with _ | call
  · rcases hopen : s.refresher.replica.openPull s.now with _ | ⟨replica, ticket⟩
    · rw [resume_begin_refused hk hopen]
      exact of_subset ⟨rfl, rfl, rfl, rfl, rfl, rfl⟩ [_] rfl fun w hmem => by rw [hw]; exact hmem
    · rw [resume_begin_lead hk hopen]
      refine ⟨(Replica.openPull_eq_some hopen).1, fun n hn => hn.cons _, ?_⟩
      intro w hmem call ticket' hp
      rcases Waiting.eq_or_mem_rest hmem with rfl | hmem
      · cases hp
        refine Or.inr ⟨fun hopened => ?_, fun _ hb => (nomatch hb)⟩
        have := (ho.numbered _ hopened).1
        omega
      · exact Or.inl ⟨w, by rw [hw]; exact hmem, rfl, fun _ => id⟩
  · rw [resume_begin_follow hk]
    refine ⟨⟨rfl, rfl, rfl, rfl, rfl, rfl⟩, fun _ => id, ?_⟩
    intro w hmem call' ticket hp
    rcases Waiting.eq_or_mem_rest hmem with rfl | hmem
    · cases hp
    · exact Or.inl ⟨w, by rw [hw]; exact hmem, rfl, fun _ => id⟩

theorem conclude (ho : Orderly s) (hw : s.visits = before ++ after) (arrival : Nat)
    (client asClient : Client) (refreshed : Refreshed) :
    Calm s (s.resume before after arrival client
      (conclude s.now s.refresher asClient refreshed)) := by
  rcases hagain : asClient.thorough && refreshed.needsAgain with _ | _
  · rw [resume_conclude_ended hagain]
    exact of_subset ⟨rfl, rfl, rfl, rfl, rfl, rfl⟩ [_] rfl fun w hmem => by rw [hw]; exact hmem
  · rw [resume_conclude_again hagain]
    exact begin ho hw arrival client _

theorem shared (hw : s.visits = before ++ v :: after) : Calm s (s.shared before after) := by
  refine of_subset ⟨rfl, rfl, rfl, rfl, rfl, rfl⟩ [] rfl fun w hmem => ?_
  exact Waiting.mem_of_mem_rest hw hmem

theorem enter (ho : Orderly s) (client : Client) : Calm s (s.enter client) := by
  have hentered : Calm s { s with log := .entered client :: s.log } :=
    of_subset ⟨rfl, rfl, rfl, rfl, rfl, rfl⟩ [_] rfl fun _ => id
  refine hentered.trans (begin ?_ (List.append_nil _).symm _ _ _)
  refine ho.frame rfl rfl rfl rfl (fun n => opened_cons_of_ne ?_) ho.called
  intro _ _ _ heq
  cases heq

theorem drop (s : Session R ι) (i : Nat) : Calm s (s.drop i) := by
  unfold Session.drop
  split
  · rename_i before v after hpick
    have hw := Waiting.eq_append_of_pick? hpick
    unfold release
    split <;>
    · refine of_subset ⟨rfl, rfl, rfl, rfl, rfl, rfl⟩ [] rfl fun w hmem => ?_
      exact Waiting.mem_of_mem_rest hw hmem
  · exact of_subset ⟨rfl, rfl, rfl, rfl, rfl, rfl⟩ [] rfl fun _ => id

theorem fail (s : Session R ι) (i : Nat) (fault : StoreFault) :
    Calm s (s.answer i (.error fault)) := by
  unfold Session.answer
  split
  · rename_i before v after hpick
    have hw := Waiting.eq_append_of_pick? hpick
    refine ⟨⟨rfl, rfl, rfl, rfl, rfl, rfl⟩, fun n hn => hn.cons _, ?_⟩
    intro w hmem call ticket _
    rcases Waiting.eq_or_mem_rest hmem with rfl | hmem
    · exact Or.inl ⟨v, Waiting.mem_of_split hw, rfl, fun _ hb => (nomatch hb)⟩
    · refine Or.inl ⟨w, ?_, rfl, fun _ => id⟩
      exact Waiting.mem_of_mem_rest hw hmem
  · exact of_subset ⟨rfl, rfl, rfl, rfl, rfl, rfl⟩ [] rfl fun _ => id

theorem elsewhere (ho : Orderly s) (step : Elsewhere) : Calm s (s.elsewhere step) := by
  obtain ⟨flights, strangers, heq, -⟩ := ho.elsewhere_eq step
  rw [heq]
  exact of_subset ⟨rfl, rfl, rfl, rfl, rfl, rfl⟩ [] rfl fun _ => id

variable [Record R] [Index R ι]

theorem settled (hw : s.visits = before ++ v :: after) {a : Answer R} {fault : Fault}
    (hd : s.refresher.replica.verdict ticket a = .error fault) :
    Calm s (s.settled before after call ticket a) := by
  have halike : s.refresher.replica.Alike (s.refresher.replica.closePull ticket a).1 := by
    rw [Replica.closePull_of_error hd]
    exact s.refresher.replica.giveUp_alike fault
  exact of_subset halike _ rfl fun w hmem => Waiting.mem_of_mem_rest hw hmem

/-- A poll is calm, unless it merges the batch of a pull. -/
theorem poll (ho : Orderly s) (i : Nat) :
    Calm s (s.poll i) ∨ ∃ before v after call ticket answer batch,
      Waiting.pick? (fun _ => true) i s.visits = some (before, v, after) ∧
      v.caller.stage = .pulling call ticket () ∧ v.caller.answer = some answer ∧
      s.refresher.replica.verdict ticket answer = .ok batch := by
  have hsame : Calm s s := of_subset ⟨rfl, rfl, rfl, rfl, rfl, rfl⟩ [] rfl fun _ => id
  rcases hpick : Waiting.pick? (fun _ => true) i s.visits with _ | ⟨before, v, after⟩
  · rw [poll_of_none hpick]
    exact Or.inl hsame
  · have hw := Waiting.eq_append_of_pick? hpick
    rcases hv : v.caller.stage with ⟨call, ticket, ⟨⟩⟩ | call
    · rcases ha : v.caller.answer with _ | a
      · rw [poll_of_open hpick hv ha]
        exact Or.inl hsame
      · rcases hd : s.refresher.replica.verdict ticket a with fault | batch
        · rw [poll_of_answered hpick hv ha]
          exact Or.inl ((settled hw hd).trans (conclude (ho.settled hw hv a) rfl _ _ _ _))
        · exact Or.inr ⟨before, v, after, call, ticket, a, batch, rfl, hv, ha, hd⟩
    · rcases hr : s.refresher.flights.resultFor s.refresher.key call with _ | result
      · rw [poll_of_waiting hpick hv hr]
        exact Or.inl hsame
      · rw [poll_of_shared hpick hv hr]
        exact Or.inl ((shared hw).trans (conclude (ho.shared hw hv) rfl _ _ _ _))

end Calm

end GovernanceCache.Desk.Session
