import GovernanceCache.Proofs.DeskSession
import GovernanceCache.Proofs.Replaying

/-!
# What a session does to the contents of its replica

The contents are what readers and subscribers get to see: the entries, the index, the watermark, the
first-load flag and the feed.

1. Only a poll that closes a pull well takes in a batch, and then all of the contents move together
   (`act_of_batch`).
2. Other steps leave the contents alone, except that a clear empties them (`act_untouched`).
3. So a relation between entries and index that every fitting change keeps holds in every session
   (`Index.Tracks.run`).
-/

namespace GovernanceCache

variable {R ι : Type}

namespace Replica

/-- The entries and what goes with them are as before. -/
structure Steady (m m' : Replica R ι) : Prop where
  entries : m'.entries = m.entries
  index : m'.index = m.index
  watermark : m'.watermark = m.watermark
  firstLoad : m'.firstLoad = m.firstLoad

/-- All of the contents are as before, the queues of the subscribers too. -/
structure Untouched (m m' : Replica R ι) : Prop extends Steady m m' where
  feed : m'.feed = m.feed

variable {m m' m'' : Replica R ι} {now : Instant} {ticket : Ticket} {answer : Answer R}
  {batch : List R} {fault : Fault}

theorem Untouched.refl (m : Replica R ι) : m.Untouched m := ⟨⟨rfl, rfl, rfl, rfl⟩, rfl⟩

theorem Untouched.trans (h : m.Untouched m') (h' : m'.Untouched m'') : m.Untouched m'' := by
  obtain ⟨⟨a₁, a₂, a₃, a₄⟩, a₅⟩ := h
  obtain ⟨⟨b₁, b₂, b₃, b₄⟩, b₅⟩ := h'
  exact ⟨⟨b₁.trans a₁, b₂.trans a₂, b₃.trans a₃, b₄.trans a₄⟩, b₅.trans a₅⟩

theorem openPull_untouched (h : m.openPull now = some (m', ticket)) : m.Untouched m' := by
  unfold openPull at h
  split at h
  · cases h
  · cases h
    exact ⟨⟨rfl, rfl, rfl, rfl⟩, rfl⟩

theorem giveUp_untouched (m : Replica R ι) (fault : Fault) : m.Untouched (m.giveUp fault) := by
  unfold giveUp
  split <;> exact ⟨⟨rfl, rfl, rfl, rfl⟩, rfl⟩

variable [Record R] [Index R ι]

/-- The contents after a batch was taken in. -/
structure TakesIn (m : Replica R ι) (batch : List R) (m' : Replica R ι) : Prop where
  entries : m'.entries = (merge m.entries batch).entries
  index : m'.index = Index.observeAll m.index (merge m.entries batch).changes
  watermark : ∃ fetched, m'.watermark = m.watermark.advance (latestTime batch) fetched
  firstLoad : m'.firstLoad = false
  feed : m'.feed =
    (merge m.entries batch).changes.foldl (fun feed c => (feed.publish c).1) m.feed

theorem closePull_takesIn (h : m.verdict ticket answer = .ok batch) :
    m.TakesIn batch (m.closePull ticket answer).1 := by
  rw [closePull_of_ok h]
  exact ⟨rfl, rfl, ⟨_, rfl⟩, rfl, rfl⟩

theorem closePull_untouched (h : m.verdict ticket answer = .error fault) :
    m.Untouched (m.closePull ticket answer).1 := by
  rw [closePull_of_error h]
  exact m.giveUp_untouched fault

end Replica

namespace Desk

variable {refresher : Refresher R ι} {c : Caller R} {now : Instant}

theorem begin_untouched (now : Instant) (refresher : Refresher R ι) (client : Client)
    (answer : Option (Answer R)) :
    refresher.replica.Untouched (begin now refresher client answer).1.replica := by
  unfold begin Refresher.enter
  rcases refresher.flights.enter refresher.key with ⟨flights, _ | _, call⟩
  · rcases ho : refresher.replica.openPull now with _ | ⟨m, ticket⟩
    · exact .refl _
    · exact Replica.openPull_untouched ho
  · exact .refl _

theorem conclude_untouched (now : Instant) (refresher : Refresher R ι) (client : Client)
    (refreshed : Refreshed) :
    refresher.replica.Untouched (conclude now refresher client refreshed).1.replica := by
  unfold conclude
  split
  · exact begin_untouched ..
  · exact .refl _

theorem release_untouched (refresher : Refresher R ι) (c : Caller R) :
    refresher.replica.Untouched (release refresher c).replica := by
  unfold release
  split <;> exact .refl _

namespace Session

theorem elsewhere_replica (s : Session R ι) (step : Elsewhere) :
    (s.elsewhere step).refresher.replica = s.refresher.replica := by
  unfold elsewhere
  cases step <;> simp only <;> split <;> rfl

theorem enter_untouched (s : Session R ι) (client : Client) :
    s.refresher.replica.Untouched (s.enter client).refresher.replica := begin_untouched ..

theorem drop_untouched (s : Session R ι) (i : Nat) :
    s.refresher.replica.Untouched (s.drop i).refresher.replica := by
  unfold drop
  split
  · exact release_untouched ..
  · exact .refl _

theorem resume_log (s : Session R ι) (before after : List (Visit R)) (arrival : Nat)
    (client : Client) (next : Refresher R ι × Option (Caller R) × List (Event R)) :
    s.log ⊆ (s.resume before after arrival client next).log :=
  List.subset_append_right _ _

end Session

variable [Record R]

/-- The batch that a caller takes in when it is polled, if its pull ends well. -/
def Caller.batch? (m : Replica R ι) (c : Caller R) : Option (List R) :=
  match c.stage, c.answer with
  | .pulling _ ticket _, some answer => (m.verdict ticket answer).toOption
  | _, _ => none

theorem pollCaller_untouched [Index R ι] (h : c.batch? refresher.replica = none) :
    refresher.replica.Untouched (pollCaller now refresher c).1.replica := by
  unfold Caller.batch? at h
  unfold pollCaller
  split
  · rename_i call ticket _ answer hstage hanswer
    simp only [hstage, hanswer] at h
    rcases hv : refresher.replica.verdict ticket answer with fault | batch
    · exact (Replica.closePull_untouched hv).trans
        (conclude_untouched now (refresher.settle call ticket answer).1 c.client _)
    · rw [hv] at h
      cases h
  · rename_i call _
    unfold Refresher.share?
    rcases refresher.flights.resultFor refresher.key call with _ | result
    · exact .refl _
    · have hshared : refresher.replica.Untouched refresher.replica.countShared :=
        ⟨⟨rfl, rfl, rfl, rfl⟩, rfl⟩
      exact hshared.trans (conclude_untouched now { refresher with replica := _ } c.client _)
  · exact .refl _

namespace Session

variable {s s' : Session R ι} {action : Action R} {batch : List R} {i : Nat}
  {before after : List (Visit R)} {v : Visit R}

/-- The batch that a step takes in, if it takes one in. -/
def batch? (s : Session R ι) : Action R → Option (List R)
  | .poll i =>
    match Waiting.pick? (fun _ => true) i s.visits with
    | some (_, v, _) => v.caller.batch? s.refresher.replica
    | none => none
  | _ => none

/-- A batch is taken in when a leader is polled whose pull was answered with it. -/
theorem of_batch? (h : s.batch? action = some batch) :
    ∃ i before v after call ticket, action = .poll i ∧
      Waiting.pick? (fun _ => true) i s.visits = some (before, v, after) ∧
      v.caller.stage = .pulling call ticket () ∧ v.caller.answer = some (.ok batch) ∧
      s.refresher.replica.verdict ticket (.ok batch) = .ok batch := by
  unfold batch? at h
  split at h
  · rename_i i
    split at h
    · rename_i before v after hpick
      unfold Caller.batch? at h
      split at h
      · rename_i call ticket _ answer hstage hanswer
        rcases hv : s.refresher.replica.verdict ticket answer with fault | b
        · rw [hv] at h
          cases h
        · rw [hv] at h
          obtain rfl : b = batch := Option.some.inj h
          obtain ⟨rfl, -⟩ := Replica.verdict_eq_ok.mp hv
          exact ⟨i, before, v, after, call, ticket, rfl, hpick, hstage, hanswer, hv⟩
      · cases h
    · cases h
  · cases h

/-- The entries after each batch that was taken in, the latest first. -/
def merges (s : Session R ι) : List (Std.ExtTreeMap String R) :=
  s.log.filterMap fun
    | .merged _ batch into => some (merge into.entries batch).entries
    | _ => none

theorem mem_merges {s : Session R ι} {call : Nat} {batch : List R} {into : Replica R ι}
    (h : .merged call batch into ∈ s.log) : (merge into.entries batch).entries ∈ s.merges :=
  List.mem_filterMap.mpr ⟨_, h, rfl⟩

theorem merges_subset {s s' : Session R ι} (h : s.log ⊆ s'.log) : s.merges ⊆ s'.merges := by
  intro entries hmem
  obtain ⟨e, he, heq⟩ := List.mem_filterMap.mp hmem
  exact List.mem_filterMap.mpr ⟨e, h he, heq⟩

variable [Index R ι]

/-- The whole of a batch is taken in, and its merge is on record. -/
theorem act_of_batch (h : s.batch? action = some batch) :
    s.refresher.replica.TakesIn batch (s.act action).refresher.replica ∧
      ∃ call, .merged call batch s.refresher.replica ∈ (s.act action).log := by
  obtain ⟨i, before, v, after, call, ticket, rfl, hpick, hstage, hanswer, hv⟩ := of_batch? h
  have hact : s.act (.poll i) = s.poll i := rfl
  rw [hact, poll_of_merged hpick hstage hanswer hv]
  refine ⟨Replica.closePull_takesIn hv, call, ?_⟩
  unfold settled Occurrence.merges
  simp [hv]

theorem poll_untouched (h : s.batch? (.poll i) = none) :
    s.refresher.replica.Untouched (s.poll i).refresher.replica := by
  unfold batch? at h
  unfold poll
  rcases hpick : Waiting.pick? (fun _ => true) i s.visits with _ | ⟨before, v, after⟩
  · exact .refl _
  · simp only [hpick] at h
    exact pollCaller_untouched h

/-- Steps of callers, of the store and of other keys that take in no batch leave the contents
alone. -/
theorem act_untouched (h : s.batch? action = none) (hclear : action ≠ .clear)
    (hclose : action ≠ .close) (haside : ∀ tally feed, action ≠ .aside tally feed) :
    s.refresher.replica.Untouched (s.act action).refresher.replica := by
  cases action with
  | enter client => exact enter_untouched s client
  | answer i a =>
    show s.refresher.replica.Untouched (s.answer i a).refresher.replica
    unfold answer
    split <;> exact .refl _
  | poll i => exact poll_untouched h
  | drop i => exact drop_untouched s i
  | clear => exact absurd rfl hclear
  | close => exact absurd rfl hclose
  | tick now => exact .refl _
  | aside tally feed => exact absurd rfl (haside tally feed)
  | elsewhere step =>
    show s.refresher.replica.Untouched (s.elsewhere step).refresher.replica
    rw [elsewhere_replica]
    exact .refl _

theorem act_steady (h : s.batch? action = none) (hclear : action ≠ .clear) :
    s.refresher.replica.Steady (s.act action).refresher.replica := by
  by_cases hclose : action = .close
  · subst hclose
    exact ⟨rfl, rfl, rfl, rfl⟩
  · by_cases haside : ∃ tally feed, action = .aside tally feed
    · obtain ⟨tally, feed, rfl⟩ := haside
      exact ⟨rfl, rfl, rfl, rfl⟩
    · exact (act_untouched h hclear hclose fun tally feed heq =>
        haside ⟨tally, feed, heq⟩).toSteady

/-- What is on record stays on record. -/
theorem act_log (s : Session R ι) (action : Action R) : s.log ⊆ (s.act action).log := by
  cases action with
  | enter client => exact fun e he => resume_log _ _ _ _ _ _ (List.mem_cons_of_mem _ he)
  | answer i a =>
    show s.log ⊆ (s.answer i a).log
    unfold answer
    split
    · exact List.subset_cons_self _ _
    · exact List.Subset.refl _
  | poll i =>
    show s.log ⊆ (s.poll i).log
    unfold poll
    split
    · exact fun e he => resume_log _ _ _ _ _ _ (List.mem_append_right _ he)
    · exact List.Subset.refl _
  | drop i =>
    show s.log ⊆ (s.drop i).log
    unfold drop
    split <;> exact List.Subset.refl _
  | clear => exact List.subset_cons_self _ _
  | close => exact List.Subset.refl _
  | tick now => exact List.Subset.refl _
  | aside tally feed => exact List.Subset.refl _
  | elsewhere step =>
    show s.log ⊆ (s.elsewhere step).log
    unfold elsewhere
    cases step <;> simp only <;> split <;> exact List.Subset.refl _

/-- What holds at first and is kept while the contents are steady, when they take in a batch and
when they are emptied, holds in every session. -/
theorem run_induction {P : Session R ι → Prop}
    (hsteady : ∀ s s', s.refresher.replica.Steady s'.refresher.replica → s.log ⊆ s'.log →
      P s → P s')
    (hbatch : ∀ s s' call batch, s.refresher.replica.TakesIn batch s'.refresher.replica →
      s.log ⊆ s'.log → .merged call batch s.refresher.replica ∈ s'.log → P s → P s')
    (hclear : ∀ s, P s → P s.clear) (h : P s) (actions : List (Action R)) : P (s.run actions) := by
  induction actions generalizing s with
  | nil => exact h
  | cons action rest ih =>
    refine ih (s := s.act action) ?_
    rcases hb : s.batch? action with _ | batch
    · by_cases hc : action = .clear
      · subst hc
        exact hclear s h
      · exact hsteady s _ (act_steady hb hc) (act_log s action) h
    · obtain ⟨htakes, call, hmem⟩ := act_of_batch hb
      exact hbatch s _ call batch htakes (act_log s action) hmem h

end Session

end Desk

/-! ## Indexes -/

section

variable [Record R] [Index R ι]

/-- A relation between entries and index that holds while nothing is held, and that every change
keeps which fits the entries. -/
structure Index.Tracks (P : Std.ExtTreeMap String R → ι → Prop) : Prop where
  empty : P ∅ (Index.empty R)
  observe : ∀ {entries index c}, Live entries → P entries index → c.Fits entries →
    P (c.replay entries) (Index.observe index c)

namespace Index.Tracks

variable {P : Std.ExtTreeMap String R → ι → Prop} {entries : Std.ExtTreeMap String R} {index : ι}
  {changes : List (Change R)}

theorem observeAll (h : Tracks P) (hl : Live entries) (hp : P entries index)
    (hf : Fitting entries changes) :
    P (replayAll entries changes) (Index.observeAll index changes) := by
  induction changes generalizing entries index with
  | nil => exact hp
  | cons c rest ih => exact ih (hl.replay hf.1) (h.observe hl hp hf.1) hf.2

theorem takesIn (h : Tracks P) {m m' : Replica R ι} {batch : List R} (hl : Live m.entries)
    (hp : P m.entries m.index) (ht : m.TakesIn batch m') :
    Live m'.entries ∧ P m'.entries m'.index := by
  obtain ⟨hfit, hent, -⟩ := merge_replays m.entries batch
  rw [ht.entries, ht.index]
  refine ⟨hl.merge batch, ?_⟩
  rw [← hent]
  exact h.observeAll hl hp hfit

/-- **Indexes follow.** In every session the entries are live, and the index is to them as told. -/
theorem run (h : Tracks P) (kind : CacheKind) (skew : Span) (buffer : Nat) (now : Instant)
    (actions : List (Desk.Action R)) :
    let m := ((Desk.Session.start kind skew buffer now : Desk.Session R ι).run
      actions).refresher.replica
    Live m.entries ∧ P m.entries m.index := by
  refine Desk.Session.run_induction
    (P := fun s => Live s.refresher.replica.entries ∧
      P s.refresher.replica.entries s.refresher.replica.index) ?_ ?_ ?_ ⟨.empty, h.empty⟩ actions
  · intro s s' hs _ hp
    rw [hs.entries, hs.index]
    exact hp
  · exact fun s s' call batch ht _ _ ⟨hl, hp⟩ => h.takesIn hl hp ht
  · exact fun s _ => ⟨.empty, h.empty⟩

end Index.Tracks

end

end GovernanceCache
