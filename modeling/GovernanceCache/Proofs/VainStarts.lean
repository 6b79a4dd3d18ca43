import GovernanceCache.Proofs.HeldCalls
import GovernanceCache.Proofs.ReplicaPulls

/-!
# Starts that were in vain

A start is in vain if it ends with a fault, or is dropped before it ends. Once every start that was
asked for was in vain, no refresh loop runs and no call that a start led is registered any more. A
manager whose starts all ended with faults can be started again, and asks the store anew. A start
that was dropped while it loaded its kinds leaves the mark of the manager behind: every further one
is refused.

1. The calls that are registered are held by tasks that run (`lasting_led`), so a task that is no
   more has none.
2. `Marked` goes along with the mark: it is set exactly while one start stands, that is, was asked
   for and has not failed; a loop runs only if a start has succeeded (`Marked.step`).
3. A start that begins asks the store for every scheduled kind that nobody else refreshes
   (`beginWarmUps_asks`).
-/

namespace GovernanceCache

open World

variable {k : CacheKind}

/-! ## Calls that are registered -/

/-- The calls that the cache has registered are led by those who hold them. -/
def LedBy (k : CacheKind) (c : Cache k) (calls : List Nat) : Prop :=
  c.replica.kind = k ∧ c.flights.Led (calls.map fun call => (k.name, call))

theorem LedBy.key_eq {c : Cache k} {calls : List Nat} (h : LedBy k c calls) : c.key = k.name :=
  congrArg CacheKind.name h.1

/-- A leader whose call is over does not hold it any more. -/
theorem LedBy.close {c : Cache k} {calls : List Nat} {call : Nat} (h : LedBy k c (call :: calls))
    (p : Progress Outcome) :
    (c.flights.close c.key call p).Led (calls.map fun call => (k.name, call)) := by
  rw [h.key_eq]
  exact h.2.close_head p

/-- Every operation of a cache leaves its registered calls to those who hold them. -/
theorem lasting_led : Lasting LedBy where
  perm hp h := ⟨h.1, h.2.perm (hp.map _)⟩
  enter {k c calls} now h := by
    have he := c.enter_entering now
    have hlead := h.2.lead k.name
    rw [← h.key_eq] at hlead
    generalize c.enter now = entered at he ⊢
    cases he with
    | follows call hk => exact h
    | refused hk hc =>
      have hclosed := hlead.close_head
        (.finished (.error (.closed c.key)) : Progress Outcome)
      rw [h.key_eq] at hclosed ⊢
      exact ⟨h.1, hclosed⟩
    | leads hk hc ticket =>
      rw [h.key_eq] at hlead ⊢
      exact ⟨h.1, hlead⟩
  settle ticket answer h :=
    ⟨(Replica.closePull_keeps _ ticket answer).1.trans h.1, h.close _⟩
  abandon h := ⟨h.1, h.close .abandoned⟩
  share h := h
  clear h := ⟨h.1, h.2.forget _⟩
  close h := h
  look _ h := h

/-! ## What the store is asked -/

namespace World

variable {w : World}

theorem pollStage_asked (w : World) (k : CacheKind) (stage : Stage (OpenPull k.Row)) :
    (w.pollStage k stage).1.asked = w.asked := by
  unfold pollStage
  cases stage with
  | pulling call ticket pull =>
    simp only
    split <;> rfl
  | following call =>
    simp only
    split <;> rfl

/-- A caller that leads asks the store. -/
theorem enterRefresh_of_pull {cache : Cache k} {call : Nat} {ticket : Ticket}
    (h : (w.cache k).enter w.wallClock = (cache, .pull call ticket)) :
    (w.enterRefresh k).1.asked = ⟨k, ticket.since, ticket.firstLoad⟩ :: w.asked := by
  have hpolled := pollStage_asked ((w.withCache k cache).ask k ticket).1 k
    (.pulling call ticket ((w.withCache k cache).ask k ticket).2)
  unfold enterRefresh
  simp only [h]
  split <;>
  · rename_i hp
    rw [hp] at hpolled
    exact hpolled

/-- What was asked stays on record while a caller enters. -/
theorem enterRefresh_asked (w : World) (k : CacheKind) :
    w.asked <:+ (w.enterRefresh k).1.asked := by
  rcases h : (w.cache k).enter w.wallClock with ⟨cache, ⟨call, ticket⟩ | call | result⟩
  · rw [enterRefresh_of_pull h]
    exact List.suffix_cons _ w.asked
  all_goals
    unfold enterRefresh
    rw [h]
    exact List.suffix_rfl

/-- The caller of an open cache that nobody refreshes asks the store. -/
theorem enterRefresh_asks (hfree : (w.cache k).flights.current[(w.cache k).key]? = none)
    (hopen : (w.replica k).closed = false) :
    ∃ a, a.kind = k ∧ (w.enterRefresh k).1.asked = a :: w.asked := by
  have he := (w.cache k).enter_entering w.wallClock
  rcases h : (w.cache k).enter w.wallClock with ⟨cache, ⟨call, ticket⟩ | call | result⟩
  · exact ⟨_, rfl, enterRefresh_of_pull h⟩
  all_goals rw [h] at he
  · cases he with
    | follows _ hk => exact absurd (hfree.symm.trans hk) nofun
  · cases he with
    | refused _ hc => exact absurd (hopen.symm.trans hc) nofun

theorem concludeRefresh_asked (w : World) (k : CacheKind) (thorough : Bool)
    (refreshed : Refreshed) : w.asked <:+ (w.concludeRefresh k thorough refreshed).1.asked := by
  have henter := enterRefresh_asked w k
  unfold concludeRefresh
  split
  · split <;> (rename_i he; rw [he] at henter; exact henter)
  · exact List.suffix_rfl

theorem beginRefreshing_asked (w : World) (k : CacheKind) (thorough : Bool) :
    (w.enterRefresh k).1.asked <:+ (w.beginRefreshing k thorough).1.asked := by
  unfold beginRefreshing
  split
  · rename_i he
    exact he ▸ List.suffix_rfl
  · rename_i he
    rw [he]
    exact concludeRefresh_asked _ k thorough _

theorem expire_asked (w : World) (k : CacheKind) (deadline : Nat) (warmUp : WarmUp k) :
    (w.expire k deadline warmUp).1.asked = w.asked := by
  unfold expire dropRefreshing
  split
  · split
    · split <;> rfl
    · rfl
  · rfl

theorem beginWarmUp_asked (w : World) (k : CacheKind) (deadline : Nat) :
    (w.enterRefresh k).1.asked <:+ (w.beginWarmUp k deadline).1.asked := by
  show _ <:+ ((w.beginRefreshing k true).1.expire k deadline _).1.asked
  rw [expire_asked]
  exact beginRefreshing_asked w k true

theorem beginWarmUps_asked (w : World) (deadline : Nat) (kinds : List CacheKind) :
    w.asked <:+ (w.beginWarmUps deadline kinds).1.asked := by
  induction kinds generalizing w with
  | nil => exact List.suffix_rfl
  | cons k rest ih =>
    exact ((enterRefresh_asked w k).trans (beginWarmUp_asked w k deadline)).trans (ih _)

/-- The store was asked for the kind since then. -/
def AskedSince (k : CacheKind) (before after : List Asked) : Prop :=
  ∃ told, after = told ++ before ∧ ∃ a ∈ told, a.kind = k

/-- First loads ask the store for every kind whose cache is open and that nobody refreshes. -/
theorem beginWarmUps_asks {deadline : Nat} {kinds : List CacheKind} (hk : k ∈ kinds)
    (hfree : (w.cache k).flights.current[(w.cache k).key]? = none)
    (hopen : (w.replica k).closed = false) :
    AskedSince k w.asked (w.beginWarmUps deadline kinds).1.asked := by
  induction kinds generalizing w with
  | nil => cases hk
  | cons l rest ih =>
    have hrest := beginWarmUps_asked (w.beginWarmUp l deadline).1 deadline rest
    by_cases hl : k = l
    · subst hl
      obtain ⟨a, ha, heq⟩ := enterRefresh_asks hfree hopen
      have hfirst := beginWarmUp_asked w k deadline
      rw [heq] at hfirst
      obtain ⟨told, htold⟩ := hfirst.trans hrest
      exact ⟨told ++ [a], by rw [List.append_assoc]; exact htold.symm,
        a, List.mem_append_right _ List.mem_cons_self, ha⟩
    · have hsame : (w.beginWarmUp l deadline).1.cache k = w.cache k :=
        (beginWarmUp_touches w l deadline).manager.cache k hl
      have hopen' : ((w.beginWarmUp l deadline).1.cache k).replica.closed = false := by
        rw [hsame]
        exact hopen
      rw [← hsame] at hfree
      obtain ⟨told, htold, a, ha, hkind⟩ := ih ((List.mem_cons.mp hk).resolve_left hl) hfree hopen'
      obtain ⟨more, hmore⟩ := (enterRefresh_asked w l).trans (beginWarmUp_asked w l deadline)
      refine ⟨told ++ more, ?_, a, List.mem_append_left _ ha, hkind⟩
      rw [List.append_assoc, hmore]
      exact htold

end World

/-! ## The mark of the manager -/

/-- The start has ended with a fault. -/
def TaskState.isFailed : TaskState → Bool
  | .finished (.outcome (.error _)) => true
  | _ => false

/-- A state that a start can be in. -/
def TaskState.isOfStart : TaskState → Bool
  | .running (.start ..) | .finished (.outcome _) | .aborted => true
  | _ => false

/-- The task is a refresh loop. -/
def TaskState.isLoop : TaskState → Bool
  | .running (.loop _) => true
  | _ => false

/-- The task is a start that has not ended. -/
def TaskState.isStarting : TaskState → Bool
  | .running (.start ..) => true
  | _ => false

namespace TaskState

variable {st : TaskState}

/-- A loop is no start, in whatever state. -/
theorem of_isLoop (h : st.isLoop = true) : st.isStarting = false ∧ st.isOfStart = false := by
  unfold isLoop at h
  split at h
  · exact ⟨rfl, rfl⟩
  · cases h

theorem of_isFailed (h : st.isFailed = true) : st.isStarting = false ∧ st.isOfStart = true := by
  unfold isFailed at h
  split at h
  · exact ⟨rfl, rfl⟩
  · cases h

theorem of_isPlain {a : Activity} (h : a.isPlain = true) :
    (running a).isStarting = false ∧ (running a).isLoop = false := by
  cases a <;> first | exact ⟨rfl, rfl⟩ | cases h

theorem of_ne_start {a : Activity} (h : ∀ deadline warmUps, a ≠ .start deadline warmUps) :
    (running a).isStarting = false := by
  cases a <;> first | rfl | exact absurd rfl (h _ _)

theorem of_mapPulls (f : PullChange) (a : Activity) :
    (running (a.mapPulls f)).isStarting = (running a).isStarting ∧
      (running (a.mapPulls f)).isLoop = (running a).isLoop := by
  cases a <;> exact ⟨rfl, rfl⟩

theorem isOfStart_of_isStarting (h : st.isStarting = true) : st.isOfStart = true := by
  unfold isStarting at h
  split at h
  · rfl
  · cases h

theorem isStarting_of_isOfStart {a : Activity} (h : (running a).isOfStart = true) :
    (running a).isStarting = true := by
  cases a <;> first | rfl | cases h

end TaskState

namespace Course

variable {s s' : Course} {task id : Nat} {st : TaskState} {loops : Prop}

/-- The start was asked for, and has not ended with a fault. -/
def Standing (s : Course) (task : Nat) : Prop :=
  .asked task .start ∈ s.log ∧
    ∃ st, s.world.taskState? task = some st ∧ st.isFailed = false

/-- The mark of the manager goes along with the starts and the loops. -/
structure Flagged (s : Course) : Prop where
  marked : s.world.manager.started = true ↔ ∃ task, s.Standing task
  sole : ∀ task other, s.Standing task → s.Standing other → task = other
  /-- What runs as a start was asked for as one, -/
  starting : ∀ id st, s.world.taskState? id = some st → st.isStarting = true →
    .asked id .start ∈ s.log
  /-- and conversely. -/
  started : ∀ id, .asked id .start ∈ s.log →
    ∃ st, s.world.taskState? id = some st ∧ st.isOfStart = true
  /-- A loop runs only if a start has succeeded. -/
  looping : ∀ id st, s.world.taskState? id = some st → st.isLoop = true →
    ∃ task, .asked task .start ∈ s.log ∧
      s.world.taskState? task = some (.finished (.outcome (.ok ())))

/-- One task is put into a state, and nothing is told of other starts; loops come only if they
may. -/
structure Shift (s s' : Course) (task : Nat) (st : TaskState) (loops : Prop) : Prop where
  self : s'.world.taskState? task = some st
  kept : ∀ id st, id ≠ task → s.world.taskState? id = some st → s'.world.taskState? id = some st
  came : ∀ id st, id ≠ task → s'.world.taskState? id = some st →
    s.world.taskState? id = some st ∨ loops ∧ st.isLoop = true
  asked : ∀ id, id ≠ task → (.asked id .start ∈ s'.log ↔ .asked id .start ∈ s.log)

namespace Shift

theorem of_advance {kinds : List CacheKind} {next : Activity ⊕ Reply} {rest : List Occurrence}
    {w : World} (h : Advance kinds task next rest w s s') :
    Shift s s' task (stateAfter next) (kinds ≠ []) where
  self := h.self
  kept id st hne hid := (h.others id hne).trans (taskState?_kept h.grows.tasks hid)
  came id st hne hid := by
    rw [h.others id hne] at hid
    rcases h.grows.taskState? hid with hid | ⟨k, hk, -, rfl⟩
    · exact Or.inl hid
    · exact Or.inr ⟨List.ne_nil_of_mem hk, rfl⟩
  asked id hne := ⟨fun he => h.earlier he hne rfl rfl, h.later⟩

/-- Another start stands as before. -/
theorem standing (h : Shift s s' task st loops) (hf : Flagged s) (hne : id ≠ task) :
    s'.Standing id ↔ s.Standing id := by
  constructor
  · rintro ⟨hasked, st', hst', hfailed⟩
    have hasked := (h.asked id hne).mp hasked
    obtain ⟨st'', hst, -⟩ := hf.started id hasked
    obtain rfl : st' = st'' := Option.some.inj (hst'.symm.trans (h.kept id st'' hne hst))
    exact ⟨hasked, st', hst, hfailed⟩
  · rintro ⟨hasked, st', hst', hfailed⟩
    exact ⟨(h.asked id hne).mpr hasked, st', h.kept id st' hne hst', hfailed⟩

/-- What was asked for as a start is one. -/
theorem started (h : Shift s s' task st loops) (hf : Flagged s)
    (hst : .asked task .start ∈ s'.log → st.isOfStart = true) (hasked : .asked id .start ∈ s'.log) :
    ∃ st, s'.world.taskState? id = some st ∧ st.isOfStart = true := by
  by_cases hne : id = task
  · subst hne
    exact ⟨st, h.self, hst hasked⟩
  · obtain ⟨st', hst', hof⟩ := hf.started id ((h.asked id hne).mp hasked)
    exact ⟨st', h.kept id st' hne hst', hof⟩

end Shift

namespace Flagged

/-- A task that was no start comes or goes on, and is none unless it was refused. -/
theorem pass (h : Flagged s) (hs : Shift s s' task st loops) (hloops : ¬ loops)
    (hmark : s'.world.manager.started = s.world.manager.started)
    (hasked : .asked task .start ∉ s.log)
    (hasked' : .asked task .start ∈ s'.log → st.isFailed = true) (hst : st.isStarting = false)
    (hloop : st.isLoop = true → ∃ st', s.world.taskState? task = some st' ∧ st'.isLoop = true) :
    Flagged s' := by
  have hstanding : ∀ id, s'.Standing id ↔ s.Standing id := by
    intro id
    by_cases hid : id = task
    · subst hid
      refine iff_of_false ?_ fun h => hasked h.1
      rintro ⟨hid, st', hst', hfailed⟩
      obtain rfl := Option.some.inj (hst'.symm.trans hs.self)
      rw [hasked' hid] at hfailed
      cases hfailed
    · exact hs.standing h hid
  refine ⟨?_, ?_, ?_, ?_, ?_⟩
  · rw [hmark, h.marked]
    exact exists_congr fun id => (hstanding id).symm
  · exact fun t t' ht ht' => h.sole t t' ((hstanding t).mp ht) ((hstanding t').mp ht')
  · intro id st' hid hstarting
    by_cases hne : id = task
    · subst hne
      obtain rfl := Option.some.inj (hid.symm.trans hs.self)
      rw [hst] at hstarting
      cases hstarting
    · rcases hs.came id st' hne hid with hold | ⟨hcame, -⟩
      · exact (hs.asked id hne).mpr (h.starting id st' hold hstarting)
      · exact absurd hcame hloops
  · exact fun id => hs.started h fun hid => (TaskState.of_isFailed (hasked' hid)).2
  · intro id st' hid hl
    have hold : ∃ st' other, s.world.taskState? other = some st' ∧ st'.isLoop = true := by
      by_cases hne : id = task
      · subst hne
        obtain rfl := Option.some.inj (hid.symm.trans hs.self)
        exact (hloop hl).imp fun st' hst' => ⟨id, hst'⟩
      · rcases hs.came id st' hne hid with hold | ⟨hcame, -⟩
        · exact ⟨st', id, hold, hl⟩
        · exact absurd hcame hloops
    obtain ⟨st', other, hother, hl'⟩ := hold
    obtain ⟨start, hstart, hok⟩ := h.looping other st' hother hl'
    have hne : start ≠ task := fun heq => hasked (heq ▸ hstart)
    exact ⟨start, (hs.asked start hne).mpr hstart, hs.kept start _ hne hok⟩

/-- A start goes on that alone may stand. -/
theorem move (h : Flagged s) (hs : Shift s s' task st loops)
    (hfree : ∀ id, id ≠ task → ¬ s.Standing id) (hasked : .asked task .start ∈ s'.log)
    (hst : st.isOfStart = true) (hmark : s'.world.manager.started = !st.isFailed)
    (hnew : s.world.taskState? task ≠ some (.finished (.outcome (.ok ()))))
    (hloops : loops → st = .finished (.outcome (.ok ()))) : Flagged s' := by
  have honly : ∀ id, s'.Standing id ↔ id = task ∧ st.isFailed = false := by
    intro id
    by_cases hid : id = task
    · subst hid
      refine ⟨fun ⟨_, st', hst', hfailed⟩ => ⟨rfl, ?_⟩, fun hf => ⟨hasked, st, hs.self, hf.2⟩⟩
      rwa [Option.some.inj (hs.self.symm.trans hst')]
    · exact iff_of_false (fun h' => hfree id hid ((hs.standing h hid).mp h')) fun h' => hid h'.1
  refine ⟨?_, ?_, ?_, ?_, ?_⟩
  · rw [hmark, Bool.not_eq_true']
    exact ⟨fun hf => ⟨task, (honly task).mpr ⟨rfl, hf⟩⟩, fun ⟨id, hid⟩ => ((honly id).mp hid).2⟩
  · exact fun t t' ht ht' => ((honly t).mp ht).1.trans ((honly t').mp ht').1.symm
  · intro id st' hid hstarting
    by_cases hne : id = task
    · exact hne ▸ hasked
    · rcases hs.came id st' hne hid with hold | ⟨-, hl⟩
      · exact (hs.asked id hne).mpr (h.starting id st' hold hstarting)
      · rw [(TaskState.of_isLoop hl).1] at hstarting
        cases hstarting
  · exact fun id => hs.started h fun _ => hst
  · intro id st' hid hl
    by_cases hne : id = task
    · subst hne
      obtain rfl := Option.some.inj (hid.symm.trans hs.self)
      rw [(TaskState.of_isLoop hl).2] at hst
      cases hst
    · rcases hs.came id st' hne hid with hold | ⟨hcame, -⟩
      · -- The start that brought the loop stands, so it is the one that goes on: it cannot.
        obtain ⟨start, hstart, hok⟩ := h.looping id st' hold hl
        by_cases heq : start = task
        · exact absurd (heq ▸ hok) hnew
        · exact absurd ⟨hstart, _, hok, rfl⟩ (hfree start heq)
      · exact ⟨task, hasked, by rw [hs.self, hloops hcame]⟩

/-- A step that leaves the states of tasks and the mark alone, and tells of no start. -/
theorem still (h : Flagged s) (ht : ∀ id, s'.world.taskState? id = s.world.taskState? id)
    (hmark : s'.world.manager.started = s.world.manager.started)
    (hasked : ∀ id, .asked id .start ∈ s'.log ↔ .asked id .start ∈ s.log) : Flagged s' := by
  have hstanding : ∀ id, s'.Standing id ↔ s.Standing id := fun id => by
    unfold Standing
    rw [ht, hasked]
  refine ⟨?_, ?_, ?_, ?_, ?_⟩
  · rw [hmark, h.marked]
    exact exists_congr fun id => (hstanding id).symm
  · exact fun t t' ht ht' => h.sole t t' ((hstanding t).mp ht) ((hstanding t').mp ht')
  · intro id st hid hst
    exact (hasked id).mpr (h.starting id st (ht id ▸ hid) hst)
  · intro id hid
    rw [ht]
    exact h.started id ((hasked id).mp hid)
  · intro id st hid hl
    obtain ⟨start, hstart, hok⟩ := h.looping id st (ht id ▸ hid) hl
    exact ⟨start, (hasked start).mpr hstart, (ht start).trans hok⟩

/-- Nobody else stands while a start runs. -/
theorem alone (h : Flagged s) (hs : s.Standing task) : ∀ id, id ≠ task → ¬ s.Standing id :=
  fun id hne hid => hne (h.sole id task hid hs)

/-- A task that runs but is no start was not asked for as one. -/
theorem unasked (h : Flagged s) {a : Activity} (ht : s.world.taskState? task = some (.running a))
    (ha : (TaskState.running a).isStarting = false) : .asked task .start ∉ s.log := by
  intro hasked
  obtain ⟨st, hst, hof⟩ := h.started task hasked
  obtain rfl := Option.some.inj (ht.symm.trans hst)
  rw [TaskState.isStarting_of_isOfStart hof] at ha
  cases ha

/-- A start that runs stands. -/
theorem standing_of_running (h : Flagged s) {deadline : Nat} {warmUps : WarmUps}
    (ht : s.world.taskState? task = some (.running (.start deadline warmUps))) :
    s.Standing task := ⟨h.starting task _ ht rfl, _, ht, rfl⟩

/-- A task that runs is put into a state in which a start would still stand. -/
theorem put (h : Flagged s) {a : Activity} (st : TaskState)
    (ht : s.world.taskState? task = some (.running a))
    (hstate : ∀ id, s'.world.taskState? id = (s.world.setTask task st).taskState? id)
    (hmark : s'.world.manager.started = s.world.manager.started)
    (hasked : ∀ id, .asked id .start ∈ s'.log ↔ .asked id .start ∈ s.log)
    (hfailed : st.isFailed = false)
    (hof : (TaskState.running a).isStarting = true → st.isOfStart = true)
    (hst : (TaskState.running a).isStarting = false → st.isStarting = false)
    (hloop : st.isLoop = true → (TaskState.running a).isLoop = true) : Flagged s' := by
  have hs : Shift s s' task st False := by
    refine ⟨?_, ?_, ?_, fun id _ => hasked id⟩
    · rw [hstate]
      exact taskState?_setTask_self ht
    · intro id st hne hid
      rw [hstate, taskState?_setTask_of_ne hne]
      exact hid
    · intro id st hne hid
      rw [hstate, taskState?_setTask_of_ne hne] at hid
      exact Or.inl hid
  rcases ha : (TaskState.running a).isStarting with _ | _
  · have hun := h.unasked ht ha
    exact h.pass hs not_false hmark hun (fun he => absurd ((hasked task).mp he) hun) (hst ha)
      fun hl => ⟨_, ht, hloop hl⟩
  · have hstands : s.Standing task := ⟨h.starting task _ ht ha, _, ht, rfl⟩
    refine h.move hs (h.alone hstands) ((hasked task).mpr hstands.1) (hof ha) ?_ ?_ nofun
    · rw [hmark, hfailed]
      exact h.marked.mpr ⟨task, hstands⟩
    · rw [ht]
      nofun

/-- A task that runs is dropped; a start that is dropped stands for good. -/
theorem drop (h : Flagged s) {a : Activity} (ht : s.world.taskState? task = some (.running a))
    (hw : s'.world = (s.world.drop a).setTask task .aborted)
    (hasked : ∀ id, .asked id .start ∈ s'.log ↔ .asked id .start ∈ s.log) : Flagged s' := by
  refine h.put .aborted ht ?_ ?_ hasked rfl (fun _ => rfl) (fun _ => rfl) nofun
  · intro id
    rw [hw, taskState?_setTask, taskState?_setTask, taskState?_congr (drop_tasks s.world a).1]
  · rw [hw]
    exact drop_started s.world a

end Flagged

/-! ### Starts that begin and go on -/

/-- However a start goes on, the mark tells whether it has failed, and loops come only if it has
succeeded. -/
theorem resumeStart_marks {w : World} {deadline : Nat} {warmUps : WarmUps}
    {kinds : List CacheKind} (hmark : w.manager.started = true)
    (hg : w.Grows kinds (w.resumeStart deadline warmUps).1) :
    let resumed := w.resumeStart deadline warmUps
    (stateAfter resumed.2).isOfStart = true ∧
      resumed.1.manager.started = !(stateAfter resumed.2).isFailed ∧
      (kinds ≠ [] → stateAfter resumed.2 = .finished (.outcome (.ok ()))) := by
  have h := resumeStart_resumption w deadline warmUps
  generalize w.resumeStart deadline warmUps = resumed at h hg ⊢
  cases h with
  | waits =>
    obtain rfl := hg.kinds_eq (.of_eq rfl rfl)
    exact ⟨rfl, hmark, fun hne => absurd rfl hne⟩
  | succeeds results =>
    rw [foldl_spawnLoop]
    exact ⟨rfl, hmark, fun _ => rfl⟩
  | fails results hr hf =>
    obtain rfl := hg.kinds_eq (.of_eq rfl rfl)
    refine ⟨rfl, ?_, fun hne => absurd rfl hne⟩
    rcases hagg : Fault.aggregate (faultsOf results) with fault | ⟨⟨⟩⟩
    · rfl
    · exact absurd (aggregate_eq_ok.mp hagg) hf

namespace Flagged

variable {kinds : List CacheKind} {w : World} {next : Activity ⊕ Reply}

/-- No start is asked for by another command. -/
theorem not_asked_by_begin {c : Command} {n : Nat} (hc : c ≠ .start) : .asked id .start ∉
    spawnings n kinds ++ (tellEnd task next ++ (w.tellBegin task c ++ [.asked task c])) := by
  rw [tellBegin_of_ne w task hc]
  intro h
  rcases List.mem_append.mp h with h | h
  · obtain ⟨_, _, heq, -⟩ := mem_spawnings h
    cases heq
  · rcases List.mem_append.mp h with h | h
    · obtain ⟨_, -, heq⟩ := mem_tellEnd.mp h
      cases heq
    · cases List.mem_singleton.mp h
      exact hc rfl

/-- A start is asked for: it is refused, or it begins and stands alone. -/
theorem askStart (h : Flagged s) (hs : Shift s s' task (stateAfter next) (kinds ≠ []))
    (hb : s.world.begin .start = (w, next)) (hg : s.world.Grows kinds w)
    (hmark : s'.world.manager.started = w.manager.started) (hasked : .asked task .start ∈ s'.log)
    (hfresh : .asked task .start ∉ s.log) (hnone : ∀ st, s.world.taskState? task ≠ some st) :
    Flagged s' := by
  by_cases hstarted : s.world.manager.started = true
  · rw [begin_start_of_started hstarted] at hb
    obtain ⟨rfl, rfl⟩ := Prod.mk.inj hb
    obtain rfl := hg.kinds_eq (.of_eq rfl rfl)
    exact h.pass hs (fun hne => hne rfl) hmark hfresh (fun _ => rfl) rfl nofun
  · rw [begin_start_of_idle hstarted] at hb
    have ht := s.world.firstLoads_touches
    have hfree : ∀ id, ¬ s.Standing id := fun id hid => hstarted (h.marked.mpr ⟨id, hid⟩)
    have hwarm : s.world.firstLoads.1.Grows kinds w :=
      hg.rebase ht.tasks.symm ht.nextTask.symm ht.manager.settings.symm ht.now.symm
    have hm := @resumeStart_marks s.world.firstLoads.1 s.world.loadLimit s.world.firstLoads.2
      kinds (ht.started.trans rfl)
    rw [hb] at hm
    obtain ⟨hof, hm, hl⟩ := hm hwarm
    exact h.move hs (fun id _ => hfree id) hasked hof (hmark.trans hm) (hnone _) hl

/-- Another command is given. -/
theorem askOther {c : Command} (h : Flagged s) (hc : c ≠ .start)
    (hs : Shift s s' task (stateAfter next) (kinds ≠ [])) (hb : s.world.begin c = (w, next))
    (hg : s.world.Grows kinds w) (hmark : s'.world.manager.started = w.manager.started)
    (hfresh : .asked task .start ∉ s.log) (hasked : .asked task .start ∉ s'.log) :
    Flagged s' := by
  obtain ⟨htasks, hnext, hsame⟩ := begin_unmarked s.world hc
  rw [hb] at htasks hnext hsame
  obtain rfl := hg.kinds_eq (.of_eq htasks hnext)
  have hplain : (stateAfter next).isStarting = false ∧ (stateAfter next).isLoop = false := by
    cases next with
    | inl a => exact TaskState.of_isPlain (begin_isPlain hc (congrArg Prod.snd hb))
    | inr reply => exact ⟨rfl, rfl⟩
  refine h.pass hs (fun hne => hne rfl) (hmark.trans hsame) hfresh (fun he => absurd he hasked)
    hplain.1 fun hl => ?_
  rw [hplain.2] at hl
  cases hl

/-- A command is given. -/
theorem ask {c : Command} (h : Flagged s) (hn : s.Numbered) (hb : s.world.begin c = (w, next))
    (hg : s.world.Grows kinds w) (hw : s'.world = (w.addTask (stateAfter next)).1)
    (hlog : s'.log = spawnings s.world.nextTask kinds ++ (tellEnd w.nextTask next ++
      (s.world.tellBegin w.nextTask c ++ [.asked w.nextTask c])) ++ s.log) : Flagged s' := by
  have hfresh : .asked w.nextTask .start ∉ s.log := by
    intro he
    have hlt := hn.log _ he _ rfl
    rw [hg.nextTask] at hlt
    omega
  have hnone : ∀ st, s.world.taskState? w.nextTask ≠ some st := by
    intro st hst
    have hlt := hn.world.lt_of_taskState? hst
    rw [hg.nextTask] at hlt
    omega
  have hmark : s'.world.manager.started = w.manager.started := by
    rw [hw]
    rfl
  have hadvance : Advance kinds w.nextTask next (s.world.tellBegin w.nextTask c ++
      [.asked w.nextTask c]) w s s' := by
    refine ⟨hlog, fun e => task_of_asked, hg, ?_, ?_⟩ <;> rw [hw]
    · exact fun id hid => taskState?_addTask_of_ne hid
    · exact taskState?_addTask_self (hn.world.grow hg) _
  have hs := Shift.of_advance hadvance
  by_cases hc : c = .start
  · subst hc
    exact h.askStart hs hb hg hmark (by rw [hlog]; simp) hfresh hnone
  · refine h.askOther hc hs hb hg hmark hfresh fun hasked => ?_
    rcases List.mem_append.mp (hlog ▸ hasked) with hnew | hold
    · exact not_asked_by_begin hc hnew
    · exact hfresh hold

/-- No command is given by a poll. -/
theorem not_asked_by_poll {c : Command} {a : Activity} {n : Nat} : .asked id c ∉
    spawnings n kinds ++ (tellEnd task next ++ w.tellWithin task a) := by
  intro h
  rcases List.mem_append.mp h with h | h
  · obtain ⟨_, _, heq, -⟩ := mem_spawnings h
    cases heq
  · rcases List.mem_append.mp h with h | h
    · obtain ⟨_, -, heq⟩ := mem_tellEnd.mp h
      cases heq
    · obtain ⟨_, _, -, k, -, ⟨_, heq⟩ | ⟨_, heq⟩⟩ | ⟨_, -, -, heq⟩ := mem_tellWithin h <;>
        cases heq

/-- What is no start does not become one, and only a loop goes on as a loop. -/
theorem stateAfter_poll {a : Activity} (ha : ∀ deadline warmUps, a ≠ .start deadline warmUps)
    {w' : World} (hp : w.poll a = (w', some next)) :
    (stateAfter next).isStarting = false ∧
      ((stateAfter next).isLoop = true → (TaskState.running a).isLoop = true) := by
  cases next with
  | inr reply => exact ⟨rfl, nofun⟩
  | inl b =>
    by_cases hplain : a.isPlain
    · obtain ⟨hb, -⟩ := poll_plain hplain (congrArg Prod.snd hp)
      obtain ⟨hstart, hloop⟩ := TaskState.of_isPlain hb
      exact ⟨hstart, fun hl => absurd (hloop.symm.trans hl) nofun⟩
    · cases a with
      | start deadline warmUps => exact absurd rfl (ha deadline warmUps)
      | loop l =>
        obtain ⟨l', rfl, -⟩ := pollLoop_loop (congrArg Prod.snd hp)
        exact ⟨rfl, fun _ => rfl⟩
      | refresh | stop | sleep | watchSize | findNamespace | pull | join =>
        exact absurd rfl hplain

/-- A task is polled and moves. -/
theorem poll (h : Flagged s) {a : Activity}
    (ht : s.world.taskState? task = some (.running a)) (hp : s.world.poll a = (w, some next))
    (hg : s.world.Grows kinds w) (hw : s'.world = w.setTask task (stateAfter next))
    (hlog : s'.log = spawnings s.world.nextTask kinds ++ (tellEnd task next ++
      s.world.tellWithin task a) ++ s.log) : Flagged s' := by
  have hmark : s'.world.manager.started = w.manager.started := by
    rw [hw]
    rfl
  have hadvance : Advance kinds task next (s.world.tellWithin task a) w s s' := by
    refine ⟨hlog, fun e => task_of_moved, hg, ?_, ?_⟩ <;> rw [hw]
    · exact fun id hid => taskState?_setTask_of_ne hid
    · exact taskState?_setTask_self (taskState?_kept hg.tasks ht)
  have hs := Shift.of_advance hadvance
  by_cases ha : ∃ deadline warmUps, a = .start deadline warmUps
  · obtain ⟨deadline, warmUps, rfl⟩ := ha
    have hstands := h.standing_of_running ht
    have hloads := pollWarmUps_touches s.world deadline warmUps
    simp only [World.poll, pollStart] at hp
    split at hp
    · obtain ⟨hwarm, hnext⟩ := Prod.mk.inj hp
      have hstarted := h.marked.mpr ⟨task, hstands⟩
      have hgrows : (s.world.pollWarmUps deadline warmUps).1.Grows kinds w :=
        hg.rebase hloads.tasks.symm hloads.nextTask.symm hloads.manager.settings.symm
          hloads.now.symm
      obtain ⟨hof, hm, hl⟩ := resumeStart_marks (hloads.started.trans hstarted) (hwarm ▸ hgrows)
      rw [Option.some.inj hnext] at hof hm hl
      rw [hwarm] at hm
      refine h.move hs (h.alone hstands) (hadvance.later hstands.1) hof (hmark.trans hm) ?_ hl
      rw [ht]
      simp
    · cases hp
  · have ha : ∀ deadline warmUps, a ≠ .start deadline warmUps := fun d ws heq => ha ⟨d, ws, heq⟩
    obtain ⟨htasks, hnext, hsame⟩ := poll_unmarked s.world ha
    rw [hp] at htasks hnext hsame
    obtain rfl := hg.kinds_eq (.of_eq htasks hnext)
    have hkind := stateAfter_poll ha hp
    have hun := h.unasked ht (TaskState.of_ne_start ha)
    refine h.pass hs (fun hne => hne rfl) (hmark.trans hsame) hun ?_ hkind.1 fun hl =>
      ⟨_, ht, hkind.2 hl⟩
    intro hasked
    rcases List.mem_append.mp (hlog ▸ hasked) with hnew | hold
    · exact absurd hnew not_asked_by_poll
    · exact absurd hold hun

/-- Every step keeps the mark, the starts and the loops together. -/
theorem step (h : Flagged s) (hn : s.Numbered) (hs : Step s s') : Flagged s' := by
  cases hs with
  | asked c w next kinds hb hg hk => exact h.ask hn hb hg rfl rfl
  | moved task a w next kinds ht hp hg hk => exact h.poll ht hp hg rfl rfl
  | waited task a w ht hp hg =>
    have hmark := @poll_waits_started a s.world (congrArg Prod.snd hp)
    rw [hp] at hmark
    have htasks : w.tasks = s.world.tasks := by simpa [loopTasks] using hg.tasks
    exact h.still (taskState?_congr htasks) hmark fun _ => .rfl
  | dropped task a ht =>
    exact h.drop ht rfl fun id => by simp
  | answered task a f ht =>
    obtain ⟨hstart, hloop⟩ := TaskState.of_mapPulls f a
    refine h.put (.running (a.mapPulls f)) ht (fun _ => rfl) rfl (fun _ => .rfl) rfl (fun ha => ?_)
      (fun ha => ?_) fun hl => ?_
    · exact TaskState.isOfStart_of_isStarting (hstart.trans ha)
    · exact hstart.trans ha
    · exact hloop.symm.trans hl
  | opened requests =>
    obtain ⟨⟨o, opened, heq⟩, -⟩ := s.world.manager.openAll_spec requests
    exact h.still (fun _ => rfl) (by simp only [heq]) fun id => by simp
  | cleared => exact h.still (fun _ => rfl) (Manager.clear_started _) fun _ => .rfl
  | closed =>
    have hloops : Flagged { s with world := s.world.tasks.foldl endLoop s.world } := by
      refine @endLoops_induction s.world (fun w => Flagged { s with world := w }) hn.world ?_ h
      intro w id loop hw ht
      exact hw.drop ht (abort_of_running ht) fun _ => .rfl
    exact hloops.still (fun _ => rfl) (Manager.close_started _) fun _ => .rfl
  | outside | enrolled | withdrawn => exact h.still (fun _ => rfl) rfl fun _ => .rfl
  | idle => exact h

end Flagged

end Course

/-! ## Starts in vain -/

/-- A start in this state has failed, or was dropped before it ended. -/
def TaskState.isVain : TaskState → Bool
  | .finished (.outcome (.error _)) | .aborted => true
  | _ => false

namespace Course

variable {s : Course} {k : CacheKind}

/-- Every start that was asked for has failed, or was dropped before it ended. -/
def Vain (s : Course) : Prop :=
  ∀ task, .asked task .start ∈ s.log →
    ∃ st, s.world.taskState? task = some st ∧ st.isVain = true

/-- Some start was dropped before it ended. -/
def Dropped (s : Course) : Prop :=
  ∃ task, .asked task .start ∈ s.log ∧ s.world.taskState? task = some .aborted

/-- What holds when every start was in vain. -/
structure Unburdened (s : Course) : Prop where
  /-- No refresh loop runs. -/
  idle : ∀ id loop, s.world.taskState? id ≠ some (.running (.loop loop))
  /-- Whatever call is registered is held by a task that runs and is no start. -/
  released : ∀ k key call, (s.world.cache k).flights.current[key]? = some call → key = k.name ∧
    ∃ id a, s.world.taskState? id = some (.running a) ∧ call ∈ a.held k ∧
      .asked id .start ∉ s.log
  /-- A further start is refused exactly if one was dropped. -/
  refused : .refused s.world.nextTask ∈ (s.act (.ask .start)).log ↔ s.Dropped
  /-- Otherwise it asks the store for every scheduled kind that no task refreshes. -/
  asks : ¬ s.Dropped → ∀ k, s.world.manager.isScheduled k = true →
    (s.world.replica k).closed = false →
    (∀ id a, s.world.taskState? id = some (.running a) → a.held k = []) →
    AskedSince k s.world.asked (s.act (.ask .start)).world.asked

/-- A call that is held is held by a task that runs. -/
theorem running_of_held (hn : s.world.Numbered) {call : Nat} (h : call ∈ s.world.held k) :
    ∃ id a, s.world.taskState? id = some (.running a) ∧ call ∈ a.held k := by
  obtain ⟨t, ht, hcall⟩ := List.mem_flatMap.mp h
  have hstate := taskState?_of_mem hn.nodup ht
  rcases hst : t.state with a | reply | _
  · rw [hst] at hstate hcall
    exact ⟨t.id, a, hstate, hcall⟩
  all_goals
    rw [hst] at hcall
    cases hcall

/-- The registered call of a cache is held by a task that runs. -/
theorem registered_held (hn : s.world.Numbered) (h : s.world.Bears LedBy s.world.held)
    {key : String} {call : Nat} (hc : (s.world.cache k).flights.current[key]? = some call) :
    key = k.name ∧ ∃ id a, s.world.taskState? id = some (.running a) ∧ call ∈ a.held k := by
  obtain ⟨call', hcall, heq⟩ := List.mem_map.mp ((h k).2.registered key call hc)
  obtain ⟨rfl, rfl⟩ := Prod.mk.inj heq
  exact ⟨rfl, running_of_held hn hcall⟩

/-- A start is refused exactly while the manager is marked. -/
theorem refused_iff (hn : s.Numbered) :
    .refused s.world.nextTask ∈ (s.act (.ask .start)).log ↔ s.world.manager.started = true := by
  show .refused s.world.nextTask ∈ s.world.tellAsk .start ++ s.log ↔ _
  have hold : .refused s.world.nextTask ∉ s.log := fun he =>
    Nat.lt_irrefl _ (hn.log _ he _ rfl)
  rw [List.mem_append, or_iff_left hold]
  by_cases hstarted : s.world.manager.started = true
  · refine iff_of_true ?_ hstarted
    simp [tellAsk, begin_start_of_started hstarted, tellBegin, hstarted]
  · refine iff_of_false ?_ hstarted
    obtain ⟨kinds, hg, -⟩ := begin_grows s.world .start
    intro he
    simp only [tellAsk, hg.newcomers_eq, List.mem_append, or_assoc] at he
    rcases he with he | he | he | he
    · obtain ⟨_, _, heq, -⟩ := mem_spawnings he
      cases heq
    · obtain ⟨_, -, heq⟩ := mem_tellEnd.mp he
      cases heq
    · rw [tellBegin, if_neg hstarted] at he
      rcases List.mem_append.mp he with he | he
      · obtain ⟨_, -, ⟨_, heq⟩ | ⟨_, heq⟩⟩ := closes_of_mem_tellBegun he <;> cases heq
      · cases List.mem_singleton.mp he
    · cases List.mem_singleton.mp he

/-- A start that is not refused asks the store. -/
theorem start_asks (hstarted : ¬ s.world.manager.started = true)
    (hsched : s.world.manager.isScheduled k = true)
    (hfree : (s.world.cache k).flights.current[(s.world.cache k).key]? = none)
    (hopen : (s.world.replica k).closed = false) :
    AskedSince k s.world.asked (s.act (.ask .start)).world.asked := by
  have hresumed : ∀ (w : World) (deadline : Nat) (warmUps : WarmUps),
      (w.resumeStart deadline warmUps).1.asked = w.asked := by
    intro w deadline warmUps
    have h := resumeStart_resumption w deadline warmUps
    generalize w.resumeStart deadline warmUps = resumed at h ⊢
    cases h with
    | waits | fails => rfl
    | succeeds => rw [foldl_spawnLoop]
  show AskedSince k s.world.asked (s.world.begin .start).1.asked
  rw [begin_start_of_idle hstarted, hresumed]
  exact @beginWarmUps_asks k s.world.marked s.world.loadLimit _ (Manager.mem_scheduled.mpr hsched)
    hfree hopen

/-- A start that was in vain stands exactly if it was dropped. -/
theorem standing_iff_of_vain {task : Nat} (hv : s.Vain) : s.Standing task ↔
    .asked task .start ∈ s.log ∧ s.world.taskState? task = some .aborted := by
  refine and_congr_right fun hasked => ?_
  obtain ⟨st, hst, hvain⟩ := hv task hasked
  rw [hst]
  unfold TaskState.isVain at hvain
  split at hvain
  · refine iff_of_false ?_ nofun
    rintro ⟨_, ⟨⟩, hfailed⟩
    cases hfailed
  · exact iff_of_true ⟨_, rfl, rfl⟩ rfl
  · cases hvain

/-- A new manager is not marked, and its caches have no call registered. -/
theorem at_first {settings : Settings} {roster : Roster} {manager : Manager}
    (h : Manager.create? settings roster = some manager) :
    manager.started = false ∧ ∀ k, LedBy k (manager.cache k) [] := by
  obtain ⟨skew, -, rfl⟩ := Option.map_eq_some_iff.mp h
  refine ⟨rfl, fun k => ?_⟩
  show LedBy k ((ByKind.tabulate _).get k) []
  rw [ByKind.get_tabulate]
  exact ⟨rfl, .empty⟩

/-- The mark, the starts and the loops go together in every course of a manager that was not
started. -/
theorem run_flagged {manager : Manager} (store : Store) (origin : Instant) (now : Nat)
    (actions : List Action) (hidle : manager.started = false) :
    ((outset manager store origin now).run actions).Numbered ∧
      ((outset manager store origin now).run actions).Flagged := by
  have hnobody : ∀ task, ¬ (outset manager store origin now).Standing task := fun _ h => nomatch h.1
  refine run_invariant (P := fun s => s.Numbered ∧ s.Flagged) ?_
    ⟨outset_numbered manager store origin now, ?_⟩ actions
  · rintro s a ⟨hn, h⟩
    exact ⟨hn.step (act_step s a), h.step hn (act_step s a)⟩
  · refine ⟨iff_of_false (by simp [outset, hidle]) fun ⟨task, h⟩ => hnobody task h,
      fun task _ h => absurd h (hnobody task), ?_, ?_, ?_⟩
    · exact fun id st hid => nomatch hid
    · exact fun id hid => nomatch hid
    · exact fun id st hid => nomatch hid

/-- Once every start of a new manager was in vain, nothing is left of them but the mark of one that
was dropped. -/
theorem run_unburdened {settings : Settings} {roster : Roster} {manager : Manager}
    (hcreate : Manager.create? settings roster = some manager) (store : Store) (origin : Instant)
    (now : Nat) (actions : List Action)
    (hv : ((outset manager store origin now).run actions).Vain) :
    ((outset manager store origin now).run actions).Unburdened := by
  obtain ⟨hidle, hled⟩ := at_first hcreate
  have hbears := run_lasting lasting_led hled store origin now actions
  obtain ⟨hn, hf⟩ := run_flagged store origin now actions hidle
  generalize (outset manager store origin now).run actions = s at hv hbears hn hf ⊢
  have hmarked : s.world.manager.started = true ↔ s.Dropped := by
    rw [hf.marked]
    exact exists_congr fun task => standing_iff_of_vain hv
  have hreleased : ∀ k key call, (s.world.cache k).flights.current[key]? = some call →
      key = k.name ∧ ∃ id a, s.world.taskState? id = some (.running a) ∧ call ∈ a.held k ∧
        .asked id .start ∉ s.log := by
    intro k key call hc
    obtain ⟨hkey, id, a, hid, hcall⟩ := registered_held hn.world hbears hc
    refine ⟨hkey, id, a, hid, hcall, fun hasked => ?_⟩
    obtain ⟨st, hst, hvain⟩ := hv id hasked
    obtain rfl := Option.some.inj (hid.symm.trans hst)
    cases hvain
  refine ⟨?_, hreleased, (refused_iff hn).trans hmarked, ?_⟩
  · intro id loop hid
    obtain ⟨start, hstart, hok⟩ := hf.looping id _ hid rfl
    obtain ⟨st, hst, hvain⟩ := hv start hstart
    obtain rfl := Option.some.inj (hok.symm.trans hst)
    cases hvain
  · intro hdropped k hsched hopen hfree
    refine start_asks (fun hstarted => hdropped (hmarked.mp hstarted)) hsched ?_ hopen
    rw [Option.eq_none_iff_forall_not_mem]
    intro call hc
    obtain ⟨-, id, a, hid, hcall, -⟩ := hreleased k _ call hc
    rw [hfree id a hid] at hcall
    cases hcall

/-- What is on record of starts tells that they were in vain. -/
def recordsVain (s : Course) (e : Occurrence) : Bool :=
  match e with
  | .asked task .start => (s.world.taskState? task).any TaskState.isVain
  | _ => true

theorem vain_of_all (h : s.log.all s.recordsVain = true) : s.Vain := by
  intro task hasked
  have hst : (s.world.taskState? task).any TaskState.isVain = true :=
    List.all_eq_true.mp h _ hasked
  rcases hs : s.world.taskState? task with _ | st <;> rw [hs] at hst
  · cases hst
  · exact ⟨st, rfl, hst⟩

/-- A cache is started while the store is down, and once more while it is slow: the second start is
dropped while it waits. -/
def givenUp : List Action :=
  [.openAll [{ name := "namespace" }], .keep { Store.empty with failure := some "down" },
    .ask .start, .keep { Store.empty with latency := some 50 }, .ask .start, .drop 1]

/-- A start that failed did not keep the second one from loading its kind; that was dropped, and
nothing of it is left but the mark. -/
theorem givenUp_unburdened : ∃ manager, Manager.create? {} .builtin = some manager ∧
    ((outset manager .empty Store.start 0).run givenUp).Vain ∧
    ((outset manager .empty Store.start 0).run givenUp).Unburdened := by
  refine ⟨_, rfl, ?_, @run_unburdened {} .builtin _ rfl .empty Store.start 0 givenUp ?_⟩
  all_goals exact vain_of_all (by decide +kernel)

/-- A start that was dropped while it waited for the store keeps every further one from
beginning. -/
theorem start_refused_after_drop : ∃ manager, Manager.create? {} .builtin = some manager ∧
    let s := (outset manager .empty Store.start 0).run
      [.openAll [{ name := "namespace" }], .keep { Store.empty with latency := some 50 },
        .ask .start, .drop 0]
    s.Vain ∧ .refused s.world.nextTask ∈ (s.act (.ask .start)).log := by
  refine ⟨_, rfl, vain_of_all (by decide +kernel), (refused_iff ?_).mpr (by decide +kernel)⟩
  exact run_invariant (P := Numbered) (fun s a hn => hn.step (act_step s a))
    (outset_numbered _ .empty Store.start 0) _

end Course

end GovernanceCache
