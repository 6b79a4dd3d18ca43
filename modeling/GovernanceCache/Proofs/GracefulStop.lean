import GovernanceCache.Proofs.WorldCourse

/-!
# The graceful stop

A stop raises the signal of the scope and waits for its operations. Once the first stop was asked
for, no refresh loop begins another update, however long its tick has been due; and once it has
ended with success, no loop is inside an update.

1. The operations of the scope are the updates of the loops and what others registered: a poll and a
   drop keep this balance (`poll_balance`, `drop_balance`).
2. A loop begins an update only if the signal is not raised (`poll_balance`), and the signal is
   raised exactly if a stop was asked for.
3. `Braced` collects this, and every step keeps it.
-/

namespace GovernanceCache

/-- The task is a refresh loop inside an update. -/
def TaskState.isUpdating : TaskState → Bool
  | .running (.loop loop) => loop.update.isSome
  | _ => false

theorem TaskState.isUpdating_of_isPlain {a : Activity} (ha : a.isPlain) :
    (TaskState.running a).isUpdating = false := by
  cases a <;> first | rfl | cases ha

/-- The task that asks for a stop of the scope. -/
def Occurrence.stop? : Occurrence → Option Nat
  | .asked task (.stop _) => some task
  | _ => none

/-- The tasks that asked for a stop of the scope, the newest first. -/
def stops (log : List Occurrence) : List Nat := log.filterMap Occurrence.stop?

/-- The task of the first stop. -/
def firstStop? (log : List Occurrence) : Option Nat := (stops log).getLast?

/-- What may happen after the earlier occurrences: no update begins after a stop was asked for. -/
def StopLaw (earlier : List Occurrence) : Occurrence → Prop
  | .updating _ _ => stops earlier = []
  | _ => True

theorem isUpdating_mapPulls (f : PullChange) (a : Activity) :
    (TaskState.running (a.mapPulls f)).isUpdating = (TaskState.running a).isUpdating := by
  cases a with
  | loop loop => exact Option.isSome_map
  | _ => rfl

namespace World

variable {w : World} {loop : Loop} {a : Activity} {id : Nat} {st st' : TaskState}

/-- The number of loops that are inside an update. -/
def updates (w : World) : Nat := w.tasks.countP fun t => t.state.isUpdating

/-- The state of a task whose activity was polled. -/
def polled (a : Activity) (next : Option (Activity ⊕ Reply)) : TaskState :=
  next.elim (.running a) stateAfter

/-! ## The balance of the scope -/

theorem idleBegins_iff : w.idleBegins loop = true ↔
    ¬ (loop.period = 0 ∨ w.scope.signalled = true) ∧ loop.dueAt ≤ w.now := by
  simp [idleBegins, not_or]

/-- Between two updates a loop that does not begin one waits on or ends. -/
theorem pollIdle_of_not_begins (h : ¬ w.idleBegins loop = true) :
    w.pollIdle loop = (w, none) ∨ w.pollIdle loop = (w, some (.inr .nothing)) := by
  rw [idleBegins_iff, not_and_or, not_not] at h
  unfold pollIdle
  rcases h with h | h
  · exact Or.inr (if_pos h)
  · rw [if_neg h]
    split
    · exact Or.inr rfl
    · exact Or.inl rfl

theorem pollIdle_balance (w : World) (loop : Loop) (hu : loop.update = none) :
    (w.pollIdle loop).1.scope.signalled = w.scope.signalled ∧
      (w.pollIdle loop).1.scope.active =
        w.scope.active + (polled (.loop loop) (w.pollIdle loop).2).isUpdating.toNat ∧
      ((polled (.loop loop) (w.pollIdle loop).2).isUpdating = true →
        w.idleBegins loop = true) := by
  by_cases hb : w.idleBegins loop = true
  · have hscope := (beginRefreshing_touches (w.mapScope Scope.register) loop.kind false).scope
    obtain ⟨hgoes, hdue⟩ := idleBegins_iff.mp hb
    unfold pollIdle
    rw [if_neg hgoes, if_pos hdue]
    -- The operation is registered before the update begins, and released if it ends at once.
    rcases hr : (w.mapScope Scope.register).beginRefreshing loop.kind false with ⟨w₁, r | refreshed⟩
    · rw [hr] at hscope
      simp only at hscope ⊢
      rw [hscope]
      exact ⟨rfl, rfl, fun _ => hb⟩
    · rw [hr] at hscope
      simp only [mapScope] at hscope ⊢
      rw [hscope]
      exact ⟨rfl, rfl, fun _ => hb⟩
  · rcases pollIdle_of_not_begins hb with h | h <;> rw [h]
    · simp [polled, TaskState.isUpdating, hu]
    · simp [polled, stateAfter, TaskState.isUpdating]

/-- A poll of a loop keeps the balance of the scope. -/
theorem pollLoop_balance (w : World) (loop : Loop)
    (h : loop.update.isSome = true → 0 < w.scope.active) :
    (w.pollLoop loop).1.scope.signalled = w.scope.signalled ∧
      (w.pollLoop loop).1.scope.active + loop.update.isSome.toNat =
        w.scope.active + (polled (.loop loop) (w.pollLoop loop).2).isUpdating.toNat := by
  rcases loop with ⟨k, period, dueAt, _ | r⟩
  · obtain ⟨hsig, hact, -⟩ := pollIdle_balance w ⟨k, period, dueAt, none⟩ rfl
    exact ⟨hsig, hact⟩
  · have hpos : 0 < w.scope.active := h rfl
    have hscope := (pollRefreshing_touches w k r).scope
    unfold pollLoop
    rcases hp : w.pollRefreshing k r with ⟨w₁, _ | r' | refreshed⟩
    · simp only [hp] at hscope ⊢
      rw [hscope]
      exact ⟨rfl, rfl⟩
    · simp only [hp] at hscope ⊢
      rw [hscope]
      exact ⟨rfl, rfl⟩
    · -- The update has ended: its operation is released before the loop goes on.
      rw [hp] at hscope
      obtain ⟨hsig, hact, -⟩ := pollIdle_balance (w₁.mapScope Scope.release)
        ⟨k, period, dueAt, none⟩ rfl
      have hactive : (w₁.mapScope Scope.release).scope.active = w.scope.active - 1 := by
        rw [← hscope]
        rfl
      have hsignal : (w₁.mapScope Scope.release).scope.signalled = w.scope.signalled := by
        rw [← hscope]
        rfl
      rw [hactive] at hact
      rw [hsignal] at hsig
      simp only [hp]
      rcases hi : (w₁.mapScope Scope.release).pollIdle ⟨k, period, dueAt, none⟩ with
        ⟨w₂, _ | next⟩ <;>
      · rw [hi] at hsig hact
        simp only [Option.isSome_some, Bool.toNat_true] at hact ⊢
        refine ⟨hsig, ?_⟩
        rw [hact, Nat.add_right_comm, Nat.sub_add_cancel hpos]
        rfl

/-- A loop is inside an update only if it was or begins one. -/
theorem pollLoop_enters {w : World} {loop : Loop}
    (h : (polled (.loop loop) (w.pollLoop loop).2).isUpdating = true) :
    loop.update.isSome = true ∨ w.loopBegins loop = true := by
  rcases loop with ⟨k, period, dueAt, _ | r⟩
  · exact Or.inr ((pollIdle_balance w ⟨k, period, dueAt, none⟩ rfl).2.2 h)
  · exact Or.inl rfl

/-- A loop begins an update only if the signal is not raised. -/
theorem signalled_of_loopBegins (h : w.loopBegins loop = true) : w.scope.signalled = false := by
  unfold loopBegins at h
  split at h
  · simpa using (not_or.mp (idleBegins_iff.mp h).1).2
  · rename_i r _
    have hscope := (pollRefreshing_touches w loop.kind r).scope
    split at h
    · rename_i hp
      rw [hp] at hscope
      rw [← hscope]
      simpa using (not_or.mp (idleBegins_iff.mp h).1).2
    · cases h

theorem resumeStart_scope (w : World) (deadline : Nat) (warmUps : WarmUps) :
    (w.resumeStart deadline warmUps).1.scope = w.scope := by
  have h := resumeStart_resumption w deadline warmUps
  generalize w.resumeStart deadline warmUps = resumed at h ⊢
  cases h with
  | waits => rfl
  | succeeds => rw [foldl_spawnLoop]
  | fails => rfl

theorem resumeStart_updating (w : World) (deadline : Nat) (warmUps : WarmUps) :
    (stateAfter (w.resumeStart deadline warmUps).2).isUpdating = false := by
  have h := resumeStart_resumption w deadline warmUps
  generalize w.resumeStart deadline warmUps = resumed at h ⊢
  cases h <;> rfl

/-- A command other than a stop leaves the scope alone. -/
theorem begin_scope {c : Command} (hc : ∀ grace, c ≠ .stop grace) :
    (w.begin c).1.scope = w.scope := by
  by_cases hp : c.isPlain
  · exact (begin_touches w hp).scope
  · cases c with
    | start =>
      by_cases hs : w.manager.started = true
      · rw [begin_start_of_started hs]
      · rw [begin_start_of_idle hs, resumeStart_scope]
        exact w.firstLoads_touches.scope
    | stop grace => exact absurd rfl (hc grace)
    | refresh | forceUpdate | sleep | watchSize | findNamespace | pull | join => exact absurd rfl hp

theorem begin_updating (w : World) (c : Command) :
    (stateAfter (w.begin c).2).isUpdating = false := by
  by_cases hp : c.isPlain
  · rcases hn : (w.begin c).2 with a | reply
    · exact TaskState.isUpdating_of_isPlain (begin_plain hp hn).1
    · rfl
  · cases c with
    | start =>
      by_cases hs : w.manager.started = true
      · rw [begin_start_of_started hs]
        rfl
      · rw [begin_start_of_idle hs]
        exact resumeStart_updating _ _ _
    | stop grace =>
      simp only [begin, beginStop, resumeStop]
      split
      · rfl
      · split <;> rfl
    | refresh | forceUpdate | sleep | watchSize | findNamespace | pull | join => exact absurd rfl hp

/-- Whatever else is polled leaves the scope alone, and is no loop inside an update. -/
theorem poll_aside (w : World) (ha : ∀ loop, a ≠ .loop loop) :
    (w.poll a).1.scope = w.scope ∧ (polled a (w.poll a).2).isUpdating = false := by
  by_cases hp : a.isPlain
  · refine ⟨(poll_touches w hp).scope, ?_⟩
    rcases hn : (w.poll a).2 with _ | b | reply
    · exact TaskState.isUpdating_of_isPlain hp
    · exact TaskState.isUpdating_of_isPlain (poll_plain hp hn).1
    · rfl
  · cases a with
    | start deadline warmUps =>
      have ht := (pollWarmUps_touches w deadline warmUps).scope
      simp only [poll, pollStart]
      split
      · exact ⟨(resumeStart_scope _ _ _).trans ht, resumeStart_updating _ _ _⟩
      · exact ⟨ht, rfl⟩
    | loop loop => exact absurd rfl (ha loop)
    | refresh | stop | sleep | watchSize | findNamespace | pull | join => exact absurd rfl hp

/-- A stop raises the signal; it ends with success at once only if the signal was raised before or
no operation is left. -/
theorem begin_stop {grace : Nat} {w' : World} {next : Activity ⊕ Reply}
    (h : w.begin (.stop grace) = (w', next)) :
    w' = { w with scope := { w.scope with signalled := true } } ∧
      (∀ a, next = .inl a → ∃ stop, a = .stop stop) ∧
      (next = .inr (.flag true) → w.scope.signalled = true ∨ w.scope.active = 0) := by
  simp only [begin, beginStop, Scope.beginStop] at h
  by_cases hs : w.scope.signalled = true
  · rw [if_pos hs] at h
    obtain ⟨rfl, rfl⟩ := Prod.mk.inj h
    refine ⟨?_, (fun _ heq => by cases heq), fun _ => Or.inl hs⟩
    rw [← hs]
  · rw [if_neg hs] at h
    obtain ⟨rfl, hnext⟩ := Prod.mk.inj h
    refine ⟨rfl, ?_, ?_⟩ <;> unfold resumeStop Stop.result? at hnext
    · rintro a rfl
      split at hnext <;> cases hnext
      exact ⟨_, rfl⟩
    · rintro rfl
      split at hnext
      · rename_i success hr
        split at hr
        · exact Or.inr ‹_›
        · split at hr <;> cases hr
          cases hnext
      · cases hnext

theorem not_updating (ha : ∀ loop, a ≠ .loop loop) : (TaskState.running a).isUpdating = false := by
  cases a with
  | loop loop => exact absurd rfl (ha loop)
  | _ => rfl

/-- A poll keeps the balance of the scope. -/
theorem poll_balance (w : World) (a : Activity)
    (h : (TaskState.running a).isUpdating = true → 0 < w.scope.active) :
    (w.poll a).1.scope.signalled = w.scope.signalled ∧
      (w.poll a).1.scope.active + (TaskState.running a).isUpdating.toNat =
        w.scope.active + (polled a (w.poll a).2).isUpdating.toNat := by
  by_cases ha : ∃ loop, a = .loop loop
  · obtain ⟨loop, rfl⟩ := ha
    exact pollLoop_balance w loop h
  · have ha : ∀ loop, a ≠ .loop loop := fun loop heq => ha ⟨loop, heq⟩
    obtain ⟨hscope, hup⟩ := poll_aside w ha
    rw [hup, not_updating ha, hscope]
    exact ⟨rfl, rfl⟩

/-- A task is inside an update only if it was or begins one. -/
theorem poll_enters (h : (polled a (w.poll a).2).isUpdating = true) :
    (TaskState.running a).isUpdating = true ∨
      ∃ loop, a = .loop loop ∧ w.loopBegins loop = true := by
  by_cases ha : ∃ loop, a = .loop loop
  · obtain ⟨loop, rfl⟩ := ha
    exact (pollLoop_enters h).imp_right fun hb => ⟨loop, rfl, hb⟩
  · rw [(poll_aside w fun loop heq => ha ⟨loop, heq⟩).2] at h
    cases h

/-- Once the signal is raised, a poll lets no loop enter an update. -/
theorem poll_leaves {next : Activity ⊕ Reply} (hsig : w.scope.signalled = true)
    (hp : (w.poll a).2 = some next) :
    (stateAfter next).isUpdating.toNat ≤ (TaskState.running a).isUpdating.toNat := by
  have henters := @poll_enters w a
  rw [hp] at henters
  cases hu : (stateAfter next).isUpdating with
  | false => exact Nat.zero_le _
  | true =>
    rcases henters hu with hwas | ⟨loop, -, hloop⟩
    · exact Nat.le_of_eq (by rw [hwas])
    · rw [signalled_of_loopBegins hloop] at hsig
      cases hsig

/-- A stop that is polled and moves has ended, with success only if no operation is left. -/
theorem poll_stop {stop : Stop} {next : Activity ⊕ Reply}
    (hp : (w.poll (.stop stop)).2 = some next) :
    ∃ success, next = .inr (.flag success) ∧ (success = true → w.scope.active = 0) := by
  have hnext : unlessWaiting (w.resumeStop stop) = some next := hp
  unfold resumeStop Stop.result? at hnext
  split at hnext
  · rename_i success hr
    refine ⟨success, (Option.some.inj hnext).symm, ?_⟩
    rintro rfl
    split at hr
    · assumption
    · split at hr <;> cases hr
  · cases hnext

/-- A drop keeps the balance of the scope. -/
theorem drop_balance (w : World) (a : Activity)
    (h : (TaskState.running a).isUpdating = true → 0 < w.scope.active) :
    (w.drop a).scope.signalled = w.scope.signalled ∧
      (w.drop a).scope.active + (TaskState.running a).isUpdating.toNat = w.scope.active := by
  by_cases hp : a.isPlain
  · rw [(drop_touches w hp).scope, TaskState.isUpdating_of_isPlain hp]
    exact ⟨rfl, rfl⟩
  · cases a with
    | start deadline warmUps =>
      have hs : (w.drop (.start deadline warmUps)).scope = w.scope :=
        (dropWarmUps_touches w warmUps).scope
      rw [hs]
      exact ⟨rfl, rfl⟩
    | loop loop =>
      rcases loop with ⟨k, period, dueAt, _ | r⟩
      · exact ⟨rfl, rfl⟩
      · have hs := (dropRefreshing_touches w k r).scope
        constructor
        · show (w.dropRefreshing k r).scope.signalled = _
          rw [hs]
        · show (w.dropRefreshing k r).scope.active - 1 + 1 = _
          rw [hs]
          exact Nat.sub_add_cancel (h rfl)
    | refresh | stop | sleep | watchSize | findNamespace | pull | join => exact absurd rfl hp

/-! ## What is told -/

variable {task : Nat} {kinds : List CacheKind} {next : Activity ⊕ Reply} {e : Occurrence}

/-- What is told of a command other than a stop is about new loops or the new task; it asks for no
stop and begins no update. -/
theorem mem_toldAsked {command : Command} (hc : ∀ grace, command ≠ .stop grace)
    (he : e ∈ spawnings id kinds ++ (tellEnd task next ++
      (w.tellBegin task command ++ [.asked task command]))) :
    (∃ i k, e = .spawned i k) ∨ (e.task? = some task ∧ (∀ i k, e ≠ .updating i k) ∧
      ∀ i grace, e ≠ .asked i (.stop grace)) := by
  rcases List.mem_append.mp he with he | he
  · obtain ⟨i, k, rfl, -⟩ := mem_spawnings he
    exact Or.inl ⟨i, k, rfl⟩
  · refine Or.inr ⟨Course.task_of_asked he, ?_⟩
    rcases List.mem_append.mp he with he | he
    · obtain ⟨reply, -, rfl⟩ := mem_tellEnd.mp he
      exact ⟨nofun, nofun⟩
    · rcases List.mem_append.mp he with he | he
      · obtain ⟨-, rfl | ⟨_, _, rfl⟩ | ⟨k, ⟨_, rfl⟩ | ⟨_, rfl⟩⟩⟩ := mem_tellBegin he <;>
          exact ⟨nofun, nofun⟩
      · rw [List.mem_singleton.mp he]
        refine ⟨nofun, ?_⟩
        rintro i grace heq
        exact hc grace (Occurrence.asked.inj heq).2

/-- What is told of a poll is about new loops, the end of the task, its first loads, or the update
that it begins. -/
theorem mem_toldMoved
    (he : e ∈ spawnings id kinds ++ (tellEnd task next ++ w.tellWithin task a)) :
    (∃ i k, e = .spawned i k) ∨ (∃ reply, next = .inr reply ∧ e = .ended task reply) ∨
      (∃ k, Closes task k e) ∨
        ∃ loop, a = .loop loop ∧ w.loopBegins loop = true ∧ e = .updating task loop.kind := by
  rcases List.mem_append.mp he with he | he
  · obtain ⟨i, k, rfl, -⟩ := mem_spawnings he
    exact Or.inl ⟨i, k, rfl⟩
  · rcases List.mem_append.mp he with he | he
    · exact Or.inr (Or.inl (mem_tellEnd.mp he))
    · rcases mem_tellWithin he with ⟨_, _, -, k, -, hk⟩ | hloop
      · exact Or.inr (Or.inr (Or.inl ⟨k, hk⟩))
      · exact Or.inr (Or.inr (Or.inr hloop))

/-! ## The number of updates -/

theorem updates_pos (h : w.taskState? id = some st) (hu : st.isUpdating = true) :
    0 < w.updates :=
  List.countP_pos_iff.mpr ⟨_, mem_of_taskState? h, hu⟩

theorem updates_grows {kinds : List CacheKind} {w' : World} (hg : w.Grows kinds w') :
    w'.updates = w.updates := by
  have hnew : (w.loopTasks w.nextTask kinds).countP (fun t => t.state.isUpdating) = 0 := by
    rw [List.countP_eq_zero]
    intro t ht
    obtain ⟨k, -, -, hst⟩ := mem_loopTasks ht
    rw [hst]
    exact Bool.false_ne_true
  unfold updates
  rw [hg.tasks, List.countP_append, hnew, Nat.add_zero]

theorem updates_addTask (hu : st.isUpdating = false) : (w.addTask st).1.updates = w.updates := by
  show (w.tasks ++ [_]).countP _ = _
  rw [List.countP_append, List.countP_singleton]
  simp [hu, updates]

theorem updates_setTask (hn : w.Numbered) (h : w.taskState? id = some st) (st' : TaskState) :
    (w.setTask id st').updates + st.isUpdating.toNat = w.updates + st'.isUpdating.toNat := by
  obtain ⟨before, after, hw, hset⟩ := hn.split_setTask h st'
  unfold updates
  simp only [hw, hset, List.countP_append, List.countP_cons]
  cases st.isUpdating <;> cases st'.isUpdating <;> simp <;> omega

end World

/-! ## Stops on record -/

variable {log told : List Occurrence} {task : Nat}

theorem stops_append (told log : List Occurrence) : stops (told ++ log) = stops told ++ stops log :=
  List.filterMap_append

theorem mem_stops (h : task ∈ stops log) : ∃ grace, .asked task (.stop grace) ∈ log := by
  obtain ⟨e, he, hstop⟩ := List.mem_filterMap.mp h
  unfold Occurrence.stop? at hstop
  split at hstop
  · cases hstop
    exact ⟨_, he⟩
  · cases hstop

/-- Nothing of what is told asks for a stop. -/
theorem stops_eq_nil (h : ∀ e ∈ told, ∀ task grace, e ≠ .asked task (.stop grace)) :
    stops told = [] := by
  by_contra hne
  obtain ⟨task, htask⟩ := List.exists_mem_of_ne_nil _ hne
  obtain ⟨grace, he⟩ := mem_stops htask
  exact h _ he task grace rfl

namespace Course

open World

variable {s s' : Course}

/-- The scope, the tasks and the log go together. -/
structure Braced (s : Course) : Prop where
  numbered : s.Numbered
  /-- The operations of the scope are the updates and what others registered. -/
  active : s.world.scope.active = s.world.updates + s.guests
  /-- The signal is raised exactly if a stop was asked for. -/
  signalled : s.world.scope.signalled = true ↔ stops s.log ≠ []
  /-- A task that asked for a stop performs one. -/
  stopping : ∀ task ∈ stops s.log, ∀ a,
    s.world.taskState? task = some (.running a) → ∃ stop, a = .stop stop
  quiet : ∀ task, firstStop? s.log = some task → .ended task (.flag true) ∈ s.log →
    s.world.updates = 0
  lawful : Chronicle StopLaw s.log

namespace Braced

theorem lt_of_mem_stops (h : s.Braced) (ht : task ∈ stops s.log) : task < s.world.nextTask := by
  obtain ⟨grace, he⟩ := mem_stops ht
  exact h.numbered.log _ he task rfl

theorem mem_of_firstStop? {log : List Occurrence} (h : firstStop? log = some task) :
    task ∈ stops log :=
  List.mem_of_getLast? h

/-- While a loop is inside an update, an operation is registered. -/
theorem active_pos (h : s.Braced) {st : TaskState} (ht : s.world.taskState? task = some st)
    (hu : st.isUpdating = true) : 0 < s.world.scope.active := by
  rw [h.active]
  exact Nat.add_pos_left (updates_pos ht hu) _

/-- A step that asks for no stop keeps everything, if it keeps the balance, and if no update begins
or is told of once the signal is raised. -/
theorem frame (h : s.Braced) (hn : s'.Numbered) (hlog : s'.log = told ++ s.log)
    (hstops : stops told = [])
    (hactive : s'.world.scope.active = s'.world.updates + s'.guests)
    (hsignal : s'.world.scope.signalled = s.world.scope.signalled)
    (hstopping : ∀ task ∈ stops s.log, ∀ a,
      s'.world.taskState? task = some (.running a) → ∃ stop, a = .stop stop)
    (hended : ∀ task ∈ stops s.log, .ended task (.flag true) ∈ told → s'.world.updates = 0)
    (hless : s.world.scope.signalled = true → s'.world.updates ≤ s.world.updates)
    (hlaw : ∀ id k, .updating id k ∈ told → s.world.scope.signalled = false) : s'.Braced := by
  have hsame : stops s'.log = stops s.log := by
    rw [hlog, stops_append, hstops, List.nil_append]
  refine ⟨hn, hactive, ?_, ?_, ?_, ?_⟩
  · rw [hsignal, hsame]
    exact h.signalled
  · rw [hsame]
    exact hstopping
  · intro task hfirst he
    have hfirst : firstStop? s.log = some task := by rwa [firstStop?, hsame] at hfirst
    have hmem := mem_of_firstStop? hfirst
    rw [hlog] at he
    rcases List.mem_append.mp he with he | he
    · exact hended task hmem he
    · have hle := hless (h.signalled.mpr (List.ne_nil_of_mem hmem))
      rw [h.quiet task hfirst he] at hle
      exact Nat.le_zero.mp hle
  · -- No occurrence of the step is preceded by a stop that was not there before.
    rw [hlog]
    clear hlog hended
    induction told with
    | nil => exact h.lawful
    | cons e rest ih =>
      have hrest : stops rest = [] := by
        rw [← List.singleton_append, stops_append] at hstops
        exact (List.append_eq_nil_iff.mp hstops).2
      refine ⟨?_, ih hrest fun id k hk => hlaw id k (List.mem_cons_of_mem _ hk)⟩
      cases e with
      | updating id k =>
        have hdown := hlaw id k List.mem_cons_self
        show stops (rest ++ s.log) = []
        rw [stops_append, hrest, List.nil_append]
        by_contra hne
        rw [h.signalled.mpr hne] at hdown
        cases hdown
      | _ => trivial

/-- A step that leaves the tasks and the scope alone. -/
theorem still (h : s.Braced) (told : List Occurrence) (hn : s'.Numbered)
    (hlog : s'.log = told ++ s.log)
    (htold : ∀ e ∈ told, e.task? = none) (htasks : s'.world.tasks = s.world.tasks)
    (hscope : s'.world.scope = s.world.scope) (hguests : s'.guests = s.guests) : s'.Braced := by
  have hstate := taskState?_congr htasks
  have hup : s'.world.updates = s.world.updates := by
    unfold updates
    rw [htasks]
  refine h.frame hn hlog (stops_eq_nil ?_) ?_ (by rw [hscope]) ?_ ?_ ?_ ?_
  · rintro e he task grace rfl
    cases htold _ he
  · rw [hscope, hup, hguests]
    exact h.active
  · intro task ht a hst
    rw [hstate] at hst
    exact h.stopping task ht a hst
  · exact fun task _ he => nomatch htold _ he
  · exact fun _ => Nat.le_of_eq hup
  · exact fun id k he => nomatch htold _ he

/-- A task is dropped, whether or not this is put on record. -/
theorem abort (h : s.Braced) (told : List Occurrence) {a : Activity}
    (ht : s.world.taskState? task = some (.running a))
    (hw : s'.world = (s.world.drop a).setTask task .aborted) (hlog : s'.log = told ++ s.log)
    (htold : ∀ e ∈ told, e = .dropped task) (hguests : s'.guests = s.guests) : s'.Braced := by
  obtain ⟨htasks, hnext⟩ := drop_tasks s.world a
  obtain ⟨hsignal, hactive⟩ := drop_balance s.world a (h.active_pos ht)
  have hstate := taskState?_congr htasks
  have hnum := h.numbered.world.drop a
  have hcount := updates_setTask hnum ((hstate task).trans ht) .aborted
  have hsame : (s.world.drop a).updates = s.world.updates := by
    unfold updates
    rw [htasks]
  rw [hsame, show TaskState.aborted.isUpdating = false from rfl, Bool.toNat_false,
    Nat.add_zero] at hcount
  have hold : ∀ id st, s'.world.taskState? id = some st → st ≠ .aborted →
      s.world.taskState? id = some st := by
    intro id st hst hne
    rw [hw] at hst
    by_cases hid : id = task
    · subst hid
      rw [taskState?_setTask_self ((hstate id).trans ht)] at hst
      exact absurd (Option.some.inj hst).symm hne
    · rwa [taskState?_setTask_of_ne hid, hstate] at hst
  refine h.frame ?_ hlog (stops_eq_nil ?_) ?_ ?_ ?_ ?_ ?_ ?_
  · refine ⟨?_, ?_⟩
    · rw [hw]
      exact hnum.setTask _ _
    · rw [hlog, hw]
      intro e he id hid
      show id < (s.world.drop a).nextTask
      rw [hnext]
      rcases List.mem_append.mp he with he | he
      · rw [htold e he] at hid
        cases hid
        exact h.numbered.world.lt_of_taskState? ht
      · exact h.numbered.log e he id hid
  · rintro e he task grace rfl
    cases htold _ he
  · have hact := h.active
    rw [hw, hguests]
    show (s.world.drop a).scope.active = _
    omega
  · rw [hw]
    exact hsignal
  · exact fun task htask a hst => h.stopping task htask a (hold task _ hst nofun)
  · exact fun task _ he => nomatch htold _ he
  · intro _
    rw [hw]
    omega
  · exact fun id k he => nomatch htold _ he

/-- A command other than a stop is given. -/
theorem ask (h : s.Braced) {command : Command} {w : World} {next : Activity ⊕ Reply}
    {kinds : List CacheKind} (hc : ∀ grace, command ≠ .stop grace)
    (hb : s.world.begin command = (w, next)) (hg : s.world.Grows kinds w)
    (hw : s'.world = (w.addTask (stateAfter next)).1)
    (hlog : s'.log = spawnings s.world.nextTask kinds ++ (tellEnd w.nextTask next ++
      (s.world.tellBegin w.nextTask command ++ [.asked w.nextTask command])) ++ s.log)
    (hn : s'.Numbered) (hguests : s'.guests = s.guests) : s'.Braced := by
  have hscope := begin_scope hc (w := s.world)
  have hidle := begin_updating s.world command
  rw [hb] at hscope hidle
  simp only at hscope hidle
  have hle : s.world.nextTask ≤ w.nextTask := by
    rw [hg.nextTask]
    exact Nat.le_add_right _ _
  have hup : s'.world.updates = s.world.updates := by
    rw [hw, updates_addTask hidle, updates_grows hg]
  have hold : ∀ id st, s'.world.taskState? id = some st → id < s.world.nextTask →
      s.world.taskState? id = some st := by
    intro id st hst hlt
    rw [hw] at hst
    rcases hg.taskState?_addTask hst with hst | ⟨rfl, -⟩ | ⟨k, -, hs, -⟩
    · exact hst
    · omega
    · obtain ⟨i, l, heq, hge, -, -⟩ := mem_spawnings hs
      cases heq
      omega
  refine h.frame hn hlog (stops_eq_nil ?_) ?_ ?_ ?_ ?_ ?_ ?_
  · rintro e he task grace rfl
    rcases mem_toldAsked hc he with ⟨_, _, heq⟩ | ⟨-, -, hne⟩
    · cases heq
    · exact hne _ _ rfl
  · rw [hup, hguests, hw, ← h.active, ← hscope]
    rfl
  · rw [hw, ← hscope]
    rfl
  · intro task ht a hst
    exact h.stopping task ht a (hold task _ hst (h.lt_of_mem_stops ht))
  · intro task ht he
    have hlt := h.lt_of_mem_stops ht
    rcases mem_toldAsked hc he with ⟨_, _, heq⟩ | ⟨htask, -, -⟩
    · cases heq
    · cases htask
      omega
  · exact fun _ => Nat.le_of_eq hup
  · intro id k he
    rcases mem_toldAsked hc he with ⟨_, _, heq⟩ | ⟨-, hne, -⟩
    · cases heq
    · exact absurd rfl (hne id k)

/-- A task is polled and moves. -/
theorem move (h : s.Braced) {a : Activity} {w : World} {next : Activity ⊕ Reply}
    {kinds : List CacheKind} (ht : s.world.taskState? task = some (.running a))
    (hp : s.world.poll a = (w, some next)) (hg : s.world.Grows kinds w)
    (hw : s'.world = w.setTask task (stateAfter next))
    (hlog : s'.log = spawnings s.world.nextTask kinds ++ (tellEnd task next ++
      s.world.tellWithin task a) ++ s.log)
    (hn : s'.Numbered) (hguests : s'.guests = s.guests) : s'.Braced := by
  obtain ⟨hsignal, hactive⟩ := poll_balance s.world a (h.active_pos ht)
  have hmoves : (s.world.poll a).2 = some next := congrArg Prod.snd hp
  rw [hp] at hsignal hactive
  simp only [polled, Option.elim_some] at hsignal hactive
  have hcount := updates_setTask (h.numbered.world.grow hg) (taskState?_kept hg.tasks ht)
    (stateAfter next)
  rw [updates_grows hg, ← hw] at hcount
  refine h.frame hn hlog (stops_eq_nil ?_) ?_ ?_ ?_ ?_ ?_ ?_
  · rintro e he id grace rfl
    rcases mem_toldMoved he with ⟨_, _, heq⟩ | ⟨_, -, heq⟩ | ⟨_, ⟨_, heq⟩ | ⟨_, heq⟩⟩ |
      ⟨_, -, -, heq⟩ <;> cases heq
  · have hact := h.active
    have hscope : s'.world.scope.active = w.scope.active := by rw [hw]; rfl
    rw [hguests, hscope]
    omega
  · rw [hw]
    exact hsignal
  · intro id hid b hst
    rw [hw] at hst
    rcases taskState?_of_set hst with ⟨rfl, hb⟩ | ⟨-, hst⟩
    · obtain ⟨stop, rfl⟩ := h.stopping id hid a ht
      obtain ⟨success, rfl, -⟩ := poll_stop hmoves
      cases hb
    · rcases hg.taskState? hst with hst | ⟨k, -, hs, -⟩
      · exact h.stopping id hid b hst
      · obtain ⟨i, l, heq, hge, -, -⟩ := mem_spawnings hs
        have hlt := h.lt_of_mem_stops hid
        cases heq
        omega
  · intro id hid he
    rcases mem_toldMoved he with ⟨_, _, heq⟩ | ⟨reply, rfl, heq⟩ | ⟨_, ⟨_, heq⟩ | ⟨_, heq⟩⟩ |
      ⟨_, -, -, heq⟩
    · cases heq
    · cases heq
      obtain ⟨stop, rfl⟩ := h.stopping _ hid a ht
      obtain ⟨success, hnext, hzero⟩ := poll_stop hmoves
      cases hnext
      have hact := h.active
      have hnone := hzero rfl
      have hend : (stateAfter (.inr (.flag true))).isUpdating.toNat = 0 := rfl
      omega
    · cases heq
    · cases heq
    · cases heq
  · intro hsig
    have hle := poll_leaves hsig hmoves
    omega
  · intro id k he
    rcases mem_toldMoved he with ⟨_, _, heq⟩ | ⟨_, -, heq⟩ | ⟨_, ⟨_, heq⟩ | ⟨_, heq⟩⟩ |
      ⟨_, -, hloop, -⟩
    · cases heq
    · cases heq
    · cases heq
    · cases heq
    · exact signalled_of_loopBegins hloop

/-- A stop is given. -/
theorem askStop (h : s.Braced) {grace : Nat} {w : World} {next : Activity ⊕ Reply}
    {kinds : List CacheKind} (hb : s.world.begin (.stop grace) = (w, next))
    (hg : s.world.Grows kinds w) (hw : s'.world = (w.addTask (stateAfter next)).1)
    (hlog : s'.log = spawnings s.world.nextTask kinds ++ (tellEnd w.nextTask next ++
      (s.world.tellBegin w.nextTask (.stop grace) ++ [.asked w.nextTask (.stop grace)])) ++ s.log)
    (hn : s'.Numbered) (hguests : s'.guests = s.guests) : s'.Braced := by
  obtain ⟨rfl, hrun, hend⟩ := begin_stop hb
  have hidle := begin_updating s.world (.stop grace)
  rw [hb] at hidle
  have hup : s'.world.updates = s.world.updates := by
    rw [hw, updates_addTask hidle, updates_grows hg]
  obtain rfl : kinds = [] := by
    have := hg.nextTask
    exact List.length_eq_zero_iff.mp (by simpa using this)
  have hlog : s'.log = tellEnd s.world.nextTask next ++
      .asked s.world.nextTask (.stop grace) :: s.log := by
    simp only [hlog, spawnings, tellBegin, List.nil_append, List.append_assoc,
      List.singleton_append]
  have hstops : stops s'.log = s.world.nextTask :: stops s.log := by
    rw [hlog, stops_append, stops_eq_nil]
    · rfl
    · intro e he task grace heq
      obtain ⟨reply, -, rfl⟩ := mem_tellEnd.mp he
      cases heq
  have hold : ∀ id st, s'.world.taskState? id = some st → s.world.taskState? id = some st ∨
      (id = s.world.nextTask ∧ st = stateAfter next) := by
    intro id st hst
    rw [hw] at hst
    rcases hg.taskState?_addTask hst with hst | hst | ⟨_, hk, -⟩
    · exact Or.inl hst
    · exact Or.inr hst
    · cases hk
  refine ⟨hn, ?_, ?_, ?_, ?_, ?_⟩
  · rw [hup, hguests, hw]
    exact h.active
  · rw [hstops, hw]
    exact iff_of_true rfl (List.cons_ne_nil _ _)
  · intro task ht a hst
    rw [hstops] at ht
    rcases hold task _ hst with hst | ⟨rfl, hnew⟩
    · rcases List.mem_cons.mp ht with rfl | ht
      · exact absurd (h.numbered.world.lt_of_taskState? hst) (Nat.lt_irrefl _)
      · exact h.stopping task ht a hst
    · cases next with
      | inl b => exact hrun a (by cases hnew; rfl)
      | inr reply => cases hnew
  · intro task hfirst he
    rw [hup]
    -- The new stop is the first one only if no stop was asked for before.
    by_cases hnone : stops s.log = []
    · have htask : task = s.world.nextTask := by
        rw [firstStop?, hstops, hnone] at hfirst
        exact (Option.some.inj hfirst).symm
      rw [hlog] at he
      rcases List.mem_append.mp he with he | he
      · obtain ⟨reply, rfl, heq⟩ := mem_tellEnd.mp he
        cases heq
        rcases hend rfl with hsig | hzero
        · exact absurd hnone (h.signalled.mp hsig)
        · have hact := h.active
          omega
      · rcases List.mem_cons.mp he with heq | he
        · cases heq
        · have hlt := h.numbered.log _ he task rfl
          omega
    · have hfirst : firstStop? s.log = some task := by
        rwa [firstStop?, hstops, List.getLast?_cons_of_ne_nil hnone] at hfirst
      have hlt := h.lt_of_mem_stops (mem_of_firstStop? hfirst)
      rw [hlog] at he
      rcases List.mem_append.mp he with he | he
      · obtain ⟨reply, -, heq⟩ := mem_tellEnd.mp he
        cases heq
        omega
      · rcases List.mem_cons.mp he with heq | he
        · cases heq
        · exact h.quiet task hfirst he
  · rw [hlog]
    cases next with
    | inl a => exact ⟨trivial, h.lawful⟩
    | inr reply => exact ⟨trivial, trivial, h.lawful⟩

/-- A task is polled and has to wait on. -/
theorem wait (h : s.Braced) {a : Activity} {w : World}
    (ht : s.world.taskState? task = some (.running a)) (hp : s.world.poll a = (w, none))
    (hg : s.world.Grows [] w) (hw : s'.world = w) (hlog : s'.log = [] ++ s.log)
    (hn : s'.Numbered) (hguests : s'.guests = s.guests) : s'.Braced := by
  obtain ⟨hsignal, hactive⟩ := poll_balance s.world a (h.active_pos ht)
  rw [hp] at hsignal hactive
  have hactive : w.scope.active = s.world.scope.active := Nat.add_right_cancel hactive
  have hup : s'.world.updates = s.world.updates := by rw [hw, updates_grows hg]
  have hold : ∀ id st, s'.world.taskState? id = some st → s.world.taskState? id = some st := by
    intro id st hst
    rw [hw] at hst
    rcases hg.taskState? hst with hst | ⟨_, hk, -⟩
    · exact hst
    · cases hk
  refine h.frame hn hlog rfl ?_ ?_ ?_ ?_ ?_ ?_
  · rw [hup, hguests, hw, hactive]
    exact h.active
  · rw [hw]
    exact hsignal
  · exact fun task ht a hst => h.stopping task ht a (hold task _ hst)
  · exact fun _ _ he => absurd he List.not_mem_nil
  · exact fun _ => Nat.le_of_eq hup
  · exact fun _ _ he => absurd he List.not_mem_nil

/-- The store answers the pulls of a task. -/
theorem answer (h : s.Braced) {a : Activity} (f : PullChange)
    (ht : s.world.taskState? task = some (.running a))
    (hw : s'.world = s.world.setTask task (.running (a.mapPulls f))) (hlog : s'.log = [] ++ s.log)
    (hn : s'.Numbered) (hguests : s'.guests = s.guests) : s'.Braced := by
  have hsame := isUpdating_mapPulls f a
  have hup : s'.world.updates = s.world.updates := by
    have hcount := updates_setTask h.numbered.world ht (.running (a.mapPulls f))
    rw [hsame] at hcount
    rw [hw]
    exact Nat.add_right_cancel hcount
  refine h.frame hn hlog rfl ?_ (by rw [hw]; rfl) ?_ ?_ ?_ ?_
  · rw [hup, hguests, hw]
    exact h.active
  · intro id hid b hst
    rw [hw] at hst
    rcases taskState?_of_set hst with ⟨rfl, hb⟩ | ⟨-, hst⟩
    · obtain ⟨stop, rfl⟩ := h.stopping id hid a ht
      exact ⟨stop, by cases hb; rfl⟩
    · exact h.stopping id hid b hst
  · exact fun _ _ he => absurd he List.not_mem_nil
  · exact fun _ => Nat.le_of_eq hup
  · exact fun _ _ he => absurd he List.not_mem_nil

end Braced

/-- Every step keeps the scope, the tasks and the log together. -/
theorem Braced.step (h : s.Braced) (hs : Step s s') : s'.Braced := by
  have hn := h.numbered.step hs
  cases hs with
  | asked command w next kinds hb hg hk =>
    by_cases hc : ∃ grace, command = .stop grace
    · obtain ⟨grace, rfl⟩ := hc
      exact h.askStop hb hg rfl rfl hn rfl
    · exact h.ask (fun grace heq => hc ⟨grace, heq⟩) hb hg rfl rfl hn rfl
  | moved task a w next kinds ht hp hg hk => exact h.move ht hp hg rfl rfl hn rfl
  | waited task a w ht hp hg => exact h.wait ht hp hg rfl rfl hn rfl
  | dropped task a ht => exact h.abort [.dropped task] ht rfl rfl (by simp) rfl
  | answered task a f ht => exact h.answer f ht rfl rfl hn rfl
  | opened requests =>
    exact h.still [.opened requests] hn rfl (by simp [Occurrence.task?]) rfl rfl rfl
  | closed =>
    have hloops : Braced { s with world := s.world.tasks.foldl endLoop s.world } := by
      refine @endLoops_induction s.world (fun w => Braced { s with world := w })
        h.numbered.world ?_ h
      intro w id loop hw hst
      exact hw.abort [] hst (abort_of_running hst) rfl (by simp) rfl
    exact hloops.still [] hn rfl (by simp) rfl rfl rfl
  | cleared | outside => exact h.still [] hn rfl (by simp) rfl rfl rfl
  | enrolled =>
    refine { h with numbered := hn, active := ?_ }
    show s.world.scope.active + 1 = s.world.updates + (s.guests + 1)
    rw [h.active, Nat.add_assoc]
  | withdrawn hg =>
    refine { h with numbered := hn, active := ?_ }
    show s.world.scope.active - 1 = s.world.updates + (s.guests - 1)
    rw [h.active, Nat.add_sub_assoc (Nat.pos_of_ne_zero hg)]
  | idle => exact h

theorem outset_braced (manager : Manager) (store : Store) (origin : Instant) (now : Nat) :
    (outset manager store origin now).Braced := by
  refine ⟨outset_numbered manager store origin now, rfl, ?_, ?_, ?_, trivial⟩
  · exact iff_of_false Bool.false_ne_true (fun h => h rfl)
  · exact fun task ht => absurd ht List.not_mem_nil
  · exact fun task _ he => absurd he List.not_mem_nil

/-! ## Loops that enter an update -/

/-- A task is a refresh loop inside an update. -/
def Updates (s : Course) (id : Nat) : Prop :=
  ∃ st, s.world.taskState? id = some st ∧ st.isUpdating = true

/-- What a step tells, and which loops it lets enter an update. -/
structure Enters (s s' : Course) (told : List Occurrence) : Prop where
  log : s'.log = told ++ s.log
  updates : ∀ id, s'.Updates id → s.Updates id ∨ ∃ k, .updating id k ∈ told

/-- A step that leaves every task but one alone lets no loop enter an update, unless this one
does. -/
theorem Enters.of_setTask {w : World} {a : Activity} {st : TaskState} {kinds : List CacheKind}
    (ht : s.world.taskState? task = some (.running a)) (hg : s.world.Grows kinds w)
    (hw : s'.world = w.setTask task st) (hlog : s'.log = told ++ s.log)
    (hst : st.isUpdating = true →
      (TaskState.running a).isUpdating = true ∨ ∃ k, .updating task k ∈ told) :
    Enters s s' told := by
  refine ⟨hlog, ?_⟩
  rintro id ⟨st', hid, hu⟩
  rw [hw] at hid
  rcases taskState?_of_set hid with ⟨rfl, rfl⟩ | ⟨-, hid⟩
  · exact (hst hu).imp_left fun hwas => ⟨_, ht, hwas⟩
  · rcases hg.taskState? hid with hid | ⟨k, -, -, rfl⟩
    · exact Or.inl ⟨st', hid, hu⟩
    · cases hu

theorem Enters.of_tasks (htasks : s'.world.tasks = s.world.tasks) (hlog : s'.log = told ++ s.log) :
    Enters s s' told := by
  refine ⟨hlog, ?_⟩
  rintro id ⟨st, hid, hu⟩
  rw [taskState?_congr htasks] at hid
  exact Or.inl ⟨st, hid, hu⟩

/-- A loop enters an update only if this is told. -/
theorem Step.enters (hn : s.Numbered) (hs : Step s s') : ∃ told, Enters s s' told := by
  cases hs with
  | asked command w next kinds hb hg hk =>
    have hidle := begin_updating s.world command
    rw [hb] at hidle
    refine ⟨spawnings s.world.nextTask kinds ++ (tellEnd w.nextTask next ++
      (s.world.tellBegin w.nextTask command ++ [.asked w.nextTask command])), rfl, ?_⟩
    rintro id ⟨st, hid, hu⟩
    rcases hg.taskState?_addTask hid with hid | ⟨-, rfl⟩ | ⟨k, -, -, rfl⟩
    · exact Or.inl ⟨st, hid, hu⟩
    · rw [hidle] at hu
      cases hu
    · cases hu
  | moved task a w next kinds ht hp hg hk =>
    have hbegins := @poll_enters s.world a
    rw [hp] at hbegins
    refine ⟨spawnings s.world.nextTask kinds ++ (tellEnd task next ++ s.world.tellWithin task a),
      .of_setTask ht hg rfl rfl ?_⟩
    intro hu
    refine (hbegins hu).imp_right ?_
    rintro ⟨loop, rfl, hloop⟩
    refine ⟨loop.kind, List.mem_append_right _ (List.mem_append_right _ ?_)⟩
    simp [tellWithin, hloop]
  | waited task a w ht hp hg => exact ⟨[], .of_tasks (by simpa [loopTasks] using hg.tasks) rfl⟩
  | dropped task a ht =>
    obtain ⟨htasks, hnext⟩ := drop_tasks s.world a
    refine ⟨[.dropped task], .of_setTask ht (.of_eq htasks hnext) rfl rfl ?_⟩
    intro h
    cases h
  | answered task a f ht =>
    refine ⟨[], .of_setTask ht (.of_eq rfl rfl) rfl rfl ?_⟩
    rw [isUpdating_mapPulls]
    exact Or.inl
  | closed =>
    have hloops : Enters s { s with world := s.world.tasks.foldl endLoop s.world } [] := by
      refine @endLoops_induction s.world (fun w => Enters s { s with world := w } []) hn.world ?_
        ⟨rfl, fun _ => Or.inl⟩
      rintro w id loop ⟨-, hw⟩ hst
      obtain ⟨htasks, hnext⟩ := drop_tasks w (.loop loop)
      refine ⟨rfl, ?_⟩
      rintro task ⟨st, htask, hu⟩
      refine hw task ⟨st, ?_, hu⟩
      rw [abort_of_running hst] at htask
      rcases taskState?_of_set htask with ⟨-, rfl⟩ | ⟨-, htask⟩
      · cases hu
      · rwa [taskState?_congr htasks] at htask
    exact ⟨[], rfl, hloops.updates⟩
  | opened requests => exact ⟨[.opened requests], .of_tasks rfl rfl⟩
  | cleared | outside | enrolled | withdrawn | idle => exact ⟨[], .of_tasks rfl rfl⟩

/-- If an update begins, no stop was asked for before. -/
theorem stops_of_updating {id : Nat} {k : CacheKind} (h : Chronicle StopLaw (told ++ log))
    (he : .updating id k ∈ told) : stops log = [] := by
  obtain ⟨later, rest, rfl⟩ := List.append_of_mem he
  rw [List.append_assoc] at h
  have hlaw : stops (rest ++ log) = [] := h.law_of_split
  rw [stops_append] at hlaw
  exact (List.append_eq_nil_iff.mp hlaw).2

/-! ## Whole courses -/

/-- A stop of the scope is graceful. -/
structure StopsGracefully (s : Course) : Prop where
  /-- No loop begins an update once a stop was asked for. -/
  lawful : Chronicle StopLaw s.log
  /-- A loop that is inside an update has begun it. -/
  noted : ∀ id, s.Updates id → ∃ k, .updating id k ∈ s.log
  /-- Whatever happens after a stop was asked for, no loop enters an update. -/
  steadfast : stops s.log ≠ [] → ∀ actions id, (s.run actions).Updates id → s.Updates id
  /-- Once the first stop has ended with success, no loop is inside an update, whatever happens
  then. -/
  quiet : ∀ task, firstStop? s.log = some task → .ended task (.flag true) ∈ s.log →
    ∀ actions id, ¬ (s.run actions).Updates id

theorem Braced.run (h : s.Braced) (actions : List Action) : (s.run actions).Braced :=
  run_invariant (fun s a hs => hs.step (act_step s a)) h actions

/-- Once a stop was asked for, no loop enters an update. -/
theorem Braced.steadfast (h : s.Braced) (hstop : stops s.log ≠ []) (actions : List Action)
    {id : Nat} (hid : (s.run actions).Updates id) : s.Updates id := by
  have key : ((s.run actions).Braced ∧ stops (s.run actions).log ≠ []) ∧
      ((s.run actions).Updates id → s.Updates id) := by
    refine @run_invariant (fun r => (r.Braced ∧ stops r.log ≠ []) ∧ (r.Updates id → s.Updates id))
      ?_ s ⟨⟨h, hstop⟩, fun hs => hs⟩ actions
    rintro r a ⟨⟨hr, hne⟩, hback⟩
    have hr' := hr.step (act_step r a)
    obtain ⟨told, hlog, hup⟩ := (act_step r a).enters hr.numbered
    refine ⟨⟨hr', ?_⟩, ?_⟩
    · rw [hlog, stops_append]
      exact fun hnil => hne (List.append_eq_nil_iff.mp hnil).2
    · intro hu
      rcases hup id hu with hu | ⟨k, hk⟩
      · exact hback hu
      · have hlaw := hr'.lawful
        rw [hlog] at hlaw
        exact absurd (stops_of_updating hlaw hk) hne
  exact key.2 hid

/-- In every course of a manager a stop of the scope is graceful. -/
theorem run_stopsGracefully (manager : Manager) (store : Store) (origin : Instant) (now : Nat)
    (actions : List Action) :
    ((outset manager store origin now).run actions).StopsGracefully := by
  have hbraced := (outset_braced manager store origin now).run actions
  refine ⟨hbraced.lawful, ?_, fun hstop more id => hbraced.steadfast hstop more, ?_⟩
  · have key : ((outset manager store origin now).run actions).Numbered ∧
        ∀ id, ((outset manager store origin now).run actions).Updates id →
          ∃ k, .updating id k ∈ ((outset manager store origin now).run actions).log := by
      refine @run_invariant (fun s => s.Numbered ∧ ∀ id, s.Updates id → ∃ k, .updating id k ∈ s.log)
        ?_ _ ⟨outset_numbered manager store origin now, fun id ⟨_, hid, _⟩ => nomatch hid⟩ actions
      rintro s a ⟨hn, hnoted⟩
      obtain ⟨told, hlog, hup⟩ := (act_step s a).enters hn
      refine ⟨hn.step (act_step s a), ?_⟩
      intro id hu
      rw [hlog]
      rcases hup id hu with hu | ⟨k, hk⟩
      · exact (hnoted id hu).imp fun _ hk => List.mem_append_right _ hk
      · exact ⟨k, List.mem_append_left _ hk⟩
    exact key.2
  · intro task hfirst he more id hu
    have hstop : stops ((outset manager store origin now).run actions).log ≠ [] :=
      List.ne_nil_of_mem (Braced.mem_of_firstStop? hfirst)
    obtain ⟨st, hst, hup⟩ := hbraced.steadfast hstop more hu
    have hpos := updates_pos hst hup
    rw [hbraced.quiet task hfirst he] at hpos
    exact absurd hpos (Nat.lt_irrefl 0)

end Course

end GovernanceCache
