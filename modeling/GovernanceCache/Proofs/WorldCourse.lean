import GovernanceCache.Proofs.Chronicle
import GovernanceCache.Proofs.WorldFrames
import GovernanceCache.World.Schedule
import Mathlib.Data.List.Nodup

/-!
# Courses of a world

A course is any sequence of steps of a world: commands are given and become tasks, tasks are polled
one at a time and dropped, the store answers pulls whenever and however it likes, caches are opened,
cleared and closed, the clock moves, and others register operations of the scope. A log tells what
happened, the newest first.

1. `Course.act` runs the steps of the world itself, and puts them on record.
2. Tasks have numbers of their own, and the log mentions only numbers that were given out
   (`run_numbered`).
3. Closing ends the refresh loops one after another, each as if it were aborted
   (`endLoops_induction`).
-/

namespace GovernanceCache

/-! ## Answers of the store -/

/-- The stage with its own pull changed. -/
def Stage.mapPull {φ : Type} (f : φ → φ) : Stage φ → Stage φ
  | .pulling call ticket pull => .pulling call ticket (f pull)
  | .following call => .following call

variable {k : CacheKind}

/-- The caller with its own pull changed. -/
def Refreshing.mapPull (f : OpenPull k.Row → OpenPull k.Row) (r : Refreshing k) : Refreshing k :=
  { r with stage := r.stage.mapPull f }

/-- The first load with its own pull changed. -/
def WarmUp.mapPull (f : OpenPull k.Row → OpenPull k.Row) : WarmUp k → WarmUp k
  | .loading r => .loading (r.mapPull f)
  | .ended result => .ended result

/-- What is changed of the open pulls of every kind. -/
abbrev PullChange : Type := (k : CacheKind) → OpenPull k.Row → OpenPull k.Row

/-- The activity with its open pulls changed. -/
def Activity.mapPulls (f : PullChange) : Activity → Activity
  | .refresh k r => .refresh k (r.mapPull (f k))
  | .start deadline warmUps => .start deadline (warmUps.map fun u => ⟨u.1, u.2.mapPull (f u.1)⟩)
  | .findNamespace name r => .findNamespace name (r.mapPull (f .namespaces))
  | .pull k p => .pull k (f k p)
  | .loop l => .loop { l with update := l.update.map fun r => r.mapPull (f l.kind) }
  | .stop s => .stop s
  | .sleep readyAt => .sleep readyAt
  | .watchSize k size deadline nextLook => .watchSize k size deadline nextLook
  | .join task => .join task

/-! ## What happens -/

/-- What happened in the course of a world. -/
inductive Occurrence where
  | opened (requests : List OpenRequest)
  /-- A command was given and became a task. -/
  | asked (task : Nat) (command : Command)
  /-- A start came while another one had succeeded or had not ended. -/
  | refused (task : Nat)
  /-- A start began to load kinds. -/
  | warming (task : Nat) (kinds : List CacheKind) (moment : Nat)
  /-- The first load of a kind ended with a result. -/
  | loaded (task : Nat) (k : CacheKind) (result : Outcome)
  /-- The first load of a kind was dropped since it took too long. -/
  | late (task : Nat) (k : CacheKind) (moment : Nat)
  | ended (task : Nat) (reply : Reply)
  /-- A refresh loop became a task. -/
  | spawned (task : Nat) (k : CacheKind)
  /-- A refresh loop began an update. -/
  | updating (task : Nat) (k : CacheKind)
  | dropped (task : Nat)

/-- The task that an occurrence is about. -/
def Occurrence.task? : Occurrence → Option Nat
  | .opened _ => none
  | .asked task _ | .refused task | .warming task .. | .loaded task .. | .late task .. |
    .ended task _ | .spawned task _ | .updating task _ | .dropped task => some task

namespace World

/-- How the first load of a kind goes on, once its caller stands so. -/
def tellLoad (w : World) (task deadline : Nat) (k : CacheKind) :
    Refreshing k ⊕ Refreshed → List Occurrence
  | .inl _ => if deadline ≤ w.now then [.late task k w.now] else []
  | .inr refreshed => [.loaded task k refreshed.result]

/-- What happens when first loads begin. -/
def tellBegun (w : World) (task deadline : Nat) : List CacheKind → List Occurrence
  | [] => []
  | k :: rest =>
    (w.beginWarmUp k deadline).1.tellBegun task deadline rest ++
      w.tellLoad task deadline k (w.beginRefreshing k true).2

/-- What happens when first loads are polled. -/
def tellPolled (w : World) (task deadline : Nat) : WarmUps → List Occurrence
  | [] => []
  | ⟨_, .ended _⟩ :: rest => w.tellPolled task deadline rest
  | ⟨k, .loading r⟩ :: rest =>
    (w.pollWarmUp k deadline (.loading r)).1.tellPolled task deadline rest ++
      w.tellLoad task deadline k ((w.pollRefreshing k r).2.getD (.inl r))

/-- A task that is a refresh loop came. -/
def tellLoop? (t : Task) : Option Occurrence :=
  match t.state with
  | .running (.loop loop) => some (.spawned t.id loop.kind)
  | _ => none

/-- The loops that came between two worlds, the newest first. -/
def newcomers (w w' : World) : List Occurrence :=
  ((w'.tasks.drop w.tasks.length).filterMap tellLoop?).reverse

/-- How a task ends, if it does. -/
def tellEnd (task : Nat) : Activity ⊕ Reply → List Occurrence
  | .inl _ => []
  | .inr reply => [.ended task reply]

/-- What happens when a command begins. -/
def tellBegin (w : World) (task : Nat) : Command → List Occurrence
  | .start =>
    if w.manager.started then [.refused task]
    else
      w.marked.tellBegun task w.loadLimit w.manager.scheduled ++
        [.warming task w.manager.scheduled w.now]
  | _ => []

/-- What happens when a command is given. -/
def tellAsk (w : World) (command : Command) : List Occurrence :=
  let (w', next) := w.begin command
  newcomers w w' ++ tellEnd w'.nextTask next ++ w.tellBegin w'.nextTask command ++
    [.asked w'.nextTask command]

/-- A loop between two updates begins one when it is polled. -/
def idleBegins (w : World) (loop : Loop) : Bool :=
  loop.period != 0 && !w.scope.signalled && loop.dueAt ≤ w.now

/-- A loop begins an update when it is polled. -/
def loopBegins (w : World) (loop : Loop) : Bool :=
  match loop.update with
  | none => w.idleBegins loop
  | some r =>
    match w.pollRefreshing loop.kind r with
    | (w, some (.inr _)) => w.idleBegins loop
    | _ => false

/-- What happens within an activity that is polled. -/
def tellWithin (w : World) (task : Nat) : Activity → List Occurrence
  | .start deadline warmUps => w.tellPolled task deadline warmUps
  | .loop loop => if w.loopBegins loop then [.updating task loop.kind] else []
  | _ => []

/-- What happens when a task is polled. -/
def tellPoll (w : World) (task : Nat) : List Occurrence :=
  match w.taskState? task with
  | some (.running activity) =>
    let (w', next) := w.poll activity
    newcomers w w' ++ next.elim [] (tellEnd task) ++ w.tellWithin task activity
  | _ => []

/-- What happens when a task is dropped. -/
def tellDrop (w : World) (task : Nat) : List Occurrence :=
  match w.taskState? task with
  | some (.running _) => [.dropped task]
  | _ => []

/-- The store answers the open pulls of a task as it pleases. -/
def answer (w : World) (task : Nat) (f : PullChange) : World :=
  match w.taskState? task with
  | some (.running activity) => w.setTask task (.running (activity.mapPulls f))
  | _ => w

end World

/-- A step of a course. -/
inductive Action where
  | ask (command : Command)
  | poll (task : Nat)
  | drop (task : Nat)
  | answer (task : Nat) (f : PullChange)
  | openAll (requests : List OpenRequest)
  | clear
  | close
  | pass (span : Nat)
  /-- The store is written to, slowed down or made to fail. -/
  | keep (store : Store)
  /-- Somebody else registers an operation of the scope. -/
  | enroll
  /-- An operation of somebody else is over. -/
  | withdraw

/-- A world and what happened so far. -/
structure Course where
  world : World
  /-- The registered operations that are no updates of refresh loops. -/
  guests : Nat := 0
  /-- What happened, the newest first. -/
  log : List Occurrence := []

namespace Course

/-- A step is made and put on record. -/
def act (s : Course) : Action → Course
  | .ask command =>
    { s with world := (s.world.spawn command).1, log := s.world.tellAsk command ++ s.log }
  | .poll task =>
    { s with world := (s.world.pollTask task).1, log := s.world.tellPoll task ++ s.log }
  | .drop task => { s with world := s.world.abort task, log := s.world.tellDrop task ++ s.log }
  | .answer task f => { s with world := s.world.answer task f }
  | .openAll requests =>
    { s with
      world := { s.world with manager := (s.world.manager.openAll requests).1 }
      log := .opened requests :: s.log }
  | .clear => { s with world := { s.world with manager := s.world.manager.clear } }
  | .close => { s with world := s.world.close }
  | .pass span => { s with world := { s.world with now := s.world.now + span } }
  | .keep store => { s with world := { s.world with store } }
  | .enroll => { s with world := s.world.mapScope Scope.register, guests := s.guests + 1 }
  | .withdraw =>
    if s.guests = 0 then s
    else { s with world := s.world.mapScope Scope.release, guests := s.guests - 1 }

/-- Steps are made in turn. -/
def run (s : Course) (actions : List Action) : Course := actions.foldl act s

/-- The course of a manager begins at some moment, with some store. -/
def outset (manager : Manager) (store : Store) (origin : Instant) (now : Nat) : Course where
  world := { manager, store, origin, now }

/-- What every step keeps holds throughout a course. -/
theorem run_invariant {P : Course → Prop} (hact : ∀ s a, P s → P (act s a)) {s : Course} (h : P s)
    (actions : List Action) : P (s.run actions) := by
  induction actions generalizing s with
  | nil => exact h
  | cons a rest ih => exact ih (hact s a h)

end Course

namespace World

variable {w w' : World} {id task n : Nat} {st st' : TaskState} {new : List Task} {t : Task}
  {kinds : List CacheKind}

/-! ## Tasks by number -/

theorem taskState?_congr (h : w'.tasks = w.tasks) (id : Nat) :
    w'.taskState? id = w.taskState? id := by
  unfold taskState?
  rw [h]

theorem taskState?_setTask (w : World) (id task : Nat) (st : TaskState) :
    (w.setTask id st).taskState? task =
      if task = id then (w.taskState? task).map fun _ => st else w.taskState? task := by
  unfold taskState? setTask
  simp only
  induction w.tasks with
  | nil => simp
  | cons t rest ih =>
    rw [List.map_cons, List.find?_cons, List.find?_cons]
    by_cases htask : t.id = task
    · subst htask
      by_cases hid : t.id = id
      · simp [hid]
      · simp [hid]
    · have hset : ((if t.id = id then { t with state := st } else t).id == task) = false := by
        split <;> simpa using htask
      rw [hset, show (t.id == task) = false by simpa using htask]
      exact ih

theorem taskState?_setTask_self (h : w.taskState? id = some st) :
    (w.setTask id st').taskState? id = some st' := by
  rw [taskState?_setTask, if_pos rfl, h]
  rfl

theorem taskState?_setTask_of_ne (h : task ≠ id) :
    (w.setTask id st).taskState? task = w.taskState? task := by
  rw [taskState?_setTask, if_neg h]

theorem mem_of_taskState? (h : w.taskState? id = some st) : ⟨id, st⟩ ∈ w.tasks := by
  obtain ⟨t, hfind, rfl⟩ := Option.map_eq_some_iff.mp h
  have hid : t.id = id := by simpa using List.find?_some hfind
  exact hid ▸ List.mem_of_find?_eq_some hfind

theorem taskState?_of_mem (hn : (w.tasks.map (·.id)).Nodup) (h : t ∈ w.tasks) :
    w.taskState? t.id = some t.state := by
  have hfind : w.tasks.find? (fun u => u.id == t.id) = some t := by
    rw [List.find?_eq_some_iff_append]
    obtain ⟨before, after, hw⟩ := List.append_of_mem h
    refine ⟨by simp, before, after, hw, ?_⟩
    intro u hu
    rw [hw, List.map_append, List.nodup_append] at hn
    have hne := hn.2.2 u.id (List.mem_map_of_mem hu) t.id (by simp)
    simpa using hne
  unfold taskState?
  rw [hfind]
  rfl

/-- Tasks stay when others are added. -/
theorem taskState?_kept (h : w'.tasks = w.tasks ++ new) (hs : w.taskState? id = some st) :
    w'.taskState? id = some st := by
  obtain ⟨t, hfind, rfl⟩ := Option.map_eq_some_iff.mp hs
  unfold taskState?
  rw [h, List.find?_append, hfind]
  rfl

/-- A task was there before others were added, or is one of them. -/
theorem taskState?_grown (h : w'.tasks = w.tasks ++ new) (hs : w'.taskState? id = some st) :
    w.taskState? id = some st ∨ ⟨id, st⟩ ∈ new := by
  unfold taskState? at hs
  rw [h, List.find?_append] at hs
  cases hfind : w.tasks.find? fun t => t.id == id with
  | none =>
    rw [hfind, Option.none_or] at hs
    obtain ⟨t, hnew, rfl⟩ := Option.map_eq_some_iff.mp hs
    have hid : t.id = id := by simpa using List.find?_some hnew
    exact Or.inr (hid ▸ List.mem_of_find?_eq_some hnew)
  | some t =>
    rw [hfind, Option.some_or] at hs
    exact Or.inl (by unfold taskState?; rw [hfind]; exact hs)

/-! ## New loops -/

/-- The tasks of new loops come to those that there are. -/
structure Grows (kinds : List CacheKind) (w w' : World) : Prop where
  tasks : w'.tasks = w.tasks ++ w.loopTasks w.nextTask kinds
  nextTask : w'.nextTask = w.nextTask + kinds.length

theorem Grows.of_eq (ht : w'.tasks = w.tasks) (hn : w'.nextTask = w.nextTask) : w.Grows [] w' :=
  ⟨by rw [ht]; exact (List.append_nil _).symm, hn⟩

theorem Touches.grows {p : CacheKind → Prop} (h : w.Touches p w') : w.Grows [] w' :=
  .of_eq h.tasks h.nextTask

/-- New loops are the same for worlds that agree in the tasks, the clock and the settings. -/
theorem Grows.rebase {w'' : World} (h : w'.Grows kinds w'') (ht : w'.tasks = w.tasks)
    (hi : w'.nextTask = w.nextTask) (hs : w'.manager.settings = w.manager.settings)
    (hn : w'.now = w.now) : w.Grows kinds w'' := by
  refine ⟨?_, ?_⟩
  · rw [h.tasks, ht, hi, loopTasks_congr hs hn]
  · rw [h.nextTask, hi]

theorem Touches.then_grows {p : CacheKind → Prop} {w'' : World} (h : w.Touches p w')
    (h' : w'.Grows kinds w'') : w.Grows kinds w'' :=
  h'.rebase h.tasks h.nextTask h.manager.settings h.now

theorem resumeStart_grows (w : World) (deadline : Nat) (warmUps : WarmUps) :
    ∃ kinds, w.Grows kinds (w.resumeStart deadline warmUps).1 ∧
      ∀ k ∈ kinds, k ∈ kindsOf warmUps := by
  have h := resumeStart_resumption w deadline warmUps
  generalize w.resumeStart deadline warmUps = resumed at h ⊢
  cases h with
  | waits => exact ⟨[], .of_eq rfl rfl, nofun⟩
  | succeeds =>
    refine ⟨kindsOf warmUps, ?_, fun _ => id⟩
    rw [foldl_spawnLoop]
    exact ⟨rfl, rfl⟩
  | fails => exact ⟨[], .of_eq rfl rfl, nofun⟩

/-- A command brings loops of its own kinds at most. -/
theorem begin_grows (w : World) (c : Command) :
    ∃ kinds, w.Grows kinds (w.begin c).1 ∧ ∀ k ∈ kinds, k ∈ w.kindsAsked c := by
  by_cases hc : c.isPlain
  · exact ⟨[], (begin_touches w hc).grows, nofun⟩
  · cases c with
    | start =>
      by_cases hs : w.manager.started = true
      · rw [begin_start_of_started hs]
        exact ⟨[], .of_eq rfl rfl, nofun⟩
      · rw [begin_start_of_idle hs]
        obtain ⟨kinds, hg, hk⟩ := resumeStart_grows w.firstLoads.1 w.loadLimit w.firstLoads.2
        rw [kindsOf_firstLoads] at hk
        exact ⟨kinds, (w.firstLoads_touches.then_grows hg).rebase rfl rfl rfl rfl, hk⟩
    | stop grace =>
      simp only [begin, beginStop, Scope.beginStop]
      split <;> exact ⟨[], .of_eq rfl rfl, nofun⟩
    | refresh | forceUpdate | sleep | watchSize | findNamespace | pull | join => exact absurd rfl hc

/-- A poll brings loops of the kinds of its activity at most, and only if the activity moves. -/
theorem poll_grows (w : World) (a : Activity) :
    ∃ kinds, w.Grows kinds (w.poll a).1 ∧ (∀ k ∈ kinds, k ∈ a.kinds) ∧
      ((w.poll a).2 = none → kinds = []) := by
  by_cases ha : a.isPlain
  · exact ⟨[], (poll_touches w ha).grows, List.forall_mem_nil _, fun _ => rfl⟩
  · cases a with
    | start deadline warmUps =>
      have ht := pollWarmUps_touches w deadline warmUps
      have hkinds := kindsOf_pollWarmUps w deadline warmUps
      simp only [poll, pollStart]
      split
      · obtain ⟨kinds, hg, hk⟩ := resumeStart_grows (w.pollWarmUps deadline warmUps).1 deadline
          (w.pollWarmUps deadline warmUps).2.1
        rw [hkinds] at hk
        exact ⟨kinds, ht.then_grows hg, hk, fun h => absurd h (Option.some_ne_none _)⟩
      · exact ⟨[], ht.grows, List.forall_mem_nil _, fun _ => rfl⟩
    | loop loop =>
      have ht := pollLoop_touches w loop
      exact ⟨[], .of_eq ht.tasks ht.nextTask, List.forall_mem_nil _, fun _ => rfl⟩
    | refresh | stop | sleep | watchSize | findNamespace | pull | join => exact absurd rfl ha

theorem drop_tasks (w : World) (a : Activity) :
    (w.drop a).tasks = w.tasks ∧ (w.drop a).nextTask = w.nextTask := by
  by_cases ha : a.isPlain
  · exact ⟨(drop_touches w ha).tasks, (drop_touches w ha).nextTask⟩
  · cases a with
    | start deadline warmUps =>
      exact ⟨(dropWarmUps_touches w warmUps).tasks, (dropWarmUps_touches w warmUps).nextTask⟩
    | loop loop => exact ⟨(dropLoop_touches w loop).tasks, (dropLoop_touches w loop).nextTask⟩
    | refresh | stop | sleep | watchSize | findNamespace | pull | join => exact absurd rfl ha

/-- New loops on record, the newest first. -/
def spawnings : Nat → List CacheKind → List Occurrence
  | _, [] => []
  | id, k :: rest => spawnings (id + 1) rest ++ [.spawned id k]

theorem mem_spawnings {e : Occurrence} {id : Nat} (h : e ∈ spawnings id kinds) :
    ∃ i k, e = .spawned i k ∧ id ≤ i ∧ i < id + kinds.length ∧ k ∈ kinds := by
  induction kinds generalizing id with
  | nil => simp [spawnings] at h
  | cons k rest ih =>
    rw [spawnings, List.mem_append, List.mem_singleton] at h
    rcases h with h | rfl
    · obtain ⟨i, l, rfl, hle, hlt, hl⟩ := ih h
      rw [List.length_cons]
      exact ⟨i, l, rfl, by omega, by omega, List.mem_cons_of_mem _ hl⟩
    · exact ⟨id, k, rfl, Nat.le_refl id, by simp, List.mem_cons_self⟩

theorem mem_loopTasks {id : Nat} (h : t ∈ w.loopTasks id kinds) :
    ∃ k ∈ kinds, .spawned t.id k ∈ spawnings id kinds ∧
      t.state = .running (.loop (w.newLoop k)) := by
  induction kinds generalizing id with
  | nil => simp [loopTasks] at h
  | cons k rest ih =>
    rcases List.mem_cons.mp h with rfl | h
    · exact ⟨k, List.mem_cons_self, by simp [spawnings], rfl⟩
    · obtain ⟨l, hl, hs, ht⟩ := ih h
      exact ⟨l, List.mem_cons_of_mem _ hl, List.mem_append_left _ hs, ht⟩

theorem ids_loopTasks (w : World) (id : Nat) (kinds : List CacheKind) :
    (w.loopTasks id kinds).map (·.id) = List.range' id kinds.length := by
  induction kinds generalizing id with
  | nil => rfl
  | cons k rest ih => rw [loopTasks, List.map_cons, ih, List.length_cons, List.range'_succ]

theorem Grows.newcomers_eq (h : w.Grows kinds w') :
    newcomers w w' = spawnings w.nextTask kinds := by
  unfold newcomers
  rw [h.tasks, List.drop_left]
  clear h
  generalize w.nextTask = id
  induction kinds generalizing id with
  | nil => rfl
  | cons k rest ih =>
    have hk : tellLoop? ⟨id, .running (.loop (w.newLoop k))⟩ = some (.spawned id k) := rfl
    rw [loopTasks, List.filterMap_cons_some hk, List.reverse_cons, ih]
    rfl

/-! ## What is told -/

/-- The first load of a kind ends, or is dropped. -/
def Closes (task : Nat) (k : CacheKind) (e : Occurrence) : Prop :=
  (∃ result, e = .loaded task k result) ∨ ∃ moment, e = .late task k moment

variable {e : Occurrence} {deadline : Nat} {command : Command} {a : Activity}

theorem closes_of_mem_tellLoad {k : CacheKind} {next : Refreshing k ⊕ Refreshed}
    (he : e ∈ w.tellLoad task deadline k next) : Closes task k e := by
  unfold tellLoad at he
  cases next with
  | inl r =>
    simp only at he
    split at he
    · exact Or.inr ⟨w.now, List.mem_singleton.mp he⟩
    · cases he
  | inr refreshed => exact Or.inl ⟨refreshed.result, List.mem_singleton.mp he⟩

theorem closes_of_mem_tellBegun (he : e ∈ w.tellBegun task deadline kinds) :
    ∃ k ∈ kinds, Closes task k e := by
  induction kinds generalizing w with
  | nil => simp [tellBegun] at he
  | cons k rest ih =>
    rcases List.mem_append.mp he with he | he
    · obtain ⟨l, hl, hc⟩ := ih he
      exact ⟨l, List.mem_cons_of_mem _ hl, hc⟩
    · exact ⟨k, List.mem_cons_self, closes_of_mem_tellLoad he⟩

theorem closes_of_mem_tellPolled {warmUps : WarmUps}
    (he : e ∈ w.tellPolled task deadline warmUps) : ∃ k ∈ kindsOf warmUps, Closes task k e := by
  induction warmUps generalizing w with
  | nil => simp [tellPolled] at he
  | cons warmUp rest ih =>
    rcases warmUp with ⟨k, r | result⟩
    · rcases List.mem_append.mp he with he | he
      · obtain ⟨l, hl, hc⟩ := ih he
        exact ⟨l, List.mem_cons_of_mem _ hl, hc⟩
      · exact ⟨k, List.mem_cons_self, closes_of_mem_tellLoad he⟩
    · obtain ⟨l, hl, hc⟩ := ih he
      exact ⟨l, List.mem_cons_of_mem _ hl, hc⟩

theorem task_of_closes {k : CacheKind} (h : Closes task k e) : e.task? = some task := by
  rcases h with ⟨_, rfl⟩ | ⟨_, rfl⟩ <;> rfl

theorem mem_tellEnd {next : Activity ⊕ Reply} :
    e ∈ tellEnd task next ↔ ∃ reply, next = .inr reply ∧ e = .ended task reply := by
  cases next <;> simp [tellEnd]

/-- What happens when a command begins is a refusal, or concerns first loads. -/
theorem mem_tellBegin (he : e ∈ w.tellBegin task command) :
    command = .start ∧ (e = .refused task ∨ (∃ kinds moment, e = .warming task kinds moment) ∨
      ∃ k, Closes task k e) := by
  cases command with
  | start =>
    simp only [tellBegin] at he
    split at he
    · exact ⟨rfl, Or.inl (List.mem_singleton.mp he)⟩
    · rcases List.mem_append.mp he with he | he
      · obtain ⟨k, -, hc⟩ := closes_of_mem_tellBegun he
        exact ⟨rfl, Or.inr (Or.inr ⟨k, hc⟩)⟩
      · exact ⟨rfl, Or.inr (Or.inl ⟨_, _, List.mem_singleton.mp he⟩)⟩
  | _ => cases he

/-- What happens within an activity concerns first loads, or the update of a loop. -/
theorem mem_tellWithin (he : e ∈ w.tellWithin task a) :
    (∃ deadline warmUps, a = .start deadline warmUps ∧ ∃ k ∈ kindsOf warmUps, Closes task k e) ∨
      ∃ loop, a = .loop loop ∧ w.loopBegins loop = true ∧ e = .updating task loop.kind := by
  cases a with
  | start deadline warmUps =>
    exact Or.inl ⟨deadline, warmUps, rfl, closes_of_mem_tellPolled he⟩
  | loop loop =>
    simp only [tellWithin] at he
    split at he
    · exact Or.inr ⟨loop, rfl, ‹_›, List.mem_singleton.mp he⟩
    · cases he
  | _ => cases he

theorem pollWarmUp_unmoved {k : CacheKind} {r : Refreshing k}
    (h : (w.pollWarmUp k deadline (.loading r)).2.2 = false) :
    (w.pollRefreshing k r).2 = none ∧ w.now < deadline := by
  have hnow := (pollRefreshing_touches w k r).now
  unfold pollWarmUp at h
  simp only at h
  split at h
  · cases h
  · rename_i w₁ hp
    rw [hp] at hnow ⊢
    have hlate : decide (deadline ≤ (w₁.expire k deadline (.loading r)).1.now) = false := h
    rw [(expire_touches w₁ k deadline (.loading r)).now, hnow] at hlate
    exact ⟨rfl, by simpa using hlate⟩

/-- First loads that do not move tell nothing. -/
theorem tellPolled_of_unmoved {warmUps : WarmUps}
    (h : (w.pollWarmUps deadline warmUps).2.2 = false) :
    w.tellPolled task deadline warmUps = [] := by
  induction warmUps generalizing w with
  | nil => rfl
  | cons warmUp rest ih =>
    have h : ((w.pollWarmUp warmUp.1 deadline warmUp.2).2.2 ||
        ((w.pollWarmUp warmUp.1 deadline warmUp.2).1.pollWarmUps deadline rest).2.2) = false := h
    obtain ⟨hk, hrest⟩ := Bool.or_eq_false_iff.mp h
    rcases warmUp with ⟨k, r | result⟩
    · obtain ⟨hp, hlt⟩ := pollWarmUp_unmoved hk
      rw [tellPolled, ih hrest, hp]
      exact if_neg (Nat.not_le.mpr hlt)
    · exact ih hrest

theorem idleBegins_of_waits {loop : Loop} (h : (w.pollIdle loop).2 = none) :
    w.idleBegins loop = false := by
  unfold pollIdle at h
  split at h
  · cases h
  · split at h
    · simp only at h
      split at h <;> cases h
    · simp [idleBegins, *]

theorem loopBegins_of_waits {loop : Loop} (h : (w.pollLoop loop).2 = none) :
    w.loopBegins loop = false := by
  rcases loop with ⟨k, period, dueAt, _ | r⟩
  · exact idleBegins_of_waits h
  · unfold pollLoop at h
    unfold loopBegins
    rcases hp : w.pollRefreshing k r with ⟨w₁, _ | r' | refreshed⟩
    · simp only [hp]
    · simp only [hp]
    · simp only [hp] at h
      split at h <;> cases h

/-- An activity that waits on tells nothing. -/
theorem tellWithin_of_waits (h : (w.poll a).2 = none) : w.tellWithin task a = [] := by
  cases a with
  | start deadline warmUps =>
    refine tellPolled_of_unmoved ?_
    simp only [poll, pollStart] at h
    split at h
    · cases h
    · exact Bool.eq_false_iff.mpr ‹_›
  | loop loop => simp [tellWithin, loopBegins_of_waits h]
  | _ => rfl

/-! ## Numbers -/

/-- Tasks have numbers of their own, which were given out. -/
structure Numbered (w : World) : Prop where
  nodup : (w.tasks.map (·.id)).Nodup
  bounded : ∀ t ∈ w.tasks, t.id < w.nextTask

namespace Numbered

theorem congr (h : w.Numbered) (ht : w'.tasks = w.tasks) (hn : w'.nextTask = w.nextTask) :
    w'.Numbered := by
  refine ⟨?_, ?_⟩
  · rw [ht]
    exact h.nodup
  · rw [ht, hn]
    exact h.bounded

theorem grow (h : w.Numbered) (hg : w.Grows kinds w') : w'.Numbered := by
  refine ⟨?_, ?_⟩
  · rw [hg.tasks, List.map_append, ids_loopTasks, List.nodup_append]
    refine ⟨h.nodup, List.nodup_range', ?_⟩
    intro i hi j hj
    obtain ⟨t, ht, rfl⟩ := List.mem_map.mp hi
    have hlt := h.bounded t ht
    have hle := (List.mem_range'_1.mp hj).1
    omega
  · intro t ht
    rw [hg.tasks, List.mem_append] at ht
    rw [hg.nextTask]
    rcases ht with ht | ht
    · exact Nat.lt_add_right _ (h.bounded t ht)
    · obtain ⟨k, -, hs, -⟩ := mem_loopTasks ht
      obtain ⟨i, l, heq, -, hlt, -⟩ := mem_spawnings hs
      cases heq
      exact hlt

theorem addTask (h : w.Numbered) (st : TaskState) : (w.addTask st).1.Numbered := by
  refine ⟨?_, ?_⟩
  · show ((w.tasks ++ [(⟨w.nextTask, st⟩ : Task)]).map (·.id)).Nodup
    rw [List.map_append, List.nodup_append]
    refine ⟨h.nodup, by simp, ?_⟩
    intro i hi j hj
    obtain ⟨t, ht, rfl⟩ := List.mem_map.mp hi
    have hlt := h.bounded t ht
    have hj : j = w.nextTask := List.mem_singleton.mp hj
    omega
  · intro t ht
    show t.id < w.nextTask + 1
    rcases List.mem_append.mp ht with ht | ht
    · exact Nat.lt_succ_of_lt (h.bounded t ht)
    · rw [List.mem_singleton.mp ht]
      exact Nat.lt_succ_self _

theorem setTask (h : w.Numbered) (id : Nat) (st : TaskState) : (w.setTask id st).Numbered := by
  have hids : (w.setTask id st).tasks.map (·.id) = w.tasks.map (·.id) := by
    show (w.tasks.map _).map (fun t : Task => t.id) = _
    rw [List.map_map]
    refine List.map_congr_left ?_
    intro t _
    simp only [Function.comp_apply]
    split <;> rfl
  refine ⟨by rw [hids]; exact h.nodup, ?_⟩
  intro t ht
  have hmem : t.id ∈ w.tasks.map (·.id) := hids ▸ List.mem_map_of_mem ht
  obtain ⟨u, hu, heq⟩ := List.mem_map.mp hmem
  exact heq ▸ h.bounded u hu

theorem drop (h : w.Numbered) (a : Activity) : (w.drop a).Numbered :=
  h.congr (drop_tasks w a).1 (drop_tasks w a).2

theorem lt_of_taskState? (h : w.Numbered) (hs : w.taskState? id = some st) : id < w.nextTask :=
  h.bounded _ (mem_of_taskState? hs)

/-- A task stands between others, which stay when its state is set. -/
theorem split_setTask (h : w.Numbered) (hs : w.taskState? id = some st) (st' : TaskState) :
    ∃ before after, w.tasks = before ++ ⟨id, st⟩ :: after ∧
      (w.setTask id st').tasks = before ++ ⟨id, st'⟩ :: after := by
  obtain ⟨before, after, htasks⟩ := List.append_of_mem (mem_of_taskState? hs)
  have hids := h.nodup
  rw [htasks, List.map_append, List.map_cons, List.nodup_middle, List.nodup_cons,
    ← List.map_append] at hids
  have hsame : ∀ ts : List Task, ts ⊆ before ++ after →
      ts.map (fun t => if t.id = id then { t with state := st' } else t) = ts := by
    intro ts hts
    refine (List.map_congr_left fun t ht => if_neg fun hid => hids.1 ?_).trans (List.map_id' ts)
    exact List.mem_map.mpr ⟨t, hts ht, hid⟩
  refine ⟨before, after, htasks, ?_⟩
  show w.tasks.map _ = _
  rw [htasks, List.map_append, List.map_cons, if_pos rfl,
    hsame before (List.subset_append_left _ _), hsame after (List.subset_append_right _ _)]

end Numbered

/-! ## Loops that are ended -/

theorem abort_of_running (h : w.taskState? id = some (.running a)) :
    w.abort id = (w.drop a).setTask id .aborted := by
  unfold abort
  rw [h]

/-- Refresh loops are ended as if they were aborted in turn. -/
theorem endLoops_induction {P : World → Prop} (hn : w.Numbered)
    (habort : ∀ w id loop, P w → w.taskState? id = some (.running (.loop loop)) → P (w.abort id))
    (h : P w) : P (w.tasks.foldl endLoop w) := by
  have key : ∀ (ts : List Task) (w : World), (ts.map (·.id)).Nodup →
      (∀ t ∈ ts, w.taskState? t.id = some t.state) → P w → P (ts.foldl endLoop w) := by
    intro ts
    induction ts with
    | nil => exact fun w _ _ hw => hw
    | cons t rest ih =>
      intro w hn hs hw
      obtain ⟨hfresh, hrest⟩ := List.nodup_cons.mp hn
      have hst := hs t List.mem_cons_self
      by_cases hl : ∃ loop, t.state = .running (.loop loop)
      · obtain ⟨loop, hl⟩ := hl
        rw [hl] at hst
        have hend : w.endLoop t = w.abort t.id := by
          rw [abort_of_running hst]
          unfold endLoop
          rw [hl]
          rfl
        rw [List.foldl_cons, hend]
        refine ih _ hrest ?_ (habort w t.id loop hw hst)
        intro u hu
        have hne : u.id ≠ t.id := fun heq => by
          have hmem : u.id ∈ rest.map (·.id) := List.mem_map_of_mem hu
          rw [heq] at hmem
          exact hfresh hmem
        rw [abort_of_running hst, taskState?_setTask_of_ne hne,
          taskState?_congr (drop_tasks w (.loop loop)).1]
        exact hs u (List.mem_cons_of_mem _ hu)
      · have hend : w.endLoop t = w := by
          unfold endLoop
          split
          · exact absurd ⟨_, ‹_›⟩ hl
          · rfl
        rw [List.foldl_cons, hend]
        exact ih w hrest (fun u hu => hs u (List.mem_cons_of_mem _ hu)) hw
  exact key w.tasks w hn.nodup (fun t ht => taskState?_of_mem hn.nodup ht) h

theorem Grows.kinds_eq {kinds' : List CacheKind} (h : w.Grows kinds w') (h' : w.Grows kinds' w') :
    kinds' = kinds := by
  have hsame : w.loopTasks w.nextTask kinds' = w.loopTasks w.nextTask kinds :=
    List.append_cancel_left (h'.tasks.symm.trans h.tasks)
  generalize w.nextTask = id at hsame
  clear h h'
  induction kinds generalizing kinds' id with
  | nil =>
    cases kinds' with
    | nil => rfl
    | cons l rest' => cases hsame
  | cons k rest ih =>
    cases kinds' with
    | nil => cases hsame
    | cons l rest' =>
      obtain ⟨hhead, htail⟩ := List.cons.inj hsame
      have hl : l = k := by
        injection hhead with _ hstate
        injection hstate with hactivity
        injection hactivity with hloop
        exact congrArg Loop.kind hloop
      rw [hl, ih _ htail]

theorem taskState?_addTask_self (hn : w.Numbered) (st : TaskState) :
    (w.addTask st).1.taskState? w.nextTask = some st :=
  taskState?_of_mem (hn.addTask st).nodup (List.mem_append_right w.tasks List.mem_cons_self)

theorem taskState?_addTask_of_ne (h : task ≠ w.nextTask) :
    (w.addTask st').1.taskState? task = w.taskState? task := by
  unfold taskState? addTask
  have hne : (w.nextTask == task) = false := by simpa using Ne.symm h
  rw [List.find?_append, List.find?_singleton]
  simp [hne]

/-- The state of a task once the state of another one was set. -/
theorem taskState?_of_set (h : (w.setTask id st').taskState? task = some st) :
    (task = id ∧ st = st') ∨ (task ≠ id ∧ w.taskState? task = some st) := by
  rw [taskState?_setTask] at h
  split at h
  · obtain ⟨_, -, rfl⟩ := Option.map_eq_some_iff.mp h
    exact Or.inl ⟨‹_›, rfl⟩
  · exact Or.inr ⟨‹_›, h⟩

/-- A task of a world that has grown was there, or is a new loop. -/
theorem Grows.taskState? (hg : w.Grows kinds w') (h : w'.taskState? id = some st) :
    w.taskState? id = some st ∨ ∃ k ∈ kinds, .spawned id k ∈ spawnings w.nextTask kinds ∧
      st = .running (.loop (w.newLoop k)) := by
  rcases taskState?_grown hg.tasks h with hold | hnew
  · exact Or.inl hold
  · exact Or.inr (mem_loopTasks hnew)

/-- A task of a world that has grown by loops and another task. -/
theorem Grows.taskState?_addTask (hg : w.Grows kinds w')
    (h : (w'.addTask st').1.taskState? id = some st) :
    w.taskState? id = some st ∨ (id = w'.nextTask ∧ st = st') ∨
      ∃ k ∈ kinds, .spawned id k ∈ spawnings w.nextTask kinds ∧
        st = .running (.loop (w.newLoop k)) := by
  rcases @taskState?_grown w' (w'.addTask st').1 id st [⟨w'.nextTask, st'⟩] rfl h with hold | hnew
  · exact (hg.taskState? hold).imp_right Or.inr
  · obtain ⟨rfl, rfl⟩ := Task.mk.inj (List.mem_singleton.mp hnew)
    exact Or.inr (Or.inl ⟨rfl, rfl⟩)

end World

/-! ## Steps -/

namespace Course

open World

/-- What a step of a course can do. -/
inductive Step (s : Course) : Course → Prop where
  | asked (command : Command) (w : World) (next : Activity ⊕ Reply) (kinds : List CacheKind)
    (hb : s.world.begin command = (w, next)) (hg : s.world.Grows kinds w)
    (hk : ∀ k ∈ kinds, k ∈ s.world.kindsAsked command) :
    Step s { s with
      world := (w.addTask (stateAfter next)).1
      log := spawnings s.world.nextTask kinds ++ (tellEnd w.nextTask next ++
        (s.world.tellBegin w.nextTask command ++ [.asked w.nextTask command])) ++ s.log }
  /-- A task is polled and moves. -/
  | moved (task : Nat) (a : Activity) (w : World) (next : Activity ⊕ Reply)
    (kinds : List CacheKind) (ht : s.world.taskState? task = some (.running a))
    (hp : s.world.poll a = (w, some next)) (hg : s.world.Grows kinds w)
    (hk : ∀ k ∈ kinds, k ∈ a.kinds) :
    Step s { s with
      world := w.setTask task (stateAfter next)
      log := spawnings s.world.nextTask kinds ++ (tellEnd task next ++
        s.world.tellWithin task a) ++ s.log }
  /-- A task is polled and has to wait on. -/
  | waited (task : Nat) (a : Activity) (w : World)
    (ht : s.world.taskState? task = some (.running a)) (hp : s.world.poll a = (w, none))
    (hg : s.world.Grows [] w) :
    Step s { s with world := w }
  | dropped (task : Nat) (a : Activity) (ht : s.world.taskState? task = some (.running a)) :
    Step s { s with
      world := (s.world.drop a).setTask task .aborted
      log := .dropped task :: s.log }
  | answered (task : Nat) (a : Activity) (f : PullChange)
    (ht : s.world.taskState? task = some (.running a)) :
    Step s { s with world := s.world.setTask task (.running (a.mapPulls f)) }
  | opened (requests : List OpenRequest) :
    Step s { s with
      world := { s.world with manager := (s.world.manager.openAll requests).1 }
      log := .opened requests :: s.log }
  | cleared : Step s { s with world := { s.world with manager := s.world.manager.clear } }
  | closed : Step s { s with world := s.world.close }
  /-- The clock or the store is changed. -/
  | outside (now : Nat) (store : Store) (hn : s.world.now ≤ now) :
    Step s { s with world := { s.world with now, store } }
  | enrolled : Step s { s with world := s.world.mapScope Scope.register, guests := s.guests + 1 }
  | withdrawn (hg : s.guests ≠ 0) :
    Step s { s with world := s.world.mapScope Scope.release, guests := s.guests - 1 }
  | idle : Step s s

theorem act_step (s : Course) (a : Action) : Step s (s.act a) := by
  cases a with
  | ask command =>
    obtain ⟨kinds, hg, hk⟩ := begin_grows s.world command
    have h := Step.asked command (s.world.begin command).1 (s.world.begin command).2 kinds rfl hg hk
    rw [← hg.newcomers_eq] at h
    simpa only [act, spawn, tellAsk, List.append_assoc] using h
  | poll task =>
    rcases hst : s.world.taskState? task with _ | (a | _ | _)
    · simpa only [act, pollTask, tellPoll, hst, List.nil_append] using Step.idle
    · obtain ⟨kinds, hg, hk, hnone⟩ := poll_grows s.world a
      have hwaits := @tellWithin_of_waits s.world task a
      rcases hp : s.world.poll a with ⟨w, _ | next⟩
      · rw [hp] at hg hnone hwaits
        obtain rfl := hnone rfl
        have h := Step.waited task a w hst hp hg
        simpa only [act, pollTask, tellPoll, hst, hp, hg.newcomers_eq, hwaits rfl, spawnings,
          Option.elim_none, List.nil_append] using h
      · rw [hp] at hg
        have h := Step.moved task a w next kinds hst hp hg hk
        simpa only [act, pollTask, tellPoll, hst, hp, hg.newcomers_eq, Option.elim_some,
          List.append_assoc] using h
    · simpa only [act, pollTask, tellPoll, hst, List.nil_append] using Step.idle
    · simpa only [act, pollTask, tellPoll, hst, List.nil_append] using Step.idle
  | drop task =>
    rcases hst : s.world.taskState? task with _ | (a | _ | _)
    · simpa only [act, abort, tellDrop, hst, List.nil_append] using Step.idle
    · simpa only [act, abort, tellDrop, hst, List.singleton_append] using Step.dropped task a hst
    · simpa only [act, abort, tellDrop, hst, List.nil_append] using Step.idle
    · simpa only [act, abort, tellDrop, hst, List.nil_append] using Step.idle
  | answer task f =>
    rcases hst : s.world.taskState? task with _ | (a | _ | _)
    · simpa only [act, answer, hst] using Step.idle
    · simpa only [act, answer, hst] using Step.answered task a f hst
    · simpa only [act, answer, hst] using Step.idle
    · simpa only [act, answer, hst] using Step.idle
  | openAll requests => exact .opened requests
  | clear => exact .cleared
  | close => exact .closed
  | pass span => exact .outside _ _ (Nat.le_add_right _ _)
  | keep store => exact .outside _ store (Nat.le_refl _)
  | enroll => exact .enrolled
  | withdraw =>
    simp only [act]
    split
    · exact .idle
    · exact .withdrawn ‹_›

/-! ## Numbers that were given out -/

/-- The tasks are numbered, and the log mentions only numbers that were given out. -/
structure Numbered (s : Course) : Prop where
  world : s.world.Numbered
  log : ∀ e ∈ s.log, ∀ id, e.task? = some id → id < s.world.nextTask

variable {s s' : Course}

/-- An occurrence that is told when a command is given is about a new task. -/
theorem task_of_asked {w : World} {command : Command} {next : Activity ⊕ Reply} {task : Nat}
    {e : Occurrence} (he : e ∈ tellEnd task next ++ (w.tellBegin task command ++
      [.asked task command])) : e.task? = some task := by
  rcases List.mem_append.mp he with he | he
  · obtain ⟨reply, -, rfl⟩ := mem_tellEnd.mp he
    rfl
  · rcases List.mem_append.mp he with he | he
    · obtain ⟨-, rfl | ⟨_, _, rfl⟩ | ⟨k, hk⟩⟩ := mem_tellBegin he
      · rfl
      · rfl
      · exact task_of_closes hk
    · rw [List.mem_singleton.mp he]
      rfl

/-- An occurrence that is told when a task is polled is about this task. -/
theorem task_of_moved {w : World} {next : Activity ⊕ Reply} {a : Activity} {task : Nat}
    {e : Occurrence} (he : e ∈ tellEnd task next ++ w.tellWithin task a) :
    e.task? = some task := by
  rcases List.mem_append.mp he with he | he
  · obtain ⟨reply, -, rfl⟩ := mem_tellEnd.mp he
    rfl
  · obtain ⟨_, _, -, k, -, hk⟩ | ⟨loop, -, -, rfl⟩ := mem_tellWithin he
    · exact task_of_closes hk
    · rfl

/-- Whatever is told beside new loops is told of a task. -/
theorem task_of_spawnings {id task : Nat} {kinds : List CacheKind} {told : List Occurrence}
    (h : ∀ e ∈ told, e.task? = some task) : ∀ e ∈ spawnings id kinds ++ told, e.task? ≠ none := by
  intro e he
  rcases List.mem_append.mp he with he | he
  · obtain ⟨i, k, rfl, -⟩ := mem_spawnings he
    exact Option.some_ne_none i
  · rw [h e he]
    exact Option.some_ne_none task

theorem Numbered.step (h : s.Numbered) (hs : Step s s') : s'.Numbered := by
  have hlt : ∀ {kinds : List CacheKind} {e : Occurrence},
      e ∈ spawnings s.world.nextTask kinds →
      ∀ id, e.task? = some id → id < s.world.nextTask + kinds.length := by
    intro kinds e he id hid
    obtain ⟨i, k, rfl, -, hi, -⟩ := mem_spawnings he
    cases hid
    exact hi
  cases hs with
  | asked command w next kinds hb hg hk =>
    refine ⟨(h.world.grow hg).addTask _, ?_⟩
    intro e he id hid
    show id < w.nextTask + 1
    rw [hg.nextTask]
    rcases List.mem_append.mp he with he | he
    · rcases List.mem_append.mp he with he | he
      · exact Nat.lt_succ_of_lt (hlt he id hid)
      · rw [task_of_asked he] at hid
        cases hid
        rw [hg.nextTask]
        exact Nat.lt_succ_self _
    · have hold := h.log e he id hid
      omega
  | moved task a w next kinds ht hp hg hk =>
    refine ⟨(h.world.grow hg).setTask _ _, ?_⟩
    intro e he id hid
    show id < w.nextTask
    rw [hg.nextTask]
    rcases List.mem_append.mp he with he | he
    · rcases List.mem_append.mp he with he | he
      · exact hlt he id hid
      · rw [task_of_moved he] at hid
        cases hid
        exact Nat.lt_add_right _ (h.world.lt_of_taskState? ht)
    · exact Nat.lt_add_right _ (h.log e he id hid)
  | waited task a w ht hp hg =>
    refine ⟨h.world.grow hg, ?_⟩
    rw [hg.nextTask]
    exact h.log
  | dropped task a ht =>
    refine ⟨(h.world.drop a).setTask _ _, ?_⟩
    intro e he id hid
    show id < (s.world.drop a).nextTask
    rw [(drop_tasks s.world a).2]
    rcases List.mem_cons.mp he with rfl | he
    · cases hid
      exact h.world.lt_of_taskState? ht
    · exact h.log e he id hid
  | answered task a f ht => exact ⟨h.world.setTask _ _, h.log⟩
  | opened requests =>
    refine ⟨h.world.congr rfl rfl, ?_⟩
    intro e he id hid
    rcases List.mem_cons.mp he with rfl | he
    · cases hid
    · exact h.log e he id hid
  | closed =>
    have hloops : (s.world.tasks.foldl endLoop s.world).Numbered ∧
        (s.world.tasks.foldl endLoop s.world).nextTask = s.world.nextTask := by
      refine @endLoops_induction s.world
        (fun w => w.Numbered ∧ w.nextTask = s.world.nextTask) h.world ?_ ⟨h.world, rfl⟩
      rintro w id loop ⟨hw, hn⟩ hst
      rw [abort_of_running hst]
      exact ⟨(hw.drop _).setTask _ _, (drop_tasks w (.loop loop)).2.trans hn⟩
    refine ⟨hloops.1.congr rfl rfl, ?_⟩
    show ∀ e ∈ s.log, ∀ id, e.task? = some id → id < (s.world.tasks.foldl endLoop s.world).nextTask
    rw [hloops.2]
    exact h.log
  | cleared | outside | enrolled | withdrawn => exact ⟨h.world.congr rfl rfl, h.log⟩
  | idle => exact h

theorem outset_numbered (manager : Manager) (store : Store) (origin : Instant) (now : Nat) :
    (outset manager store origin now).Numbered := by
  refine ⟨⟨List.nodup_nil, ?_⟩, ?_⟩
  · exact fun t ht => absurd ht List.not_mem_nil
  · exact fun e he => absurd he List.not_mem_nil

end Course

end GovernanceCache
