import GovernanceCache.Proofs.WorldCourse

/-!
# What is opened

The scheduled kinds are those that requests have opened, each list of requests up to the first one
that is refused. As long as the caches are refreshed only through their manager, whatever is asked
of the store is asked for a scheduled kind, and the caches of the other kinds stay as they are.

1. A command, a poll and a drop stay within the kinds of their activity (`begin_within`,
   `poll_within`, `drop_within`).
2. The activities that run concern scheduled kinds; `Scheduling` collects this, and every step of a
   managed course keeps it.
-/

namespace GovernanceCache

/-! ## Requests -/

namespace Roster

/-- The options of a request are refused by the cache that it names. -/
def refuses (roster : Roster) (request : OpenRequest) : Bool :=
  match roster.get? request.name, InstanceOptions.ofOptions? request.options with
  | some .instances, .error _ => true
  | _, _ => false

/-- The kinds that requests open: those of the registered names before the first request that is
refused. -/
def openedBy (roster : Roster) (requests : List OpenRequest) : List CacheKind :=
  (requests.takeWhile fun r => !roster.refuses r).filterMap fun r => roster.get? r.name

end Roster

/-- The kinds that an occurrence opens. -/
def Occurrence.opens (roster : Roster) : Occurrence → List CacheKind
  | .opened requests => roster.openedBy requests
  | _ => []

/-- The kinds that were opened. -/
def openedKinds (roster : Roster) (log : List Occurrence) : List CacheKind :=
  log.flatMap (Occurrence.opens roster)

/-- An occurrence about a task opens nothing. -/
theorem openedKinds_of_tasks {roster : Roster} {told log : List Occurrence}
    (h : ∀ e ∈ told, e.task? ≠ none) :
    openedKinds roster (told ++ log) = openedKinds roster log := by
  have hnil : told.flatMap (Occurrence.opens roster) = [] := by
    rw [List.flatMap_eq_nil_iff]
    intro e he
    cases e with
    | opened requests => exact absurd rfl (h _ he)
    | _ => rfl
  unfold openedKinds
  rw [List.flatMap_append, hnil, List.nil_append]

namespace Manager

variable {m m' : Manager} {k l : CacheKind}

theorem mem_scheduled : k ∈ m.scheduled ↔ m.isScheduled k = true := by
  unfold scheduled
  rw [List.mem_filter]
  refine and_iff_right ?_
  rcases k with _ | _ | _ | (_ | _ | _ | _ | _) <;> decide

/-- What opening a kind changes, and that its options were accepted. -/
theorem openKind_eq_ok {name : String} {options : Options} (hget : m.roster.get? name = some k)
    (h : m.openKind k options = .ok m') :
    (∃ o, m' = { m with instanceOptions := o, opened := m.opened.set k true }) ∧
      m.roster.refuses ⟨name, options⟩ = false := by
  unfold openKind configure at h
  unfold Roster.refuses
  rw [hget]
  split at h
  · rcases ho : InstanceOptions.ofOptions? options with fault | o <;> rw [ho] at h <;> cases h
    exact ⟨⟨o, rfl⟩, rfl⟩
  · rename_i hk
    cases h
    refine ⟨⟨m.instanceOptions, rfl⟩, ?_⟩
    split
    · exact absurd (Option.some.inj ‹_›) hk
    · rfl

theorem openKind_eq_error {name : String} {options : Options} {fault : Fault}
    (hget : m.roster.get? name = some k) (h : m.openKind k options = .error fault) :
    m.roster.refuses ⟨name, options⟩ = true := by
  unfold openKind configure at h
  unfold Roster.refuses
  rw [hget]
  split at h
  · rcases ho : InstanceOptions.ofOptions? options with fault | o
    · rfl
    · rw [ho] at h
      cases h
  · cases h

/-- Requests schedule the kinds that they open, and change nothing but options besides. -/
theorem openAll_spec (m : Manager) (requests : List OpenRequest) :
    (∃ o opened, (m.openAll requests).1 = { m with instanceOptions := o, opened }) ∧
      ∀ k, (m.openAll requests).1.isScheduled k = true ↔
        m.isScheduled k = true ∨ k ∈ m.roster.openedBy requests := by
  induction requests generalizing m with
  | nil => exact ⟨⟨_, _, rfl⟩, fun k => by simp [openAll, Roster.openedBy]⟩
  | cons request rest ih =>
    unfold openAll
    cases hget : m.roster.get? request.name with
    | none =>
      have hby : m.roster.openedBy (request :: rest) = m.roster.openedBy rest := by
        simp [Roster.openedBy, Roster.refuses, hget]
      rw [hby]
      exact ih m
    | some k =>
      simp only
      cases hopen : m.openKind k request.options with
      | ok m₁ =>
        obtain ⟨⟨o, rfl⟩, hrefuses⟩ := openKind_eq_ok hget hopen
        have hby : m.roster.openedBy (request :: rest) = k :: m.roster.openedBy rest := by
          simp [Roster.openedBy, hrefuses, hget]
        obtain ⟨⟨o', opened, heq⟩, hsched⟩ := ih { m with
          instanceOptions := o, opened := m.opened.set k true }
        refine ⟨⟨o', opened, heq⟩, ?_⟩
        intro l
        rw [hby, hsched l, List.mem_cons]
        by_cases hl : l = k
        · subst hl
          simp [isScheduled]
        · simp [isScheduled, ByKind.get_set_of_ne _ _ hl, hl]
      | error fault =>
        have hby : m.roster.openedBy (request :: rest) = [] := by
          simp [Roster.openedBy, openKind_eq_error hget hopen]
        rw [hby]
        exact ⟨⟨_, _, rfl⟩, fun l => by simp⟩

theorem clear_alters (m : Manager) : m.Alters (· ∈ m.scheduled) m.clear :=
  Alters.foldl (fun m k => .withCache m k _) m.scheduled m

theorem close_alters (m : Manager) : m.Alters (· ∈ m.scheduled) m.close :=
  Alters.foldl (fun m k => .withCache m k _) m.scheduled m

end Manager

namespace World

variable {w w' w'' : World} {p q : CacheKind → Prop} {a : Activity} {c : Command}

/-! ## Steps within kinds -/

/-- Only the caches of the named kinds change, and the store is asked for these kinds only. -/
structure Within (p : CacheKind → Prop) (w w' : World) : Prop where
  manager : w.manager.Alters p w'.manager
  asked : ∀ a ∈ w'.asked, a ∈ w.asked ∨ p a.kind

theorem Touches.within (h : w.Touches p w') : w.Within p w' := ⟨h.manager, h.asked⟩

namespace Within

theorem refl (p : CacheKind → Prop) (w : World) : w.Within p w := ⟨.refl p _, fun _ => Or.inl⟩

theorem trans (h : w.Within p w') (h' : w'.Within p w'') : w.Within p w'' :=
  ⟨h.manager.trans h'.manager, fun a ha => (h'.asked a ha).elim (h.asked a) Or.inr⟩

theorem mono (h : w.Within p w') (hpq : ∀ k, p k → q k) : w.Within q w' :=
  ⟨h.manager.mono hpq, fun a ha => (h.asked a ha).imp_right (hpq a.kind)⟩

end Within

theorem resumeStart_within (p : CacheKind → Prop) (w : World) (deadline : Nat)
    (warmUps : WarmUps) : w.Within p (w.resumeStart deadline warmUps).1 := by
  have h := resumeStart_resumption w deadline warmUps
  generalize w.resumeStart deadline warmUps = resumed at h ⊢
  cases h with
  | waits => exact .refl p w
  | succeeds =>
    rw [foldl_spawnLoop]
    exact ⟨.refl p _, fun _ => Or.inl⟩
  | fails => exact ⟨⟨rfl, rfl, rfl, fun _ _ => rfl⟩, fun _ => Or.inl⟩

theorem begin_within (w : World) (c : Command) :
    w.Within (· ∈ w.kindsAsked c) (w.begin c).1 := by
  by_cases hc : c.isPlain
  · exact (begin_touches w hc).within
  · cases c with
    | start =>
      by_cases hs : w.manager.started = true
      · rw [begin_start_of_started hs]
        exact .refl _ w
      · rw [begin_start_of_idle hs]
        have hmark : w.Within (· ∈ w.manager.scheduled) w.marked :=
          ⟨⟨rfl, rfl, rfl, fun _ _ => rfl⟩, fun _ => Or.inl⟩
        exact (hmark.trans w.firstLoads_touches.within).trans (resumeStart_within _ _ _ _)
    | stop grace =>
      simp only [begin, beginStop, Scope.beginStop]
      split <;> exact ⟨.refl _ _, fun _ => Or.inl⟩
    | refresh | forceUpdate | sleep | watchSize | findNamespace | pull | join => exact absurd rfl hc

theorem poll_within (w : World) (a : Activity) : w.Within (· ∈ a.kinds) (w.poll a).1 := by
  by_cases ha : a.isPlain
  · exact (poll_touches w ha).within
  · cases a with
    | start deadline warmUps =>
      have hpoll := (pollWarmUps_touches w deadline warmUps).within
      simp only [poll, pollStart]
      split
      · exact hpoll.trans (resumeStart_within _ _ _ _)
      · exact hpoll
    | loop loop =>
      have hpoll := (pollLoop_touches w loop).single.within
      exact ⟨hpoll.manager, hpoll.asked⟩
    | refresh | stop | sleep | watchSize | findNamespace | pull | join => exact absurd rfl ha

theorem drop_within (w : World) (a : Activity) : w.Within (· ∈ a.kinds) (w.drop a) := by
  by_cases ha : a.isPlain
  · exact (drop_touches w ha).within
  · cases a with
    | start deadline warmUps => exact (dropWarmUps_touches w warmUps).within
    | loop loop =>
      have hdrop := (dropLoop_touches w loop).single.within
      exact ⟨hdrop.manager, hdrop.asked⟩
    | refresh | stop | sleep | watchSize | findNamespace | pull | join => exact absurd rfl ha

/-- A start that goes on concerns the same kinds. -/
theorem resumeStart_kinds {deadline : Nat} {warmUps : WarmUps}
    (h : (w.resumeStart deadline warmUps).2 = .inl a) : a = .start deadline warmUps := by
  have hr := resumeStart_resumption w deadline warmUps
  generalize w.resumeStart deadline warmUps = resumed at h hr
  cases hr <;> cases h
  rfl

/-- A command becomes an activity of the kinds that it asks for. -/
theorem begin_kinds (h : (w.begin c).2 = .inl a) : ∀ k ∈ a.kinds, k ∈ w.kindsAsked c := by
  by_cases hc : c.isPlain
  · rw [(begin_plain hc h).2]
    exact fun _ => id
  · cases c with
    | start =>
      by_cases hs : w.manager.started = true
      · rw [begin_start_of_started hs] at h
        cases h
      · rw [begin_start_of_idle hs] at h
        rw [resumeStart_kinds h]
        show ∀ k ∈ kindsOf w.firstLoads.2, _
        rw [kindsOf_firstLoads]
        exact fun _ => id
    | stop grace =>
      simp only [begin, beginStop, resumeStop] at h
      split at h
      · cases h
      · split at h <;> cases h
        exact List.forall_mem_nil _
    | refresh | forceUpdate | sleep | watchSize | findNamespace | pull | join => exact absurd rfl hc

theorem pollIdle_loop {loop : Loop} (h : (w.pollIdle loop).2 = some (.inl a)) :
    ∃ l, a = .loop l ∧ l.kind = loop.kind := by
  unfold pollIdle at h
  split at h
  · cases h
  · split at h
    · simp only at h
      split at h <;> cases h <;> exact ⟨_, rfl, rfl⟩
    · cases h

/-- A loop that goes on is a loop of the same kind. -/
theorem pollLoop_loop {loop : Loop} (h : (w.pollLoop loop).2 = some (.inl a)) :
    ∃ l, a = .loop l ∧ l.kind = loop.kind := by
  rcases loop with ⟨k, period, dueAt, _ | r⟩
  · exact pollIdle_loop h
  · unfold pollLoop at h
    simp only at h
    split at h
    · cases h
    · cases h
      exact ⟨_, rfl, rfl⟩
    · rename_i w₁ _ _
      have hidle := @pollIdle_loop (w₁.mapScope Scope.release) a ⟨k, period, dueAt, none⟩
      split at h
      · cases h
        exact ⟨_, rfl, rfl⟩
      · rename_i hi
        rw [hi] at hidle
        exact hidle h

theorem poll_kinds {b : Activity} (h : (w.poll a).2 = some (.inl b)) :
    ∀ k ∈ b.kinds, k ∈ a.kinds := by
  by_cases ha : a.isPlain
  · rw [(poll_plain ha h).2]
    exact fun _ => id
  · cases a with
    | start deadline warmUps =>
      simp only [poll, pollStart] at h
      split at h
      · rw [resumeStart_kinds (Option.some.inj h)]
        show ∀ k ∈ kindsOf (w.pollWarmUps deadline warmUps).2.1, _
        rw [kindsOf_pollWarmUps]
        exact fun _ => id
      · cases h
    | loop loop =>
      obtain ⟨l, rfl, hk⟩ := pollLoop_loop h
      simp [Activity.kinds, hk]
    | refresh | stop | sleep | watchSize | findNamespace | pull | join => exact absurd rfl ha

end World

/-! ## Managed courses -/

/-- The command refreshes a cache through the manager only, if it does at all. -/
def Command.isManaged : Command → Bool
  | .refresh .. | .findNamespace _ => false
  | _ => true

/-- The caches are refreshed only through their manager, and starts run to their end. -/
structure Managed (log : List Occurrence) : Prop where
  commands : ∀ task c, .asked task c ∈ log → c.isManaged = true
  starts : ∀ task, .asked task .start ∈ log → .dropped task ∉ log

theorem Managed.of_append {told log : List Occurrence} (h : Managed (told ++ log)) :
    Managed log :=
  ⟨fun task c he => h.commands task c (List.mem_append_right _ he),
    fun task he hd => h.starts task (List.mem_append_right _ he) (List.mem_append_right _ hd)⟩

theorem Activity.kinds_mapPulls (f : PullChange) (a : Activity) :
    (a.mapPulls f).kinds = a.kinds := by
  cases a with
  | start deadline warmUps =>
    show World.kindsOf (warmUps.map _) = World.kindsOf warmUps
    unfold World.kindsOf
    rw [List.map_map]
    rfl
  | _ => rfl

namespace Course

open World

variable {m : Manager} {s s' : Course} {told : List Occurrence}

theorem isScheduled_of_managed {w : World} {c : Command} (hc : c.isManaged = true) :
    ∀ k ∈ w.kindsAsked c, w.manager.isScheduled k = true := by
  intro k hk
  cases c with
  | forceUpdate l =>
    simp only [kindsAsked] at hk
    split at hk
    · rw [List.mem_singleton.mp hk]
      assumption
    · cases hk
  | start => exact Manager.mem_scheduled.mp hk
  | refresh | findNamespace => cases hc
  | stop | sleep | watchSize | pull | join => cases hk

/-- The scheduled kinds are those that were opened, and nothing concerns any other kind. -/
structure Scheduling (m : Manager) (s : Course) : Prop where
  roster : s.world.manager.roster = m.roster
  settings : s.world.manager.settings = m.settings
  opened : ∀ k, s.world.manager.isScheduled k = true ↔ k ∈ openedKinds m.roster s.log
  /-- The activities that run concern scheduled kinds. -/
  confined : ∀ id a, s.world.taskState? id = some (.running a) →
    ∀ k ∈ a.kinds, s.world.manager.isScheduled k = true
  asked : ∀ a ∈ s.world.asked, s.world.manager.isScheduled a.kind = true
  /-- The caches of the other kinds are as they were. -/
  dormant : ∀ k, ¬ s.world.manager.isScheduled k = true → s.world.cache k = m.cache k

namespace Scheduling

/-- A step within the scheduled kinds that opens none keeps everything. -/
theorem frame (h : Scheduling m s)
    (hw : s.world.Within (s.world.manager.isScheduled · = true) s'.world)
    (hlog : openedKinds m.roster s'.log = openedKinds m.roster s.log)
    (hrun : ∀ id a, s'.world.taskState? id = some (.running a) →
      ∀ k ∈ a.kinds, s.world.manager.isScheduled k = true) : Scheduling m s' := by
  have hsame := hw.manager.isScheduled
  refine ⟨hw.manager.roster.trans h.roster, hw.manager.settings.trans h.settings, ?_, ?_, ?_, ?_⟩
  · intro k
    rw [hsame, hlog]
    exact h.opened k
  · intro id a hid k hk
    rw [hsame]
    exact hrun id a hid k hk
  · intro a ha
    rw [hsame]
    rcases hw.asked a ha with ha | ha
    · exact h.asked a ha
    · exact ha
  · intro k hk
    rw [hsame] at hk
    exact (hw.manager.cache k hk).trans (h.dormant k hk)

/-- A task is dropped. -/
theorem abort (h : Scheduling m s) {task : Nat} {a : Activity}
    (ht : s.world.taskState? task = some (.running a))
    (hw : s'.world = (s.world.drop a).setTask task .aborted)
    (hlog : openedKinds m.roster s'.log = openedKinds m.roster s.log) : Scheduling m s' := by
  have hdrop := (drop_within s.world a).mono fun k hk => h.confined task a ht k hk
  refine h.frame ?_ hlog ?_
  · rw [hw]
    exact ⟨hdrop.manager, hdrop.asked⟩
  · intro id b hid
    rw [hw] at hid
    rcases taskState?_of_set hid with ⟨-, heq⟩ | ⟨-, hid⟩
    · cases heq
    · rw [taskState?_congr (drop_tasks s.world a).1] at hid
      exact h.confined id b hid

/-- A step that leaves the tasks alone. -/
theorem still (h : Scheduling m s)
    (hw : s.world.Within (s.world.manager.isScheduled · = true) s'.world)
    (hlog : openedKinds m.roster s'.log = openedKinds m.roster s.log)
    (htasks : s'.world.tasks = s.world.tasks) : Scheduling m s' := by
  refine h.frame hw hlog ?_
  intro id a hid
  rw [taskState?_congr htasks] at hid
  exact h.confined id a hid

/-- Requests are opened. -/
theorem openAll (h : Scheduling m s) (requests : List OpenRequest)
    (hw : s'.world = { s.world with manager := (s.world.manager.openAll requests).1 })
    (hlog : s'.log = .opened requests :: s.log) : Scheduling m s' := by
  obtain ⟨⟨o, opened, heq⟩, hsched⟩ := s.world.manager.openAll_spec requests
  have hstays : ∀ k, s.world.manager.isScheduled k = true →
      s'.world.manager.isScheduled k = true := by
    intro k hk
    rw [hw]
    exact (hsched k).mpr (Or.inl hk)
  refine ⟨?_, ?_, ?_, ?_, ?_, ?_⟩
  · rw [hw, heq]
    exact h.roster
  · rw [hw, heq]
    exact h.settings
  · intro k
    have hnew : openedKinds m.roster s'.log =
        m.roster.openedBy requests ++ openedKinds m.roster s.log := by
      rw [hlog]
      rfl
    rw [hw, hnew, List.mem_append, Or.comm, ← h.opened k, ← h.roster]
    exact hsched k
  · intro id a hid k hk
    rw [hw] at hid
    exact hstays k (h.confined id a hid k hk)
  · intro a ha
    rw [hw] at ha
    exact hstays a.kind (h.asked a ha)
  · intro k hk
    have hold : ¬ s.world.manager.isScheduled k = true := fun hs => hk (hstays k hs)
    rw [hw, heq]
    exact h.dormant k hold

/-- A step of a managed course keeps the scheduled kinds apart from the others. -/
theorem step (h : Scheduling m s) (hn : s.Numbered) (hs : Step s s') (hm : Managed s'.log) :
    Scheduling m s' := by
  cases hs with
  | asked command w next kinds hb hg hk =>
    have hmanaged := hm.commands w.nextTask command (by simp)
    have hsched := isScheduled_of_managed (w := s.world) hmanaged
    have hwithin := (begin_within s.world command).mono hsched
    have hkinds := @begin_kinds s.world
    rw [hb] at hwithin
    refine h.frame ⟨hwithin.manager, hwithin.asked⟩ ?_ ?_
    · exact openedKinds_of_tasks (task_of_spawnings fun e => task_of_asked)
    · intro id a hid k hmem
      rcases hg.taskState?_addTask hid with hid | ⟨-, heq⟩ | ⟨l, hl, -, heq⟩
      · exact h.confined id a hid k hmem
      · cases next with
        | inl b =>
          cases heq
          exact hsched k (begin_kinds (congrArg Prod.snd hb) k hmem)
        | inr reply => cases heq
      · cases heq
        rw [List.mem_singleton.mp hmem]
        exact hsched l (hk l hl)
  | moved task a w next kinds ht hp hg hk =>
    have hwithin := (poll_within s.world a).mono fun k hk => h.confined task a ht k hk
    rw [hp] at hwithin
    refine h.frame ⟨hwithin.manager, hwithin.asked⟩ ?_ ?_
    · exact openedKinds_of_tasks (task_of_spawnings fun e => task_of_moved)
    · intro id b hid k hmem
      rcases taskState?_of_set hid with ⟨rfl, heq⟩ | ⟨-, hid⟩
      · cases next with
        | inl c =>
          cases heq
          exact h.confined _ a ht k (poll_kinds (congrArg Prod.snd hp) k hmem)
        | inr reply => cases heq
      · rcases hg.taskState? hid with hid | ⟨l, hl, -, heq⟩
        · exact h.confined id b hid k hmem
        · cases heq
          rw [List.mem_singleton.mp hmem]
          exact h.confined task a ht l (hk l hl)
  | waited task a w ht hp hg =>
    have hwithin := (poll_within s.world a).mono fun k hk => h.confined task a ht k hk
    rw [hp] at hwithin
    exact h.still hwithin rfl (by simpa [loopTasks] using hg.tasks)
  | dropped task a ht => exact h.abort ht rfl rfl
  | answered task a f ht =>
    refine h.frame ⟨.refl _ _, fun _ => Or.inl⟩ rfl ?_
    intro id b hid
    rcases taskState?_of_set hid with ⟨rfl, heq⟩ | ⟨-, hid⟩
    · cases heq
      rw [Activity.kinds_mapPulls]
      exact h.confined _ a ht
    · exact h.confined id b hid
  | opened requests => exact h.openAll requests rfl rfl
  | cleared =>
    refine h.still ⟨?_, fun _ => Or.inl⟩ rfl rfl
    exact s.world.manager.clear_alters.mono fun k => Manager.mem_scheduled.mp
  | closed =>
    have hloops : Scheduling m { s with world := s.world.tasks.foldl endLoop s.world } := by
      refine @endLoops_induction s.world (fun w => Scheduling m { s with world := w }) hn.world ?_ h
      intro w id loop hw hst
      exact hw.abort hst (abort_of_running hst) rfl
    refine hloops.still ⟨?_, fun _ => Or.inl⟩ rfl rfl
    exact (Manager.close_alters _).mono fun k => Manager.mem_scheduled.mp
  | outside | enrolled | withdrawn => exact h.still ⟨.refl _ _, fun _ => Or.inl⟩ rfl rfl
  | idle => exact h

end Scheduling

end Course

end GovernanceCache
