import GovernanceCache.Proofs.GracefulStop
import GovernanceCache.Proofs.StartLedger

/-!
# Starts that run

The tasks that run stand as the log tells: a start has begun, its loads stand as told, and one of
them runs; a loop came with a start that succeeded; nothing else has begun to load. Conversely a
start that has begun has ended, or is a task that runs.

1. `Runs` says this of one task, and is kept by whatever concerns other tasks (`Runs.keep`).
2. A start that goes on after a round of its loads waits, fails or succeeds, and the ledger goes
   along (`resume_ledger`).
3. `Tended` collects this, and every step of a managed course keeps it.
-/

namespace GovernanceCache

open World

variable {roster : Roster} {limit task id : Nat} {kinds : List CacheKind} {called : Nat}
  {log told : List Occurrence} {a : Activity}

/-! ## Tasks that run -/

/-- An activity stands as the log tells of its task. -/
def Follows (limit : Nat) (log : List Occurrence) (id : Nat) : Activity → Prop
  | .start deadline warmUps =>
    (∃ called, .warming id (kindsOf warmUps) called ∈ log ∧ deadline = called + limit) ∧
      Stands log id (standing warmUps) ∧ ∃ k, (k, none) ∈ standing warmUps
  | .loop l => .spawned id l.kind ∈ log ∧ ∀ kinds called, .warming id kinds called ∉ log
  | _ => ∀ kinds called, .warming id kinds called ∉ log

/-- A task that runs has not ended, and stands as the log tells. -/
structure Runs (limit : Nat) (log : List Occurrence) (id : Nat) (a : Activity) : Prop where
  unended : ∀ reply, .ended id reply ∉ log
  unrefused : .refused id ∉ log
  follows : Follows limit log id a

theorem follows_of_isPlain (ha : a.isPlain) :
    Follows limit log id a ↔ ∀ kinds called, .warming id kinds called ∉ log := by
  cases a <;> first | exact Iff.rfl | cases ha

/-- A task that is no start has not begun to load. -/
theorem Follows.unwarmed (h : Follows limit log id a) (ha : ∀ deadline ws, a ≠ .start deadline ws) :
    ∀ kinds called, .warming id kinds called ∉ log := by
  cases a with
  | start deadline ws => exact absurd rfl (ha deadline ws)
  | loop l => exact h.2
  | _ => exact h

/-- The occurrence leaves a task as it stands. -/
def Spares (id : Nat) (e : Occurrence) : Prop :=
  e.task? = some id → (∃ k, e = .updating id k) ∨ e = .dropped id

theorem Follows.keep (h : Follows limit log id a) (ht : ∀ e ∈ told, Spares id e) :
    Follows limit (told ++ log) id a := by
  have hnone : (∀ kinds called, .warming id kinds called ∉ log) →
      ∀ kinds called, .warming id kinds called ∉ told ++ log := by
    intro hn kinds called hw
    rcases List.mem_append.mp hw with hw | hw
    · rcases ht _ hw rfl with ⟨_, heq⟩ | heq <;> cases heq
    · exact hn kinds called hw
  cases a with
  | start deadline warmUps =>
    obtain ⟨⟨called, hw, hd⟩, hs, hk⟩ := h
    refine ⟨⟨called, List.mem_append_right _ hw, hd⟩, hs.append ?_, hk⟩
    intro e he k _ hc
    rcases ht e he (task_of_closes hc) with ⟨_, rfl⟩ | rfl <;>
      rcases hc with ⟨_, heq⟩ | ⟨_, heq⟩ <;> cases heq
  | loop l => exact ⟨List.mem_append_right _ h.1, hnone h.2⟩
  | _ => exact hnone h

theorem Runs.keep (h : Runs limit log id a) (ht : ∀ e ∈ told, Spares id e) :
    Runs limit (told ++ log) id a := by
  refine ⟨?_, ?_, h.follows.keep ht⟩
  · intro reply he
    rcases List.mem_append.mp he with he | he
    · rcases ht _ he rfl with ⟨_, heq⟩ | heq <;> cases heq
    · exact h.unended reply he
  · intro he
    rcases List.mem_append.mp he with he | he
    · rcases ht _ he rfl with ⟨_, heq⟩ | heq <;> cases heq
    · exact h.unrefused he

theorem standing_mapPulls (f : PullChange) (warmUps : WarmUps) :
    standing (warmUps.map fun u => ⟨u.1, u.2.mapPull (f u.1)⟩) = standing warmUps := by
  unfold standing
  rw [List.map_map]
  refine List.map_congr_left fun u _ => ?_
  rcases u with ⟨k, r | result⟩ <;> rfl

theorem Runs.mapPulls (h : Runs limit log id a) (f : PullChange) :
    Runs limit log id (a.mapPulls f) := by
  refine ⟨h.unended, h.unrefused, ?_⟩
  cases a with
  | start deadline warmUps =>
    have hfollows := h.follows
    have hkinds := Activity.kinds_mapPulls f (.start deadline warmUps)
    simp only [Activity.kinds, Activity.mapPulls] at hkinds
    simp only [Activity.mapPulls, Follows, standing_mapPulls, hkinds]
    exact hfollows
  | _ => exact h.follows

/-! ## Starts that go on -/

theorem sumsUp {warmUps : WarmUps} {results : List Outcome}
    (hs : Stands log task (standing warmUps)) (hr : warmUpResults? warmUps = some results) :
    SumsUp log task (kindsOf warmUps) (.outcome (Fault.aggregate (faultsOf results))) := by
  refine ⟨results, hs.results hr, rfl, ?_⟩
  rw [Reply.outcome.injEq, aggregate_eq_ok, faultsOf_eq_nil]

/-- After a round of its loads a start waits, fails or succeeds. -/
theorem resume_ledger {w : World} {deadline : Nat} {warmUps : WarmUps}
    (h : Ledger roster limit log w.manager.started)
    (hw : .warming task (kindsOf warmUps) called ∈ log) (hd : deadline = called + limit)
    (hend : ∀ reply, .ended task reply ∉ log) (hrefused : .refused task ∉ log)
    (hstands : Stands log task (standing warmUps))
    (hg : w.Grows kinds (w.resumeStart deadline warmUps).1) :
    Ledger roster limit (spawnings w.nextTask kinds ++
        (tellEnd task (w.resumeStart deadline warmUps).2 ++ log))
      (w.resumeStart deadline warmUps).1.manager.started ∧
    ∀ a, (w.resumeStart deadline warmUps).2 = .inl a →
      Runs limit (spawnings w.nextTask kinds ++
        (tellEnd task (w.resumeStart deadline warmUps).2 ++ log)) task a := by
  have ho : Occupies log task := ⟨_, called, hw, Or.inl hend⟩
  have hlaw : ∀ {results}, warmUpResults? warmUps = some results → StartLaw roster limit log
      (.ended task (.outcome (Fault.aggregate (faultsOf results)))) := by
    intro results hr
    refine ⟨hend, fun href => absurd href hrefused, ?_⟩
    intro kinds' called' hw'
    obtain ⟨rfl, -⟩ := warming_unique h.lawful hw hw'
    exact sumsUp hstands hr
  have hr := resumeStart_resumption w deadline warmUps
  generalize w.resumeStart deadline warmUps = resumed at hr hg ⊢
  cases hr with
  | waits hr =>
    obtain rfl := hg.kinds_eq (.of_eq rfl rfl)
    refine ⟨h, ?_⟩
    rintro a ⟨⟩
    exact ⟨hend, hrefused, ⟨called, hw, hd⟩, hstands, loading_of_results hr⟩
  | succeeds results hr hf =>
    have hgrows : w.Grows (kindsOf warmUps) ((kindsOf warmUps).foldl spawnLoop w) := by
      rw [foldl_spawnLoop]
      exact ⟨rfl, rfl⟩
    have hstarted : ((kindsOf warmUps).foldl spawnLoop w).manager.started = true := by
      rw [foldl_spawnLoop]
      exact h.marked.mpr ⟨task, ho⟩
    obtain rfl := hg.kinds_eq hgrows
    have hok := hlaw hr
    rw [hf] at hok
    refine ⟨?_, fun _ heq => nomatch heq⟩
    simp only [hstarted]
    exact h.succeed hw hend hok _
  | fails results hr hf =>
    obtain rfl := hg.kinds_eq (.of_eq rfl rfl)
    refine ⟨h.fail ho hend (hlaw hr) ?_, fun _ heq => nomatch heq⟩
    rw [Ne, Reply.outcome.injEq, aggregate_eq_ok]
    exact hf

/-- A start goes on after a round of its loads, which stand as the log tells. -/
theorem round_ledger {w : World} {deadline : Nat} {loads : Standing} {warmUps : WarmUps}
    (h : Ledger roster limit log w.manager.started)
    (hu : Underway (StartLaw roster limit) limit deadline log task loads)
    (hw : .warming task (kindsOf warmUps) called ∈ log) (hrefused : .refused task ∉ log)
    (hl : Loads task deadline loads told (standing warmUps))
    (hg : w.Grows kinds (w.resumeStart deadline warmUps).1) :
    Ledger roster limit (spawnings w.nextTask kinds ++
        (tellEnd task (w.resumeStart deadline warmUps).2 ++ (told ++ log)))
      (w.resumeStart deadline warmUps).1.manager.started ∧
    ∀ a, (w.resumeStart deadline warmUps).2 = .inl a →
      Runs limit (spawnings w.nextTask kinds ++
        (tellEnd task (w.resumeStart deadline warmUps).2 ++ (told ++ log))) task a := by
  have hlaws : ∀ earlier k e, Closes task k e → LoadLaw limit earlier e →
      StartLaw roster limit earlier e := by
    rintro earlier k e (⟨_, rfl⟩ | ⟨_, rfl⟩) hlaw <;> exact hlaw
  obtain ⟨hlawful, hstands⟩ := hl.advance hlaws hu
  have hcloses : ∀ e ∈ told, ∃ k, Closes task k e := fun e he =>
    (hl.closes he).imp fun _ hk => hk.2
  have hnew : ∀ {e : Occurrence}, (∀ k, ¬ Closes task k e) → e ∉ log → e ∉ told ++ log := by
    intro e hn hold he
    rcases List.mem_append.mp he with he | he
    · obtain ⟨k, hc⟩ := hcloses e he
      exact hn k hc
    · exact hold he
  refine resume_ledger (h.closes hcloses hlawful) (List.mem_append_right _ hw)
    (hu.timed _ _ hw).symm ?_ ?_ hstands hg
  · intro reply
    refine hnew ?_ (hu.unended reply)
    rintro k (⟨_, heq⟩ | ⟨_, heq⟩) <;> cases heq
  · refine hnew ?_ hrefused
    rintro k (⟨_, heq⟩ | ⟨_, heq⟩) <;> cases heq

/-- The loads of a start that runs are underway. -/
theorem Runs.underway {deadline : Nat} {warmUps : WarmUps}
    (h : Runs limit log task (.start deadline warmUps))
    (hlog : Chronicle (StartLaw roster limit) log) :
    Underway (StartLaw roster limit) limit deadline log task (standing warmUps) := by
  obtain ⟨⟨called, hw, hd⟩, hstands, -⟩ := h.follows
  refine ⟨?_, ?_, ?_, h.unended, hstands, hlog⟩
  · rw [kinds_standing]
    exact nodup_of_warming hlog hw
  · rw [kinds_standing]
    exact fun k hk => ⟨_, called, hw, hk⟩
  · intro ks c hw'
    rw [(warming_unique hlog hw hw').2] at hd
    exact hd.symm

/-! ## Activities that are no starts -/

/-- Nothing was told yet of a task that is to come. -/
def Fresh (log : List Occurrence) (task : Nat) : Prop := ∀ e ∈ log, e.task? ≠ some task

theorem Fresh.not_mem (h : Fresh log task) {e : Occurrence} (he : e.task? = some task) : e ∉ log :=
  fun hmem => h e hmem he

/-- A task that has not begun to load ends, if it does. -/
theorem Ledger.tellEnd {mark : Bool} (h : Ledger roster limit log mark)
    (hend : ∀ reply, .ended task reply ∉ log) (hrefused : .refused task ∉ log)
    (hw : ∀ kinds called, .warming task kinds called ∉ log) (next : Activity ⊕ Reply) :
    Ledger roster limit (World.tellEnd task next ++ log) mark := by
  cases next with
  | inl a => exact h
  | inr reply =>
    refine h.aside hw ⟨hend, fun he => absurd he hrefused, ?_⟩
    exact fun ks c he => absurd he (hw ks c)

namespace World

variable {w : World} {c : Command}

/-- A command other than a start brings no task, and leaves the mark of the manager. -/
theorem begin_unmarked (w : World) (hc : c ≠ .start) :
    (w.begin c).1.tasks = w.tasks ∧ (w.begin c).1.nextTask = w.nextTask ∧
      (w.begin c).1.manager.started = w.manager.started := by
  by_cases hp : c.isPlain
  · have ht := begin_touches w hp
    exact ⟨ht.tasks, ht.nextTask, ht.started⟩
  · cases c with
    | start => exact absurd rfl hc
    | stop grace =>
      simp only [begin, beginStop, Scope.beginStop]
      split <;> exact ⟨rfl, rfl, rfl⟩
    | refresh | forceUpdate | sleep | watchSize | findNamespace | pull | join => exact absurd rfl hp

theorem begin_isPlain (hc : c ≠ .start) (h : (w.begin c).2 = .inl a) : a.isPlain = true := by
  by_cases hp : c.isPlain
  · exact (begin_plain hp h).1
  · cases c with
    | start => exact absurd rfl hc
    | stop grace =>
      obtain ⟨stop, rfl⟩ := (begin_stop (Prod.ext rfl rfl : w.begin (.stop grace) = (_, _))).2.1 a h
      rfl
    | refresh | forceUpdate | sleep | watchSize | findNamespace | pull | join => exact absurd rfl hp

theorem tellBegin_of_ne (w : World) (task : Nat) (hc : c ≠ .start) : w.tellBegin task c = [] := by
  cases c <;> first | rfl | exact absurd rfl hc

/-- The poll of an activity other than a start brings no task, and leaves the mark of the
manager. -/
theorem poll_unmarked (w : World) (ha : ∀ deadline ws, a ≠ .start deadline ws) :
    (w.poll a).1.tasks = w.tasks ∧ (w.poll a).1.nextTask = w.nextTask ∧
      (w.poll a).1.manager.started = w.manager.started := by
  by_cases hp : a.isPlain
  · have ht := poll_touches w hp
    exact ⟨ht.tasks, ht.nextTask, ht.started⟩
  · cases a with
    | start deadline ws => exact absurd rfl (ha deadline ws)
    | loop loop =>
      have ht := pollLoop_touches w loop
      exact ⟨ht.tasks, ht.nextTask, ht.started⟩
    | refresh | stop | sleep | watchSize | findNamespace | pull | join => exact absurd rfl hp

theorem poll_waits_started (h : (w.poll a).2 = none) :
    (w.poll a).1.manager.started = w.manager.started := by
  by_cases ha : ∃ deadline ws, a = .start deadline ws
  · obtain ⟨deadline, ws, rfl⟩ := ha
    have ht := (pollWarmUps_touches w deadline ws).started
    simp only [poll, pollStart] at h ⊢
    split at h
    · cases h
    · rw [if_neg ‹_›]
      exact ht
  · exact (poll_unmarked w fun deadline ws heq => ha ⟨deadline, ws, heq⟩).2.2

theorem drop_started (w : World) (a : Activity) :
    (w.drop a).manager.started = w.manager.started := by
  by_cases ha : a.isPlain
  · exact (drop_touches w ha).started
  · cases a with
    | start deadline warmUps => exact (dropWarmUps_touches w warmUps).started
    | loop loop => exact (dropLoop_touches w loop).started
    | refresh | stop | sleep | watchSize | findNamespace | pull | join => exact absurd rfl ha

/-- An activity other than a start that goes on stands as before. -/
theorem follows_of_poll {b : Activity} (h : Follows limit log id a)
    (ha : ∀ deadline ws, a ≠ .start deadline ws) (hp : (w.poll a).2 = some (.inl b)) :
    Follows limit log id b := by
  by_cases hplain : a.isPlain
  · rw [follows_of_isPlain (poll_plain hplain hp).1]
    exact (follows_of_isPlain hplain).mp h
  · cases a with
    | start deadline ws => exact absurd rfl (ha deadline ws)
    | loop loop =>
      obtain ⟨l, rfl, hk⟩ := pollLoop_loop hp
      exact ⟨hk ▸ h.1, h.2⟩
    | refresh | stop | sleep | watchSize | findNamespace | pull | join => exact absurd rfl hplain

end World

/-! ## Commands and polls -/

section

variable {w w' : World} {c : Command} {next : Activity ⊕ Reply}

/-- A command that is no start moves no ledger. -/
theorem ask_ledger (h : Ledger roster limit log w.manager.started) (hf : Fresh log task)
    (hc : c ≠ .start) (hb : w.begin c = (w', next)) :
    Ledger roster limit (tellEnd task next ++ .asked task c :: log) w'.manager.started ∧
      ∀ a, next = .inl a → Runs limit (tellEnd task next ++ .asked task c :: log) task a := by
  have hnew : ∀ {e : Occurrence}, e.task? = some task → e ≠ .asked task c →
      e ∉ .asked task c :: log := fun he hne hmem =>
    hf.not_mem he ((List.mem_cons.mp hmem).resolve_left hne)
  have hmark := (begin_unmarked w hc).2.2
  rw [hb] at hmark
  have hasked : Ledger roster limit (.asked task c :: log) w'.manager.started := by
    rw [hmark]
    exact h.aside trivial hf
  refine ⟨hasked.tellEnd (fun _ => hnew rfl nofun) (hnew rfl nofun) (fun _ _ => hnew rfl nofun)
    next, ?_⟩
  rintro a rfl
  refine ⟨fun _ => hnew rfl nofun, hnew rfl nofun, ?_⟩
  rw [follows_of_isPlain (begin_isPlain hc (congrArg Prod.snd hb))]
  exact fun _ _ => hnew rfl nofun

/-- A start is refused while the manager is occupied. -/
theorem refuse_ledger (h : Ledger roster limit log true) (hf : Fresh log task) :
    Ledger roster limit (.ended task (.outcome (.error alreadyStarted)) :: .refused task ::
      .asked task .start :: log) true := by
  have hnew : ∀ {e : Occurrence}, e.task? = some task → e ≠ .asked task .start →
      e ≠ .refused task → e ∉ .refused task :: .asked task .start :: log := by
    intro e he hne hne' hmem
    exact hf.not_mem he ((List.mem_cons.mp ((List.mem_cons.mp hmem).resolve_left hne')).resolve_left
      hne)
  have hasked : Ledger roster limit (.asked task .start :: log) true := h.aside trivial hf
  have hrefused := @Ledger.aside roster limit _ (.refused task) true hasked trivial
    ⟨rfl, hasked.marked.mp rfl⟩
  refine hrefused.aside (fun _ _ => hnew rfl nofun nofun) ⟨fun _ => hnew rfl nofun nofun, ?_, ?_⟩
  · exact fun _ => rfl
  · exact fun _ _ he => absurd he (hnew rfl nofun nofun)

/-- A start that is not refused loads the scheduled kinds. -/
theorem warm_ledger (h : Ledger roster limit log w.manager.started) (hf : Fresh log task)
    (hidle : ¬ w.manager.started = true) (hlimit : w.loadLimit = w.now + limit)
    (hscheduled : w.manager.scheduled = CacheKind.all.filter fun k => k ∈ openedKinds roster log)
    (hb : w.begin .start = (w', next)) (hg : w.Grows kinds w') :
    Ledger roster limit (spawnings w.nextTask kinds ++ (tellEnd task next ++
        (w.tellBegin task .start ++ .asked task .start :: log))) w'.manager.started ∧
      ∀ a, next = .inl a → Runs limit (spawnings w.nextTask kinds ++ (tellEnd task next ++
        (w.tellBegin task .start ++ .asked task .start :: log))) task a := by
  have hasked : Ledger roster limit (.asked task .start :: log) false := by
    rw [← Bool.eq_false_iff.mpr hidle]
    exact h.aside trivial hf
  have hold : ∀ {e : Occurrence}, e.task? = some task →
      (e ∈ .warming task w.manager.scheduled w.now :: .asked task .start :: log ↔
        e = .warming task w.manager.scheduled w.now ∨ e = .asked task .start) := by
    intro e he
    rw [List.mem_cons, List.mem_cons]
    simp only [hf.not_mem he, or_false]
  have hfree : ∀ other, ¬ Occupies (.asked task .start :: log) other := fun other ho =>
    Bool.false_ne_true (hasked.marked.mpr ⟨other, ho⟩)
  have hwarming := @Ledger.warm roster limit task w.manager.scheduled w.now _ hasked
    ⟨rfl, hfree, hscheduled⟩ fun reply he =>
      hf.not_mem rfl ((List.mem_cons.mp he).resolve_left nofun)
  have hkinds : (w.manager.scheduled.map fun k => (k, (none : Option Outcome))).map Prod.fst =
      w.manager.scheduled := by
    rw [List.map_map]
    exact List.map_id _
  have hu : Underway (StartLaw roster limit) limit w.loadLimit
      (.warming task w.manager.scheduled w.now :: .asked task .start :: log) task
      (w.manager.scheduled.map fun k => (k, none)) := by
    refine ⟨?_, ?_, ?_, ?_, ?_, hwarming.lawful⟩
    · rw [hkinds]
      exact nodup_of_warming hwarming.lawful List.mem_cons_self
    · rw [hkinds]
      exact fun k hk => ⟨_, _, List.mem_cons_self, hk⟩
    · intro ks called hw
      rw [hlimit, (warming_unique hwarming.lawful List.mem_cons_self hw).2]
    · intro reply he
      rcases (hold rfl).mp he with heq | heq <;> cases heq
    · intro load hl
      obtain ⟨k, -, rfl⟩ := List.mem_map.mp hl
      intro e he hc
      rcases (hold (task_of_closes hc)).mp he with rfl | rfl <;>
        rcases hc with ⟨_, heq⟩ | ⟨_, heq⟩ <;> cases heq
  have hfirst := w.firstLoads_touches
  have hstarted : w.firstLoads.1.manager.started = true := hfirst.started
  rw [begin_start_of_idle hidle] at hb
  have hgrows : w.firstLoads.1.Grows kinds (w.firstLoads.1.resumeStart w.loadLimit
      w.firstLoads.2).1 := by
    rw [hb]
    exact hg.rebase hfirst.tasks.symm hfirst.nextTask.symm hfirst.manager.settings.symm
      hfirst.now.symm
  have hround := @round_ledger roster limit task kinds w.now _ _ w.firstLoads.1 w.loadLimit _
    w.firstLoads.2 (by rw [hstarted]; exact hwarming) hu
    (by rw [kindsOf_firstLoads]; exact List.mem_cons_self)
    (fun he => by rcases (hold rfl).mp he with heq | heq <;> cases heq)
    (beginWarmUps_loads w.marked task w.loadLimit w.manager.scheduled) hgrows
  have htold : w.tellBegin task .start = w.marked.tellBegun task w.loadLimit w.manager.scheduled ++
      [.warming task w.manager.scheduled w.now] := if_neg hidle
  have hnext : w.firstLoads.1.nextTask = w.nextTask := hfirst.nextTask
  rw [hb, hnext] at hround
  rw [htold, List.append_assoc, List.singleton_append]
  exact hround

/-- What a command does to the ledger, and how its task then stands. -/
theorem begin_ledger (h : Ledger roster limit log w.manager.started) (hf : Fresh log task)
    (hlimit : w.loadLimit = w.now + limit)
    (hscheduled : w.manager.scheduled = CacheKind.all.filter fun k => k ∈ openedKinds roster log)
    (hb : w.begin c = (w', next)) (hg : w.Grows kinds w') :
    Ledger roster limit (spawnings w.nextTask kinds ++ (tellEnd task next ++
        (w.tellBegin task c ++ .asked task c :: log))) w'.manager.started ∧
      ∀ a, next = .inl a → Runs limit (spawnings w.nextTask kinds ++ (tellEnd task next ++
        (w.tellBegin task c ++ .asked task c :: log))) task a := by
  by_cases hc : c = .start
  · subst hc
    by_cases hmark : w.manager.started = true
    · obtain ⟨rfl, rfl⟩ := Prod.mk.inj ((begin_start_of_started hmark).symm.trans hb)
      obtain rfl := hg.kinds_eq (.of_eq rfl rfl)
      have htold : w.tellBegin task .start = [.refused task] := if_pos hmark
      rw [htold, hmark]
      rw [hmark] at h
      exact ⟨refuse_ledger h hf, fun _ heq => nomatch heq⟩
    · exact warm_ledger h hf hmark hlimit hscheduled hb hg
  · obtain ⟨htasks, hnext, -⟩ := begin_unmarked w hc
    rw [hb] at htasks hnext
    obtain rfl := hg.kinds_eq (.of_eq htasks hnext)
    rw [tellBegin_of_ne w task hc]
    exact ask_ledger h hf hc hb

/-- A start is refused and ends at once, or begins to load. -/
theorem start_answered (hb : w.begin .start = (w', next)) (task : Nat) :
    (.refused task ∈ w.tellBegin task .start ∧
      .ended task (.outcome (.error alreadyStarted)) ∈ tellEnd task next) ∨
    ∃ kinds called, .warming task kinds called ∈ w.tellBegin task .start := by
  unfold tellBegin
  by_cases hmark : w.manager.started = true
  · obtain ⟨-, rfl⟩ := Prod.mk.inj ((begin_start_of_started hmark).symm.trans hb)
    rw [if_pos hmark]
    exact Or.inl ⟨List.mem_cons_self, List.mem_cons_self⟩
  · rw [if_neg hmark]
    exact Or.inr ⟨_, _, List.mem_append_right _ List.mem_cons_self⟩

/-- A start that is polled and moves goes on after a round of its loads. -/
theorem pollStart_ledger {deadline : Nat} {warmUps : WarmUps}
    (h : Ledger roster limit log w.manager.started)
    (hr : Runs limit log task (.start deadline warmUps))
    (hp : w.poll (.start deadline warmUps) = (w', some next)) (hg : w.Grows kinds w') :
    Ledger roster limit (spawnings w.nextTask kinds ++ (tellEnd task next ++
        (w.tellPolled task deadline warmUps ++ log))) w'.manager.started ∧
      ∀ a, next = .inl a → Runs limit (spawnings w.nextTask kinds ++ (tellEnd task next ++
        (w.tellPolled task deadline warmUps ++ log))) task a := by
  obtain ⟨called, hw, -⟩ := hr.follows.1
  have hpoll := pollWarmUps_touches w deadline warmUps
  have hround : (w.pollWarmUps deadline warmUps).1.resumeStart deadline
      (w.pollWarmUps deadline warmUps).2.1 = (w', next) := by
    simp only [poll, pollStart] at hp
    split at hp
    · obtain ⟨rfl, heq⟩ := Prod.mk.inj hp
      exact Prod.ext rfl (Option.some.inj heq)
    · cases hp
  have hgrows : (w.pollWarmUps deadline warmUps).1.Grows kinds
      ((w.pollWarmUps deadline warmUps).1.resumeStart deadline
        (w.pollWarmUps deadline warmUps).2.1).1 := by
    rw [hround]
    exact hg.rebase hpoll.tasks.symm hpoll.nextTask.symm hpoll.manager.settings.symm hpoll.now.symm
  have hresult := @round_ledger roster limit task kinds called log _
    (w.pollWarmUps deadline warmUps).1 deadline _ (w.pollWarmUps deadline warmUps).2.1
    (by rw [hpoll.started]; exact h) (hr.underway h.lawful)
    (by rw [kindsOf_pollWarmUps]; exact hw) hr.unrefused
    (pollWarmUps_loads w task deadline warmUps) hgrows
  rw [hround, hpoll.nextTask] at hresult
  exact hresult

/-- The poll of an activity that is no start moves no ledger. -/
theorem poll_ledger (h : Ledger roster limit log w.manager.started) (hr : Runs limit log task a)
    (ha : ∀ deadline ws, a ≠ .start deadline ws) (hp : w.poll a = (w', some next)) :
    Ledger roster limit (tellEnd task next ++ (w.tellWithin task a ++ log)) w'.manager.started ∧
      ∀ b, next = .inl b →
        Runs limit (tellEnd task next ++ (w.tellWithin task a ++ log)) task b := by
  have hwithin : ∀ e ∈ w.tellWithin task a, ∃ k, e = .updating task k := by
    intro e he
    obtain ⟨deadline, ws, heq, -⟩ | ⟨loop, -, -, rfl⟩ := mem_tellWithin he
    · exact absurd heq (ha deadline ws)
    · exact ⟨_, rfl⟩
  have hnew : ∀ {e : Occurrence}, (∀ k, e ≠ .updating task k) → e ∉ log →
      e ∉ w.tellWithin task a ++ log := by
    intro e hne hn he
    rcases List.mem_append.mp he with he | he
    · obtain ⟨k, rfl⟩ := hwithin e he
      exact hne k rfl
    · exact hn he
  have hmark := (poll_unmarked w ha).2.2
  rw [hp] at hmark
  have hledger : Ledger roster limit (w.tellWithin task a ++ log) w'.manager.started := by
    rw [hmark]
    generalize w.tellWithin task a = told at hwithin
    clear hnew
    induction told with
    | nil => exact h
    | cons e rest ih =>
      obtain ⟨k, rfl⟩ := hwithin e List.mem_cons_self
      exact (ih fun e he => hwithin e (List.mem_cons_of_mem _ he)).aside trivial trivial
  have hunwarmed : ∀ ks called, .warming task ks called ∉ w.tellWithin task a ++ log :=
    fun ks called => hnew nofun (hr.follows.unwarmed ha ks called)
  refine ⟨hledger.tellEnd (fun reply => hnew nofun (hr.unended reply)) (hnew nofun hr.unrefused)
    hunwarmed next, ?_⟩
  rintro b rfl
  have hkeep : Runs limit (w.tellWithin task a ++ log) task a :=
    hr.keep fun e he _ => Or.inl (hwithin e he)
  exact ⟨hkeep.unended, hkeep.unrefused, follows_of_poll hkeep.follows ha (congrArg Prod.snd hp)⟩

end

/-- Changing one cache after another leaves the mark of the manager. -/
theorem Manager.foldl_started {f : Manager → CacheKind → Manager}
    (hf : ∀ (m : Manager) (k : CacheKind), (f m k).started = m.started) (kinds : List CacheKind)
    (m : Manager) : (kinds.foldl f m).started = m.started := by
  induction kinds generalizing m with
  | nil => rfl
  | cons k rest ih => exact (ih (f m k)).trans (hf m k)

theorem Manager.clear_started (m : Manager) : m.clear.started = m.started :=
  @foldl_started clearKind (fun _ _ => rfl) m.scheduled m

theorem Manager.close_started (m : Manager) : m.close.started = m.started :=
  @foldl_started closeKind (fun _ _ => rfl) m.scheduled m

/-! ## Courses -/

namespace Course

variable {m : Manager} {s s' : Course} {next : Activity ⊕ Reply} {w : World}
  {rest : List Occurrence} {e : Occurrence}

/-- The tasks that run and the log go together. -/
structure Tended (roster : Roster) (limit : Nat) (s : Course) : Prop where
  ledger : Ledger roster limit s.log s.world.manager.started
  running : ∀ id a, s.world.taskState? id = some (.running a) → Runs limit s.log id a
  /-- A start that has begun has ended or runs. -/
  warmers : ∀ task kinds called, .warming task kinds called ∈ s.log →
    (∃ reply, .ended task reply ∈ s.log) ∨ ∃ a, s.world.taskState? task = some (.running a)
  /-- A start that was asked for was refused or has begun. -/
  answered : ∀ task, .asked task .start ∈ s.log →
    (.refused task ∈ s.log ∧ .ended task (.outcome (.error alreadyStarted)) ∈ s.log) ∨
      ∃ kinds called, .warming task kinds called ∈ s.log

/-- One task comes or moves, perhaps with new loops: what is told is told of it or of them, and the
other tasks stay. -/
structure Advance (kinds : List CacheKind) (task : Nat) (next : Activity ⊕ Reply)
    (rest : List Occurrence) (w : World) (s s' : Course) : Prop where
  log : s'.log = spawnings s.world.nextTask kinds ++ (tellEnd task next ++ rest) ++ s.log
  told : ∀ e ∈ tellEnd task next ++ rest, e.task? = some task
  grows : s.world.Grows kinds w
  others : ∀ id, id ≠ task → s'.world.taskState? id = w.taskState? id
  self : s'.world.taskState? task = some (stateAfter next)

namespace Advance

theorem later (h : Advance kinds task next rest w s s') (he : e ∈ s.log) : e ∈ s'.log := by
  rw [h.log]
  exact List.mem_append_right _ he

/-- Whatever is told of another task is told of a new loop. -/
theorem other (h : Advance kinds task next rest w s s')
    (he : e ∈ spawnings s.world.nextTask kinds ++ (tellEnd task next ++ rest)) (hne : id ≠ task)
    (hid : e.task? = some id) : ∃ k, e = .spawned id k ∧ s.world.nextTask ≤ id := by
  rcases List.mem_append.mp he with he | he
  · obtain ⟨i, k, rfl, hle, -, -⟩ := mem_spawnings he
    cases hid
    exact ⟨k, rfl, hle⟩
  · rw [h.told e he] at hid
    exact absurd (Option.some.inj hid).symm hne

/-- What the log tells of another task, apart from its coming as a loop, it told before. -/
theorem earlier (h : Advance kinds task next rest w s s') (he : e ∈ s'.log) (hne : id ≠ task)
    (hid : e.task? = some id) (hloop : e.loop? = none) : e ∈ s.log := by
  rw [h.log] at he
  rcases List.mem_append.mp he with he | he
  · obtain ⟨k, rfl, -⟩ := h.other he hne hid
    cases hloop
  · exact he

/-- Another task that runs stands as the log tells. -/
theorem runs (h : Advance kinds task next rest w s s') (hs : Tended roster limit s)
    (hn : s.Numbered) (hne : id ≠ task) (hid : s'.world.taskState? id = some (.running a)) :
    Runs limit s'.log id a := by
  rw [h.others id hne] at hid
  rcases h.grows.taskState? hid with hid | ⟨k, -, hspawned, heq⟩
  · have hlt := hn.world.lt_of_taskState? hid
    rw [h.log]
    refine (hs.running id a hid).keep ?_
    intro e he hide
    obtain ⟨k, -, hle⟩ := h.other he hne hide
    omega
  · cases heq
    have hnew : ∀ {e : Occurrence}, e.task? = some id → e.loop? = none → e ∉ s'.log := by
      intro e hide hloop he
      have hlt := hn.log e (h.earlier he hne hide hloop) id hide
      obtain ⟨i, l, hil, hle, -, -⟩ := mem_spawnings hspawned
      cases hil
      omega
    refine ⟨fun reply => hnew rfl rfl, hnew rfl rfl, ?_, fun kinds called => hnew rfl rfl⟩
    rw [h.log]
    exact List.mem_append_left _ (List.mem_append_left _ hspawned)

/-- Every start that has begun has ended or runs. -/
theorem warmers (h : Advance kinds task next rest w s s') (hs : Tended roster limit s)
    {kinds' : List CacheKind} (hw : .warming id kinds' called ∈ s'.log) :
    (∃ reply, .ended id reply ∈ s'.log) ∨ ∃ a, s'.world.taskState? id = some (.running a) := by
  by_cases htask : id = task
  · subst htask
    cases next with
    | inl b => exact Or.inr ⟨b, h.self⟩
    | inr reply =>
      refine Or.inl ⟨reply, ?_⟩
      rw [h.log]
      exact List.mem_append_left _ (List.mem_append_right _ List.mem_cons_self)
  · rcases hs.warmers id kinds' called (h.earlier hw htask rfl rfl) with ⟨reply, he⟩ | ⟨a, hid⟩
    · exact Or.inl ⟨reply, h.later he⟩
    · exact Or.inr ⟨a, (h.others id htask).trans (taskState?_kept h.grows.tasks hid)⟩

/-- A start that was asked for before is answered. -/
theorem answered (h : Advance kinds task next rest w s s') (hs : Tended roster limit s)
    (ha : .asked id .start ∈ s.log) :
    (.refused id ∈ s'.log ∧ .ended id (.outcome (.error alreadyStarted)) ∈ s'.log) ∨
      ∃ kinds called, .warming id kinds called ∈ s'.log := by
  rcases hs.answered id ha with ⟨hr, he⟩ | ⟨kinds, called, hw⟩
  · exact Or.inl ⟨h.later hr, h.later he⟩
  · exact Or.inr ⟨kinds, called, h.later hw⟩

end Advance

namespace Tended

/-- A step by which one task comes or moves keeps everything, if it does about this task. -/
theorem advance (h : Tended roster limit s) (hn : s.Numbered)
    (ha : Advance kinds task next rest w s s')
    (hledger : Ledger roster limit s'.log s'.world.manager.started)
    (hruns : ∀ a, next = .inl a → Runs limit s'.log task a)
    (hanswered : .asked task .start ∈ rest →
      (.refused task ∈ s'.log ∧ .ended task (.outcome (.error alreadyStarted)) ∈ s'.log) ∨
        ∃ kinds called, .warming task kinds called ∈ s'.log) : Tended roster limit s' := by
  refine ⟨hledger, ?_, fun id kinds called => ha.warmers h, ?_⟩
  · intro id a hid
    by_cases htask : id = task
    · subst htask
      rw [ha.self] at hid
      cases next with
      | inl b =>
        cases hid
        exact hruns _ rfl
      | inr reply => cases hid
    · exact ha.runs h hn htask hid
  · intro id hasked
    by_cases htask : id = task
    · subst htask
      rw [ha.log] at hasked
      rcases List.mem_append.mp hasked with hasked | hasked
      · rcases List.mem_append.mp hasked with hasked | hasked
        · obtain ⟨_, _, heq, -⟩ := mem_spawnings hasked
          cases heq
        · rcases List.mem_append.mp hasked with hasked | hasked
          · obtain ⟨_, -, heq⟩ := mem_tellEnd.mp hasked
            cases heq
          · exact hanswered hasked
      · exact ha.answered h hasked
    · exact ha.answered h (ha.earlier hasked htask rfl rfl)

/-- A step that leaves the tasks and the log alone. -/
theorem still (h : Tended roster limit s) (hlog : s'.log = s.log)
    (htasks : s'.world.tasks = s.world.tasks)
    (hmark : s'.world.manager.started = s.world.manager.started) : Tended roster limit s' := by
  refine ⟨?_, ?_, ?_, ?_⟩
  · rw [hlog, hmark]
    exact h.ledger
  · intro id a hid
    rw [taskState?_congr htasks] at hid
    rw [hlog]
    exact h.running id a hid
  · intro id ks called hw
    rw [hlog] at hw ⊢
    rw [taskState?_congr htasks]
    exact h.warmers id ks called hw
  · rw [hlog]
    exact h.answered

/-- Something is told that concerns no start. -/
theorem tell (h : Tended roster limit s)
    (he : (∃ requests, e = .opened requests) ∨ ∃ task, e = .dropped task) :
    Tended roster limit { s with log := e :: s.log } := by
  have hold : ∀ {e' : Occurrence}, e' ≠ e → e' ∈ e :: s.log → e' ∈ s.log := fun hne hmem =>
    (List.mem_cons.mp hmem).resolve_left hne
  have hspares : ∀ id, ∀ e' ∈ [e], Spares id e' := by
    intro id e' hmem hid
    rw [List.mem_singleton.mp hmem] at hid ⊢
    rcases he with ⟨_, rfl⟩ | ⟨_, rfl⟩ <;> cases hid
    exact Or.inr rfl
  refine ⟨?_, fun id a hid => (h.running id a hid).keep (hspares id), ?_, ?_⟩
  · rcases he with ⟨_, rfl⟩ | ⟨_, rfl⟩ <;> exact h.ledger.aside trivial trivial
  · intro id ks called hw
    have hw := hold (by rcases he with ⟨_, rfl⟩ | ⟨_, rfl⟩ <;> exact nofun) hw
    exact (h.warmers id ks called hw).imp_left fun ⟨reply, hr⟩ => ⟨reply, List.mem_cons_of_mem _ hr⟩
  · intro id ha
    have ha := hold (by rcases he with ⟨_, rfl⟩ | ⟨_, rfl⟩ <;> exact nofun) ha
    rcases h.answered id ha with ⟨hr, hr'⟩ | ⟨ks, called, hw⟩
    · exact Or.inl ⟨List.mem_cons_of_mem _ hr, List.mem_cons_of_mem _ hr'⟩
    · exact Or.inr ⟨ks, called, List.mem_cons_of_mem _ hw⟩

/-- A task that runs is put into another state, and nothing is told. -/
theorem put (h : Tended roster limit s) (st : TaskState)
    (ht : s.world.taskState? task = some (.running a)) (hlog : s'.log = s.log)
    (hw : ∀ id, s'.world.taskState? id = (s.world.setTask task st).taskState? id)
    (hmark : s'.world.manager.started = s.world.manager.started)
    (hruns : ∀ b, st = .running b → Runs limit s.log task b)
    (hkeeps : (∃ b, st = .running b) ∨ ∀ kinds called, .warming task kinds called ∉ s.log) :
    Tended roster limit s' := by
  refine ⟨?_, ?_, ?_, ?_⟩
  · rw [hlog, hmark]
    exact h.ledger
  · intro id b hid
    rw [hw] at hid
    rw [hlog]
    rcases taskState?_of_set hid with ⟨rfl, heq⟩ | ⟨-, hid⟩
    · exact hruns b heq.symm
    · exact h.running id b hid
  · intro id ks called hmem
    rw [hlog] at hmem ⊢
    rw [hw]
    by_cases hid : id = task
    · subst hid
      obtain ⟨b, rfl⟩ := hkeeps.resolve_right fun hn => hn ks called hmem
      exact Or.inr ⟨b, taskState?_setTask_self ht⟩
    · rw [taskState?_setTask_of_ne hid]
      exact h.warmers id ks called hmem
  · rw [hlog]
    exact h.answered

/-- A task that is no start is dropped. -/
theorem abort (h : Tended roster limit s) (ht : s.world.taskState? task = some (.running a))
    (ha : ∀ deadline ws, a ≠ .start deadline ws)
    (hw : s'.world = (s.world.drop a).setTask task .aborted) (hlog : s'.log = s.log) :
    Tended roster limit s' := by
  refine h.put .aborted ht hlog ?_ ?_ (fun _ heq => nomatch heq)
    (Or.inr ((h.running task a ht).follows.unwarmed ha))
  · intro id
    rw [hw, taskState?_setTask, taskState?_setTask, taskState?_congr (drop_tasks s.world a).1]
  · rw [hw]
    exact drop_started s.world a

/-- A command is given. -/
theorem ask {c : Command} (h : Tended m.roster m.settings.warmUpTimeout.toNat s)
    (hsched : Scheduling m s) (hn : s.Numbered) (hb : s.world.begin c = (w, next))
    (hg : s.world.Grows kinds w)
    (hw : s'.world = (w.addTask (stateAfter next)).1)
    (hlog : s'.log = spawnings s.world.nextTask kinds ++ (tellEnd w.nextTask next ++
      (s.world.tellBegin w.nextTask c ++ [.asked w.nextTask c])) ++ s.log) :
    Tended m.roster m.settings.warmUpTimeout.toNat s' := by
  have hfresh : Fresh s.log w.nextTask := by
    intro e he hid
    have hlt := hn.log e he _ hid
    rw [hg.nextTask] at hlt
    omega
  have hmark : s'.world.manager.started = w.manager.started := by
    rw [hw]
    rfl
  have hmove : Ledger m.roster m.settings.warmUpTimeout.toNat s'.log
        s'.world.manager.started ∧
      ∀ a, next = .inl a → Runs m.settings.warmUpTimeout.toNat s'.log w.nextTask a := by
    rw [hlog, hmark, List.append_assoc, List.append_assoc, List.append_assoc, List.singleton_append]
    refine begin_ledger h.ledger hfresh ?_ ?_ hb hg
    · rw [loadLimit, hsched.settings]
    · unfold Manager.scheduled
      refine List.filter_congr fun k _ => ?_
      rw [Bool.eq_iff_iff, hsched.opened k, decide_eq_true_iff]
  have hadvance : Advance kinds w.nextTask next (s.world.tellBegin w.nextTask c ++
      [.asked w.nextTask c]) w s s' := by
    refine ⟨hlog, fun e => task_of_asked, hg, ?_, ?_⟩ <;> rw [hw]
    · exact fun id hid => taskState?_addTask_of_ne hid
    · exact taskState?_addTask_self (hn.world.grow hg) _
  refine h.advance hn hadvance hmove.1 hmove.2 ?_
  intro hasked
  have hc : c = .start := by
    rcases List.mem_append.mp hasked with hmem | hmem
    · exact (mem_tellBegin hmem).1
    · cases List.mem_singleton.mp hmem
      rfl
  subst hc
  have hnew : ∀ {e : Occurrence},
      e ∈ tellEnd w.nextTask next ++ s.world.tellBegin w.nextTask .start → e ∈ s'.log := by
    intro e he
    rw [hlog, ← List.append_assoc (tellEnd _ _)]
    exact List.mem_append_left _ (List.mem_append_right _ (List.mem_append_left _ he))
  rcases start_answered hb w.nextTask with ⟨hr, he⟩ | ⟨ks, called, hwarm⟩
  · exact Or.inl ⟨hnew (List.mem_append_right _ hr), hnew (List.mem_append_left _ he)⟩
  · exact Or.inr ⟨ks, called, hnew (List.mem_append_right _ hwarm)⟩

/-- A task is polled and moves. -/
theorem move (h : Tended roster limit s) (hn : s.Numbered)
    (ht : s.world.taskState? task = some (.running a)) (hp : s.world.poll a = (w, some next))
    (hg : s.world.Grows kinds w) (hw : s'.world = w.setTask task (stateAfter next))
    (hlog : s'.log = spawnings s.world.nextTask kinds ++ (tellEnd task next ++
      s.world.tellWithin task a) ++ s.log) : Tended roster limit s' := by
  have hruns := h.running task a ht
  have hmark : s'.world.manager.started = w.manager.started := by
    rw [hw]
    rfl
  have hmove : Ledger roster limit s'.log s'.world.manager.started ∧
      ∀ b, next = .inl b → Runs limit s'.log task b := by
    rw [hlog, hmark, List.append_assoc, List.append_assoc]
    by_cases ha : ∃ deadline ws, a = .start deadline ws
    · obtain ⟨deadline, warmUps, rfl⟩ := ha
      exact pollStart_ledger h.ledger hruns hp hg
    · have ha : ∀ deadline ws, a ≠ .start deadline ws := fun d ws heq => ha ⟨d, ws, heq⟩
      obtain ⟨htasks, hnext, -⟩ := poll_unmarked s.world ha
      rw [hp] at htasks hnext
      obtain rfl := hg.kinds_eq (.of_eq htasks hnext)
      exact poll_ledger h.ledger hruns ha hp
  have hadvance : Advance kinds task next (s.world.tellWithin task a) w s s' := by
    refine ⟨hlog, fun e => task_of_moved, hg, ?_, ?_⟩ <;> rw [hw]
    · exact fun id hid => taskState?_setTask_of_ne hid
    · exact taskState?_setTask_self (taskState?_kept hg.tasks ht)
  refine h.advance hn hadvance hmove.1 hmove.2 ?_
  intro hasked
  obtain ⟨_, _, -, k, -, ⟨_, heq⟩ | ⟨_, heq⟩⟩ | ⟨_, -, -, heq⟩ := mem_tellWithin hasked <;>
    cases heq

/-- The refresh loops are ended, and the scheduled caches are closed. -/
theorem close (h : Tended roster limit s) (hn : s.Numbered) :
    Tended roster limit { s with world := s.world.close } := by
  have hloops : Tended roster limit { s with world := s.world.tasks.foldl endLoop s.world } := by
    refine @endLoops_induction s.world (fun w => Tended roster limit { s with world := w }) hn.world
      ?_ h
    intro w id loop hw hst
    exact hw.abort hst nofun (abort_of_running hst) rfl
  exact hloops.still rfl rfl (Manager.close_started _)

/-- Every step of a managed course keeps the tasks and the log together. -/
theorem step (h : Tended m.roster m.settings.warmUpTimeout.toNat s) (hsched : Scheduling m s)
    (hn : s.Numbered) (hs : Step s s') (hm : Managed s'.log) :
    Tended m.roster m.settings.warmUpTimeout.toNat s' := by
  cases hs with
  | asked command w next kinds hb hg hk => exact h.ask hsched hn hb hg rfl rfl
  | moved task a w next kinds ht hp hg hk => exact h.move hn ht hp hg rfl rfl
  | waited task a w ht hp hg =>
    have hmark := @poll_waits_started a s.world (congrArg Prod.snd hp)
    rw [hp] at hmark
    exact h.still rfl (by simpa [loopTasks] using hg.tasks) hmark
  | dropped task a ht =>
    have hnone : ∀ deadline ws, a ≠ .start deadline ws := by
      rintro deadline ws rfl
      obtain ⟨called, hw, -⟩ := (h.running task _ ht).follows.1
      have hasked := asked_of_warming h.ledger.lawful hw
      exact hm.starts task (List.mem_cons_of_mem _ hasked) List.mem_cons_self
    exact (h.tell (Or.inr ⟨task, rfl⟩)).abort ht hnone rfl rfl
  | answered task a f ht =>
    refine h.put (.running (a.mapPulls f)) ht rfl (fun _ => rfl) rfl ?_ (Or.inl ⟨_, rfl⟩)
    rintro b ⟨⟩
    exact (h.running task a ht).mapPulls f
  | opened requests =>
    obtain ⟨⟨o, opened, heq⟩, -⟩ := s.world.manager.openAll_spec requests
    refine (h.tell (Or.inl ⟨requests, rfl⟩)).still rfl rfl ?_
    simp only [heq]
  | cleared => exact h.still rfl rfl (Manager.clear_started _)
  | closed => exact h.close hn
  | outside | enrolled | withdrawn => exact h.still rfl rfl rfl
  | idle => exact h

end Tended

theorem outset_tended (manager : Manager) (store : Store) (origin : Instant) (now : Nat)
    (hidle : manager.started = false) (roster : Roster) (limit : Nat) :
    Tended roster limit (outset manager store origin now) := by
  have hfree : ∀ task, ¬ Occupies [] task := fun task ⟨_, _, hw, _⟩ => nomatch hw
  refine ⟨⟨trivial, ?_, fun t _ ht => absurd ht (hfree t), Or.inr ⟨?_, rfl⟩⟩, ?_, ?_, ?_⟩
  · exact iff_of_false (by rw [Bool.not_eq_true]; exact hidle) fun ⟨t, ht⟩ => hfree t ht
  · exact fun t ks hs => hfree t hs.occupies
  · exact fun id a hid => nomatch hid
  · exact fun task ks called hw => nomatch hw
  · exact fun task ha => nomatch ha

end Course

end GovernanceCache
