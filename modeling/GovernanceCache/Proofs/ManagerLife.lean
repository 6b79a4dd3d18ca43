import GovernanceCache.Proofs.StartTasks
import Mathlib.Data.List.Forall2

/-!
# The life of a manager

What holds of a manager in every course in which its caches are refreshed only through it and its
starts run to their end, whatever else happens between their steps.

1. A first load that is polled after its limit ends (`pollWarmUps_ended`), so a start does
   (`Tended.punctual`), and so does one whose loads are all concluded (`Tended.returned`).
2. A start is refused or begins to load at its call, by who occupies the manager then
   (`Tended.refused`, `Tended.begun`).
3. `run_lifecycle` collects this with what is scheduled and who brings the loops.
-/

namespace GovernanceCache

open World

variable {roster : Roster} {limit task id : Nat} {kinds : List CacheKind} {called : Nat}
  {log told later earlier : List Occurrence} {a : Activity} {c : Command}

/-! ## Starts that are polled late -/

namespace World

variable {w : World} {deadline : Nat} {k : CacheKind}

theorem expire_ended (h : deadline ≤ w.now) (warmUp : WarmUp k) :
    ∃ result, (w.expire k deadline warmUp).2 = .ended result := by
  cases warmUp with
  | loading r =>
    simp only [expire, if_pos h]
    exact ⟨_, rfl⟩
  | ended result => exact ⟨result, rfl⟩

theorem pollWarmUp_ended (h : deadline ≤ w.now) (warmUp : WarmUp k) :
    ∃ result, (w.pollWarmUp k deadline warmUp).2.1 = .ended result := by
  cases warmUp with
  | loading r =>
    rw [pollWarmUp_loading]
    refine expire_ended ?_ _
    rw [(pollRefreshing_touches w k r).now]
    exact h
  | ended result => exact ⟨result, rfl⟩

/-- First loads that are polled after their limit end. -/
theorem pollWarmUps_ended (h : deadline ≤ w.now) (warmUps : WarmUps) :
    ∃ results, warmUpResults? (w.pollWarmUps deadline warmUps).2.1 = some results := by
  induction warmUps generalizing w with
  | nil => exact ⟨[], rfl⟩
  | cons u rest ih =>
    obtain ⟨result, hu⟩ := pollWarmUp_ended h u.2
    have hnow := (pollWarmUp_touches w u.1 deadline u.2).now
    obtain ⟨results, hrest⟩ := @ih (w.pollWarmUp u.1 deadline u.2).1 (hnow.symm ▸ h)
    refine ⟨result :: results, (warmUpResults?_cons ⟨u.1, (w.pollWarmUp u.1 deadline u.2).2.1⟩
      ((w.pollWarmUp u.1 deadline u.2).1.pollWarmUps deadline rest).2.1).trans ?_⟩
    simp only [hu, hrest, resultOf?, Option.bind_some, Option.map_some]

/-- Something happens to first loads of which one runs after its limit. -/
theorem pollWarmUps_moved (h : deadline ≤ w.now) {warmUps : WarmUps}
    (hk : (k, none) ∈ standing warmUps) : (w.pollWarmUps deadline warmUps).2.2 = true := by
  induction warmUps generalizing w with
  | nil => cases hk
  | cons u rest ih =>
    show ((w.pollWarmUp u.1 deadline u.2).2.2 || _) = true
    rw [Bool.or_eq_true]
    rcases List.mem_cons.mp hk with heq | hk
    · left
      rcases u with ⟨l, r | result⟩
      · by_contra hmoved
        have hlt := (pollWarmUp_unmoved (Bool.eq_false_iff.mpr hmoved)).2
        omega
      · cases heq
    · right
      have hnow := (pollWarmUp_touches w u.1 deadline u.2).now
      exact ih (hnow.symm ▸ h) hk

/-- A start that is polled after its limit ends. -/
theorem pollStart_ended (h : deadline ≤ w.now) {warmUps : WarmUps}
    (hk : (k, none) ∈ standing warmUps) :
    ∃ w' reply, w.poll (.start deadline warmUps) = (w', some (.inr reply)) := by
  obtain ⟨results, hr⟩ := pollWarmUps_ended h warmUps
  have hresumed := resumeStart_resumption (w.pollWarmUps deadline warmUps).1 deadline
    (w.pollWarmUps deadline warmUps).2.1
  have hpoll : w.poll (.start deadline warmUps) =
      ((w.pollWarmUps deadline warmUps).1.resumeStart deadline
        (w.pollWarmUps deadline warmUps).2.1).map id some := if_pos (pollWarmUps_moved h hk)
  rw [hpoll]
  generalize World.resumeStart _ _ _ = resumed at hresumed ⊢
  cases hresumed with
  | waits hnone =>
    rw [hr] at hnone
    cases hnone
  | succeeds => exact ⟨_, _, rfl⟩
  | fails => exact ⟨_, _, rfl⟩

end World

/-! ## Starts that were asked for -/

/-- A task is asked for once. -/
theorem earlier_of_asked {later' earlier' : List Occurrence} {c' : Command}
    (h : Chronicle (StartLaw roster limit) (later ++ .asked task c :: earlier))
    (heq : later ++ .asked task c :: earlier = later' ++ .asked task c' :: earlier') :
    earlier = earlier' := by
  have key : ∀ {front before before' : List Occurrence} {d d' : Command},
      StartLaw roster limit before (.asked task d) →
      .asked task d :: before = front ++ .asked task d' :: before' → before = before' := by
    intro front before before' d d' hlaw hsplit
    cases front with
    | nil => exact (List.cons.inj hsplit).2
    | cons e rest =>
      refine absurd rfl (hlaw (.asked task d') ?_)
      rw [(List.cons.inj hsplit).2]
      exact List.mem_append_right _ List.mem_cons_self
  rcases List.append_eq_append_iff.mp heq with ⟨front, -, hsplit⟩ | ⟨front, -, hsplit⟩
  · exact key h.law_of_split hsplit
  · exact (key (heq ▸ h).law_of_split hsplit).symm

/-- What answers a start at its call obeys the law there. -/
theorem law_of_answer {e : Occurrence}
    (h : Chronicle (StartLaw roster limit) (later ++ .asked task .start :: earlier))
    (hanswer : e = .refused task ∨ ∃ kinds called, e = .warming task kinds called)
    (he : e ∈ later ++ .asked task .start :: earlier) :
    StartLaw roster limit (.asked task .start :: earlier) e := by
  obtain ⟨front, before, heq⟩ := List.append_of_mem he
  have hlaw : StartLaw roster limit before e := (heq ▸ h).law_of_split
  have hhead : before.head? = some (.asked task .start) := by
    rcases hanswer with rfl | ⟨_, _, rfl⟩ <;> exact hlaw.1
  cases before with
  | nil => cases hhead
  | cons first rest =>
    obtain rfl := Option.some.inj hhead
    rw [List.append_cons front] at heq
    obtain rfl := earlier_of_asked h heq
    exact hlaw

/-- What a new manager holds. -/
theorem Manager.of_create? {settings : Settings} {m : Manager}
    (h : Manager.create? settings roster = some m) :
    m.settings = settings ∧ m.roster = roster ∧ m.started = false ∧
      (∀ k, m.isScheduled k = false) ∧ ∀ k, (m.replica k).entries = ∅ := by
  obtain ⟨skew, -, rfl⟩ := Option.map_eq_some_iff.mp h
  refine ⟨rfl, rfl, rfl, ByKind.get_tabulate _, ?_⟩
  intro k
  show (((ByKind.tabulate _).get k : Cache k).replica).entries = ∅
  rw [ByKind.get_tabulate]
  rfl

namespace Course

variable {s s' : Course} {m : Manager}

namespace Tended

/-- A start that begins to load does so while nobody occupies the manager, with the kinds that were
opened before its call. -/
theorem free_at_call (h : Tended roster limit s)
    (hlog : s.log = later ++ .asked task .start :: earlier)
    (hw : .warming task kinds called ∈ s.log) :
    (∀ other, ¬ Occupies earlier other) ∧
      kinds = CacheKind.all.filter fun k => k ∈ openedKinds roster earlier := by
  obtain ⟨-, hfree, hkinds⟩ := law_of_answer (hlog ▸ h.ledger.lawful) (Or.inr ⟨_, _, rfl⟩)
    (hlog ▸ hw)
  refine ⟨fun other ho => hfree other ?_, hkinds⟩
  exact (@occupies_cons_aside _ _ (.asked task .start) trivial).mpr ho

/-- A start is refused exactly if one has succeeded or has not ended. -/
theorem refused (h : Tended roster limit s)
    (hlog : s.log = later ++ .asked task .start :: earlier) :
    .refused task ∈ s.log ↔ ∃ other, Occupies earlier other := by
  constructor
  · intro hr
    obtain ⟨-, other, ho⟩ := law_of_answer (hlog ▸ h.ledger.lawful) (Or.inl rfl) (hlog ▸ hr)
    exact ⟨other, (@occupies_cons_aside _ _ (.asked task .start) trivial).mp ho⟩
  · rintro ⟨other, ho⟩
    have hasked : .asked task .start ∈ s.log := hlog ▸ List.mem_append_right _ List.mem_cons_self
    rcases h.answered task hasked with ⟨hr, -⟩ | ⟨ks, called, hw⟩
    · exact hr
    · exact absurd ho ((h.free_at_call hlog hw).1 other)

/-- A start that is refused fails at once. -/
theorem denied (h : Tended roster limit s) (hr : .refused task ∈ s.log) :
    .ended task (.outcome (.error alreadyStarted)) ∈ s.log := by
  obtain ⟨front, before, hlog⟩ := List.append_of_mem hr
  obtain ⟨hhead, -⟩ := (hlog ▸ h.ledger.lawful).law_of_split
  cases before with
  | nil => cases hhead
  | cons first earlier =>
    obtain rfl := Option.some.inj hhead
    rw [List.append_cons] at hlog
    have hasked : .asked task .start ∈ s.log := hlog ▸ List.mem_append_right _ List.mem_cons_self
    rcases h.answered task hasked with ⟨-, he⟩ | ⟨ks, called, hw⟩
    · exact he
    · obtain ⟨other, ho⟩ := (h.refused hlog).mp hr
      exact absurd ho ((h.free_at_call hlog hw).1 other)

/-- A start that is not refused begins to load the kinds that were opened before its call. -/
theorem begun (h : Tended roster limit s) (hlog : s.log = later ++ .asked task .start :: earlier)
    (hr : .refused task ∉ s.log) : ∃ called, .warming task
      (CacheKind.all.filter fun k => k ∈ openedKinds roster earlier) called ∈ s.log := by
  have hasked : .asked task .start ∈ s.log := hlog ▸ List.mem_append_right _ List.mem_cons_self
  obtain ⟨ks, called, hw⟩ := (h.answered task hasked).resolve_left fun ⟨hr', _⟩ => hr hr'
  obtain ⟨-, rfl⟩ := h.free_at_call hlog hw
  exact ⟨called, hw⟩

/-- A start that has begun ends with the sum of the results of its loads. -/
theorem summed {reply : Reply} (h : Tended roster limit s)
    (hw : .warming task kinds called ∈ s.log) (he : .ended task reply ∈ s.log) :
    SumsUp s.log task kinds reply := by
  have hlawful := h.ledger.lawful
  obtain ⟨front, before, hlog⟩ := List.append_of_mem he
  rw [hlog] at hlawful hw ⊢
  rcases List.mem_append.mp hw with hw | hw
  · -- A start begins right at its call, when nothing was told of it before.
    obtain ⟨front, between, rfl⟩ := List.append_of_mem hw
    rw [List.append_assoc, List.cons_append] at hlawful
    obtain ⟨hhead, -⟩ := hlawful.law_of_split
    cases between with
    | nil => cases hhead
    | cons first rest =>
      obtain rfl := Option.some.inj hhead
      rw [List.append_cons] at hlawful
      have hfresh : Fresh (rest ++ .ended task reply :: before) task := hlawful.law_of_split
      exact absurd (List.mem_append_right _ List.mem_cons_self) (hfresh.not_mem rfl)
  · have hw := (List.mem_cons.mp hw).resolve_left nofun
    obtain ⟨results, hresults, hreply⟩ := hlawful.law_of_split.2.2 kinds called hw
    refine ⟨results, ?_, hreply⟩
    rw [List.append_cons]
    exact hresults.imp fun _ _ hc => hc.append _

/-- A start that has begun and has not ended runs, and one of its loads does. -/
theorem loading (h : Tended roster limit s) (hw : .warming task kinds called ∈ s.log)
    (hend : ∀ reply, .ended task reply ∉ s.log) : ∃ warmUps k,
      s.world.taskState? task = some (.running (.start (called + limit) warmUps)) ∧
      k ∈ kinds ∧ (k, none) ∈ standing warmUps ∧ ∀ e ∈ s.log, ¬ Closes task k e := by
  obtain ⟨a, ht⟩ := (h.warmers task kinds called hw).resolve_left fun ⟨reply, he⟩ => hend reply he
  have hfollows := (h.running task a ht).follows
  by_cases ha : ∃ deadline warmUps, a = .start deadline warmUps
  · obtain ⟨deadline, warmUps, rfl⟩ := ha
    obtain ⟨⟨called', hw', rfl⟩, hstands, k, hk⟩ := hfollows
    obtain ⟨rfl, rfl⟩ := warming_unique h.ledger.lawful hw hw'
    refine ⟨warmUps, k, ht, ?_, hk, hstands _ hk⟩
    rw [← kinds_standing]
    exact List.mem_map_of_mem hk
  · exact absurd hw (hfollows.unwarmed (fun d ws heq => ha ⟨d, ws, heq⟩) kinds called)

/-- A start whose loads are all concluded has ended. -/
theorem returned (h : Tended roster limit s) (hw : .warming task kinds called ∈ s.log)
    (hc : ∀ k ∈ kinds, ∃ result, Concluded s.log task k result) :
    ∃ reply, .ended task reply ∈ s.log := by
  by_contra hend
  obtain ⟨warmUps, k, -, hk, -, hopen⟩ := h.loading hw fun reply he => hend ⟨reply, he⟩
  obtain ⟨result, he | ⟨-, moment, he⟩⟩ := hc k hk
  · exact hopen _ he (Or.inl ⟨result, rfl⟩)
  · exact hopen _ he (Or.inr ⟨moment, rfl⟩)

/-- A start that is polled after its limit ends. -/
theorem punctual (h : Tended roster limit s) (hw : .warming task kinds called ∈ s.log)
    (hlate : called + limit ≤ s.world.now) :
    ∃ reply, .ended task reply ∈ (s.act (.poll task)).log := by
  by_cases hend : ∃ reply, .ended task reply ∈ s.log
  · exact hend.imp fun _ he => List.mem_append_right _ he
  · obtain ⟨warmUps, k, ht, -, hk, -⟩ := h.loading hw fun reply he => hend ⟨reply, he⟩
    obtain ⟨w, reply, hp⟩ := pollStart_ended hlate hk
    refine ⟨reply, List.mem_append_left _ ?_⟩
    simp only [tellPoll, ht, hp, Option.elim_some]
    exact List.mem_append_left _ (List.mem_append_right _ List.mem_cons_self)

end Tended

/-! ## Whole courses -/

/-- The life of a manager with a roster and a limit of first loads. -/
structure Lifecycle (roster : Roster) (limit : Nat) (s : Course) : Prop where
  /-- The scheduled kinds are those of the requests before the first one that was refused. -/
  scheduled : s.world.manager.scheduled =
    CacheKind.all.filter fun k => k ∈ openedKinds roster s.log
  /-- The store is never asked for a kind that was not opened, and its replica stays empty. -/
  dormant : ∀ k, k ∉ openedKinds roster s.log →
    (∀ a ∈ s.world.asked, a.kind ≠ k) ∧ (s.world.replica k).entries = ∅
  /-- A start is refused exactly if one has succeeded or has not ended. -/
  refused : ∀ later earlier task, s.log = later ++ .asked task .start :: earlier →
    (.refused task ∈ s.log ↔ ∃ other, Occupies earlier other)
  denied : ∀ task, .refused task ∈ s.log → .ended task (.outcome (.error alreadyStarted)) ∈ s.log
  /-- A start that is not refused begins to load the kinds that were opened before its call. -/
  begun : ∀ later earlier task, s.log = later ++ .asked task .start :: earlier →
    .refused task ∉ s.log → ∃ called, .warming task
      (CacheKind.all.filter fun k => k ∈ openedKinds roster earlier) called ∈ s.log
  /-- Each load ends once, or is dropped once the limit is over. -/
  lawful : Chronicle (StartLaw roster limit) s.log
  /-- A start that has begun ends with the sum of the results of its loads. -/
  summed : ∀ task kinds called reply, .warming task kinds called ∈ s.log →
    .ended task reply ∈ s.log → SumsUp s.log task kinds reply
  /-- A start ends with the last of its loads. -/
  returned : ∀ task kinds called, .warming task kinds called ∈ s.log →
    (∀ k ∈ kinds, ∃ result, Concluded s.log task k result) → ∃ reply, .ended task reply ∈ s.log
  /-- A start that is polled after its limit ends. -/
  punctual : ∀ task kinds called, .warming task kinds called ∈ s.log →
    called + limit ≤ s.world.now → ∃ reply, .ended task reply ∈ (s.act (.poll task)).log
  /-- One start succeeds at most. -/
  once : ∀ task kinds other kinds', Succeeded s.log task kinds → Succeeded s.log other kinds' →
    task = other
  /-- The loops that came are those of the start that has succeeded, one for each of its kinds. -/
  loops : (∃ task kinds, Succeeded s.log task kinds ∧ loopKinds s.log = kinds) ∨
    (∀ task kinds, ¬ Succeeded s.log task kinds) ∧ loopKinds s.log = []
  /-- The loops that run have come. -/
  spawned : ∀ id loop, s.world.taskState? id = some (.running (.loop loop)) →
    .spawned id loop.kind ∈ s.log

theorem act_log (s : Course) (a : Action) : ∃ told, (s.act a).log = told ++ s.log := by
  cases a with
  | ask command => exact ⟨_, rfl⟩
  | poll task => exact ⟨_, rfl⟩
  | drop task => exact ⟨_, rfl⟩
  | openAll requests => exact ⟨[.opened requests], rfl⟩
  | withdraw =>
    refine ⟨[], ?_⟩
    simp only [act]
    split <;> rfl
  | _ => exact ⟨[], rfl⟩

/-- What every step of a managed course keeps, after any number of steps. -/
theorem run_tended (h : Tended m.roster m.settings.warmUpTimeout.toNat s) (hsched : Scheduling m s)
    (hn : s.Numbered) (actions : List Action) (hm : Managed (s.run actions).log) :
    Scheduling m (s.run actions) ∧
      Tended m.roster m.settings.warmUpTimeout.toNat (s.run actions) := by
  have key : (s.run actions).Numbered ∧ (Managed (s.run actions).log →
      Scheduling m (s.run actions) ∧
        Tended m.roster m.settings.warmUpTimeout.toNat (s.run actions)) := by
    refine @run_invariant (fun r => r.Numbered ∧ (Managed r.log → Scheduling m r ∧
      Tended m.roster m.settings.warmUpTimeout.toNat r)) ?_ s ⟨hn, fun _ => ⟨hsched, h⟩⟩ actions
    rintro r a ⟨hr, hkept⟩
    refine ⟨hr.step (act_step r a), fun hma => ?_⟩
    obtain ⟨told, hlog⟩ := act_log r a
    obtain ⟨hrs, hrt⟩ := hkept (hlog ▸ hma).of_append
    exact ⟨hrs.step hr (act_step r a) hma, hrt.step hrs hr (act_step r a) hma⟩
  exact key.2 hm

theorem outset_scheduling {manager : Manager} (store : Store) (origin : Instant) (now : Nat)
    (hopened : ∀ k, manager.isScheduled k = false) :
    Scheduling manager (outset manager store origin now) := by
  refine ⟨rfl, rfl, ?_, (fun id a hid => nomatch hid), (fun a ha => nomatch ha), fun _ _ => rfl⟩
  intro k
  exact iff_of_false (by rw [Bool.not_eq_true]; exact hopened k) List.not_mem_nil

/-- In every course in which the caches of a new manager are refreshed only through it and its
starts run to their end, the manager lives by its rules. -/
theorem run_lifecycle {settings : Settings} {roster : Roster} {manager : Manager}
    (hcreate : Manager.create? settings roster = some manager) (store : Store) (origin : Instant)
    (now : Nat) (actions : List Action)
    (hm : Managed ((outset manager store origin now).run actions).log) :
    ((outset manager store origin now).run actions).Lifecycle roster
      settings.warmUpTimeout.toNat := by
  obtain ⟨rfl, rfl, hidle, hopened, hempty⟩ := Manager.of_create? hcreate
  obtain ⟨hsched, h⟩ := run_tended (outset_tended manager store origin now hidle _ _)
    (outset_scheduling store origin now hopened) (outset_numbered manager store origin now)
    actions hm
  refine ⟨?_, ?_, ?_, ?_, ?_, h.ledger.lawful, ?_, ?_, ?_, ?_, h.ledger.loops, ?_⟩
  · refine List.filter_congr fun k _ => ?_
    rw [Bool.eq_iff_iff, hsched.opened k, decide_eq_true_iff]
  · intro k hk
    rw [← hsched.opened k] at hk
    refine ⟨fun a ha heq => hk (heq ▸ hsched.asked a ha), ?_⟩
    exact (congrArg (fun cache : Cache k => cache.replica.entries) (hsched.dormant k hk)).trans
      (hempty k)
  · exact fun later earlier task hlog => h.refused hlog
  · exact fun task => h.denied
  · exact fun later earlier task hlog => h.begun hlog
  · exact fun task kinds called reply => h.summed
  · exact fun task kinds called => h.returned
  · exact fun task kinds called => h.punctual
  · exact fun task kinds other kinds' hs hs' => h.ledger.sole task other hs.occupies hs'.occupies
  · exact fun id loop hid => (h.running id _ hid).follows.1

end Course

/-! ## A course -/

/-- The occurrence is neither a command that passes the manager by nor a drop. -/
def Occurrence.isManaged : Occurrence → Bool
  | .asked _ c => c.isManaged
  | .dropped _ => false
  | _ => true

theorem managed_of_all (h : log.all Occurrence.isManaged = true) : Managed log := by
  rw [List.all_eq_true] at h
  exact ⟨fun _ _ he => h _ he, fun _ _ hd => absurd (h _ hd) Bool.false_ne_true⟩

namespace Course

/-- A cache is opened beside an unknown one, and started while the store is slow; a second start
comes meanwhile. -/
def twoStarts : List Action :=
  [.openAll [{ name := "namespace" }, { name := "unknown" }],
    .keep { Store.empty with latency := some 5 }, .ask .start, .ask .start, .pass 10, .poll 0]

/-- The first of two starts succeeds and brings a loop. -/
theorem twoStarts_lifecycle : ∃ manager, Manager.create? {} .builtin = some manager ∧
    Managed ((outset manager .empty Store.start 0).run twoStarts).log ∧
    ((outset manager .empty Store.start 0).run twoStarts).Lifecycle .builtin
      ({} : Settings).warmUpTimeout.toNat ∧
    loopKinds ((outset manager .empty Store.start 0).run twoStarts).log = [.namespaces] := by
  refine ⟨_, rfl, ?_, run_lifecycle rfl .empty Store.start 0 twoStarts ?_, by decide +kernel⟩
  all_goals exact managed_of_all (by decide +kernel)

end Course

end GovernanceCache
