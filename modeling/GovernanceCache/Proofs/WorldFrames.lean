import GovernanceCache.World.Polling
import Mathlib.Data.List.Basic

/-!
# What the steps of a world leave alone

Whoever refreshes the cache of a kind changes that cache, the store and the record of what the store
was asked, and nothing else (`Touches`). The same holds of the first loads of a start for all of
their kinds together. A start that succeeds adds the tasks of its refresh loops, one for each kind
and in order (`foldl_spawnLoop`).
-/

namespace GovernanceCache

/-- What a manager was set up with and the caches of the kinds that are not named stay. -/
structure Manager.Alters (p : CacheKind → Prop) (m m' : Manager) : Prop where
  settings : m'.settings = m.settings
  roster : m'.roster = m.roster
  opened : m'.opened = m.opened
  cache : ∀ k, ¬ p k → m'.cache k = m.cache k

namespace Manager.Alters

variable {m m' m'' : Manager} {p q : CacheKind → Prop} {k : CacheKind}

theorem refl (p : CacheKind → Prop) (m : Manager) : m.Alters p m := ⟨rfl, rfl, rfl, fun _ _ => rfl⟩

theorem trans (h : m.Alters p m') (h' : m'.Alters p m'') : m.Alters p m'' :=
  ⟨h'.settings.trans h.settings, h'.roster.trans h.roster, h'.opened.trans h.opened,
    fun k hk => (h'.cache k hk).trans (h.cache k hk)⟩

theorem mono (h : m.Alters p m') (hpq : ∀ k, p k → q k) : m.Alters q m' :=
  { h with cache := fun k hk => h.cache k fun hp => hk (hpq k hp) }

theorem withCache (m : Manager) (k : CacheKind) (cache : Cache k) :
    m.Alters (· = k) (m.withCache k cache) :=
  ⟨rfl, rfl, rfl, fun _ hl => m.caches.get_set_of_ne cache hl⟩

theorem isScheduled (h : m.Alters p m') (k : CacheKind) : m'.isScheduled k = m.isScheduled k := by
  unfold Manager.isScheduled; rw [h.opened]

theorem scheduled (h : m.Alters p m') : m'.scheduled = m.scheduled := by
  unfold Manager.scheduled
  exact List.filter_congr fun k _ => h.isScheduled k

/-- Changing the caches of kinds one after another. -/
theorem foldl {f : Manager → CacheKind → Manager}
    (hf : ∀ (m : Manager) (k : CacheKind), m.Alters (· = k) (f m k))
    (kinds : List CacheKind) (m : Manager) : m.Alters (· ∈ kinds) (kinds.foldl f m) := by
  induction kinds generalizing m with
  | nil => exact .refl _ m
  | cons k rest ih =>
    have hk : m.Alters (· ∈ k :: rest) (f m k) := (hf m k).mono fun l hl => by simp [hl]
    exact hk.trans ((ih (f m k)).mono fun l hl => List.mem_cons_of_mem _ hl)

end Manager.Alters

namespace World

/-- Only the caches of the named kinds change, the store, and what it was asked for these kinds. -/
structure Touches (p : CacheKind → Prop) (w w' : World) : Prop where
  manager : w.manager.Alters p w'.manager
  started : w'.manager.started = w.manager.started
  scope : w'.scope = w.scope
  now : w'.now = w.now
  tasks : w'.tasks = w.tasks
  nextTask : w'.nextTask = w.nextTask
  asked : ∀ a ∈ w'.asked, a ∈ w.asked ∨ p a.kind

variable {w w' w'' : World} {p q : CacheKind → Prop} {k : CacheKind}

namespace Touches

theorem refl (p : CacheKind → Prop) (w : World) : w.Touches p w :=
  ⟨.refl p _, rfl, rfl, rfl, rfl, rfl, fun _ => Or.inl⟩

theorem trans (h : w.Touches p w') (h' : w'.Touches p w'') : w.Touches p w'' where
  manager := h.manager.trans h'.manager
  started := h'.started.trans h.started
  scope := h'.scope.trans h.scope
  now := h'.now.trans h.now
  tasks := h'.tasks.trans h.tasks
  nextTask := h'.nextTask.trans h.nextTask
  asked a ha := (h'.asked a ha).elim (h.asked a) Or.inr

theorem mono (h : w.Touches p w') (hpq : ∀ k, p k → q k) : w.Touches q w' :=
  { h with
    manager := h.manager.mono hpq
    asked := fun a ha => (h.asked a ha).imp_right (hpq a.kind) }

theorem withCache (w : World) (k : CacheKind) (cache : Cache k) :
    w.Touches (· = k) (w.withCache k cache) :=
  ⟨.withCache _ k cache, rfl, rfl, rfl, rfl, rfl, fun _ => Or.inl⟩

theorem single (h : w.Touches (· = k) w') : w.Touches (· ∈ [k]) w' :=
  h.mono fun _ hl => List.mem_singleton.mpr hl

theorem withStore (p : CacheKind → Prop) (w : World) (store : Store) :
    w.Touches p { w with store } :=
  ⟨.refl p _, rfl, rfl, rfl, rfl, rfl, fun _ => Or.inl⟩

end Touches

/-! ## Refreshes -/

theorem ask_touches (w : World) (k : CacheKind) (ticket : Ticket) :
    w.Touches (· = k) (w.ask k ticket).1 where
  manager := .refl _ _
  started := rfl
  scope := rfl
  now := rfl
  tasks := rfl
  nextTask := rfl
  asked a ha := by
    rcases List.mem_cons.mp ha with rfl | ha
    · exact Or.inr rfl
    · exact Or.inl ha

theorem pollStage_touches (w : World) (k : CacheKind) (stage : Stage (OpenPull k.Row)) :
    w.Touches (· = k) (w.pollStage k stage).1 := by
  unfold pollStage
  cases stage with
  | pulling call ticket pull =>
    simp only
    split
    · exact (Touches.withCache w k _).trans (.withStore _ _ _)
    · exact .refl _ w
  | following call =>
    simp only
    split
    · exact .withCache w k _
    · exact .refl _ w

theorem enterRefresh_touches (w : World) (k : CacheKind) :
    w.Touches (· = k) (w.enterRefresh k).1 := by
  unfold enterRefresh
  rcases (w.cache k).enter w.wallClock with ⟨cache, ⟨call, ticket⟩ | call | result⟩
  · have hasked := (Touches.withCache w k cache).trans (ask_touches _ k ticket)
    have hpolled := pollStage_touches ((w.withCache k cache).ask k ticket).1 k
      (.pulling call ticket ((w.withCache k cache).ask k ticket).2)
    simp only
    split
    · rename_i hp
      rw [hp] at hpolled
      exact hasked.trans hpolled
    · rename_i hp
      rw [hp] at hpolled
      exact hasked.trans hpolled
  · exact .withCache w k cache
  · exact .withCache w k cache

theorem concludeRefresh_touches (w : World) (k : CacheKind) (thorough : Bool)
    (refreshed : Refreshed) : w.Touches (· = k) (w.concludeRefresh k thorough refreshed).1 := by
  have henter := enterRefresh_touches w k
  unfold concludeRefresh
  split
  · split <;> (rename_i he; rw [he] at henter; exact henter)
  · exact .refl _ w

theorem beginRefreshing_touches (w : World) (k : CacheKind) (thorough : Bool) :
    w.Touches (· = k) (w.beginRefreshing k thorough).1 := by
  have henter := enterRefresh_touches w k
  unfold beginRefreshing
  split
  · rename_i he
    rw [he] at henter
    exact henter
  · rename_i he
    rw [he] at henter
    exact henter.trans (concludeRefresh_touches _ k thorough _)

theorem pollRefreshing_touches (w : World) (k : CacheKind) (r : Refreshing k) :
    w.Touches (· = k) (w.pollRefreshing k r).1 := by
  have hstage := pollStage_touches w k r.stage
  unfold pollRefreshing
  split
  · rename_i hp
    rw [hp] at hstage
    exact hstage
  · rename_i hp
    rw [hp] at hstage
    exact hstage.trans (concludeRefresh_touches _ k r.thorough _)

theorem dropRefreshing_touches (w : World) (k : CacheKind) (r : Refreshing k) :
    w.Touches (· = k) (w.dropRefreshing k r) := by
  unfold dropRefreshing
  split
  · exact (Touches.withCache w k _).trans (.withStore _ _ _)
  · exact .refl _ w

theorem lookUp_touches (w : World) (name : String) :
    w.Touches (· = .namespaces) (w.lookUp name).1 :=
  .withCache w .namespaces _

/-! ## First loads -/

theorem expire_touches (w : World) (k : CacheKind) (deadline : Nat) (warmUp : WarmUp k) :
    w.Touches (· = k) (w.expire k deadline warmUp).1 := by
  unfold expire
  split
  · split
    · exact dropRefreshing_touches w k _
    · exact .refl _ w
  · exact .refl _ w

theorem beginWarmUp_touches (w : World) (k : CacheKind) (deadline : Nat) :
    w.Touches (· = k) (w.beginWarmUp k deadline).1 :=
  (beginRefreshing_touches w k true).trans (expire_touches _ k deadline _)

theorem pollWarmUp_touches (w : World) (k : CacheKind) (deadline : Nat) (warmUp : WarmUp k) :
    w.Touches (· = k) (w.pollWarmUp k deadline warmUp).1 := by
  unfold pollWarmUp
  split
  · exact .refl _ w
  · rename_i r
    have hpoll := pollRefreshing_touches w k r
    split
    · rename_i hp
      rw [hp] at hpoll
      exact hpoll.trans (expire_touches _ k deadline _)
    · rename_i hp
      rw [hp] at hpoll
      exact hpoll.trans (expire_touches _ k deadline _)

theorem beginWarmUps_touches (w : World) (deadline : Nat) (kinds : List CacheKind) :
    w.Touches (· ∈ kinds) (w.beginWarmUps deadline kinds).1 := by
  induction kinds generalizing w with
  | nil => exact .refl _ w
  | cons k rest ih =>
    have hk := (beginWarmUp_touches w k deadline).mono (q := (· ∈ k :: rest)) fun l hl => by
      simp [hl]
    exact hk.trans ((ih _).mono fun l hl => List.mem_cons_of_mem _ hl)

/-- The kinds of first loads. -/
def kindsOf (warmUps : WarmUps) : List CacheKind := warmUps.map (·.1)

theorem pollWarmUps_touches (w : World) (deadline : Nat) (warmUps : WarmUps) :
    w.Touches (· ∈ kindsOf warmUps) (w.pollWarmUps deadline warmUps).1 := by
  induction warmUps generalizing w with
  | nil => exact .refl _ w
  | cons warmUp rest ih =>
    have hk := (pollWarmUp_touches w warmUp.1 deadline warmUp.2).mono
      (q := (· ∈ kindsOf (warmUp :: rest))) fun l hl => by simp [hl, kindsOf]
    exact hk.trans ((ih _).mono fun l hl => List.mem_cons_of_mem _ hl)

theorem kindsOf_beginWarmUps (w : World) (deadline : Nat) (kinds : List CacheKind) :
    kindsOf (w.beginWarmUps deadline kinds).2 = kinds := by
  induction kinds generalizing w with
  | nil => rfl
  | cons k rest ih => exact congrArg (k :: ·) (ih _)

theorem kindsOf_pollWarmUps (w : World) (deadline : Nat) (warmUps : WarmUps) :
    kindsOf (w.pollWarmUps deadline warmUps).2.1 = kindsOf warmUps := by
  induction warmUps generalizing w with
  | nil => rfl
  | cons warmUp rest ih => exact congrArg (warmUp.1 :: ·) (ih _)

theorem dropWarmUps_touches (w : World) (warmUps : WarmUps) :
    w.Touches (· ∈ kindsOf warmUps) (w.dropWarmUps warmUps) := by
  induction warmUps generalizing w with
  | nil => exact .refl _ w
  | cons warmUp rest ih =>
    obtain ⟨k, _ | _⟩ := warmUp
    · have hk := (dropRefreshing_touches w k ‹_›).mono
        (q := (· ∈ k :: kindsOf rest)) fun l hl => by simp [hl]
      exact hk.trans ((ih _).mono fun l hl => List.mem_cons_of_mem _ hl)
    · exact (ih w).mono fun l hl => List.mem_cons_of_mem _ hl

/-! ## Loops that begin -/

/-- The tasks of new refresh loops, numbered in turn. -/
def loopTasks (w : World) : Nat → List CacheKind → List Task
  | _, [] => []
  | id, k :: rest => ⟨id, .running (.loop (w.newLoop k))⟩ :: loopTasks w (id + 1) rest

theorem loopTasks_congr {w w' : World} (hs : w'.manager.settings = w.manager.settings)
    (hn : w'.now = w.now)
    (id : Nat) (kinds : List CacheKind) : w'.loopTasks id kinds = w.loopTasks id kinds := by
  induction kinds generalizing id with
  | nil => rfl
  | cons k rest ih =>
    unfold loopTasks newLoop
    rw [ih, hs, hn]

/-- A start that succeeds adds one loop for each of its kinds. -/
theorem foldl_spawnLoop (w : World) (kinds : List CacheKind) :
    kinds.foldl spawnLoop w =
      { w with
        tasks := w.tasks ++ w.loopTasks w.nextTask kinds
        nextTask := w.nextTask + kinds.length } := by
  induction kinds generalizing w with
  | nil =>
    show w = { w with tasks := w.tasks ++ [], nextTask := w.nextTask }
    rw [List.append_nil]
  | cons k rest ih =>
    have hrest : (w.spawnLoop k).loopTasks (w.nextTask + 1) rest =
        w.loopTasks (w.nextTask + 1) rest := by
      apply loopTasks_congr <;> rfl
    rw [List.foldl_cons, ih, List.length_cons, Nat.add_comm rest.length, ← Nat.add_assoc]
    show World.mk _ _ _ _ _ _ ((w.tasks ++ [_]) ++ (w.spawnLoop k).loopTasks (w.nextTask + 1) rest)
      _ = _
    rw [hrest, List.append_assoc]
    rfl

/-- How a start goes on whose first loads stand so. -/
inductive Resumption (w : World) (deadline : Nat) (warmUps : WarmUps) :
    World × (Activity ⊕ Reply) → Prop where
  | waits (h : warmUpResults? warmUps = none) :
    Resumption w deadline warmUps (w, .inl (.start deadline warmUps))
  | succeeds (results : List Outcome) (h : warmUpResults? warmUps = some results)
    (hf : faultsOf results = []) :
    Resumption w deadline warmUps ((kindsOf warmUps).foldl spawnLoop w, .inr (.outcome (.ok ())))
  | fails (results : List Outcome) (h : warmUpResults? warmUps = some results)
    (hf : faultsOf results ≠ []) :
    Resumption w deadline warmUps
      ({ w with manager := { w.manager with started := false } },
        .inr (.outcome (Fault.aggregate (faultsOf results))))

theorem resumeStart_resumption (w : World) (deadline : Nat) (warmUps : WarmUps) :
    Resumption w deadline warmUps (w.resumeStart deadline warmUps) := by
  unfold resumeStart
  split
  · rename_i h
    exact .waits h
  · rename_i results h
    unfold concludeStart
    rcases hf : faultsOf results with _ | ⟨fault, faults⟩
    · exact .succeeds results h hf
    · have hfails := @Resumption.fails w deadline warmUps results h (by simp [hf])
      rw [hf] at hfails
      exact hfails

/-- The world once a start has marked its manager. -/
def marked (w : World) : World := { w with manager := { w.manager with started := true } }

/-- When the first loads of a start that begins now are late. -/
def loadLimit (w : World) : Nat := w.now + w.manager.settings.warmUpTimeout.toNat

/-- The world once a start has begun to load every scheduled kind, and how these loads stand. -/
def firstLoads (w : World) : World × WarmUps :=
  w.marked.beginWarmUps w.loadLimit w.manager.scheduled

theorem begin_start_of_started (h : w.manager.started = true) :
    w.begin .start = (w, .inr (.outcome (.error alreadyStarted))) :=
  if_pos h

theorem begin_start_of_idle (h : ¬ w.manager.started = true) :
    w.begin .start = w.firstLoads.1.resumeStart w.loadLimit w.firstLoads.2 :=
  if_neg h

theorem firstLoads_touches (w : World) :
    w.marked.Touches (· ∈ w.manager.scheduled) w.firstLoads.1 :=
  beginWarmUps_touches w.marked w.loadLimit w.manager.scheduled

theorem kindsOf_firstLoads (w : World) : kindsOf w.firstLoads.2 = w.manager.scheduled :=
  kindsOf_beginWarmUps w.marked w.loadLimit w.manager.scheduled

/-! ## Loops that go on -/

theorem Touches.rescope (h : w.Touches p w') (scope : Scope) :
    ({ w with scope }).Touches p { w' with scope } :=
  { h with scope := rfl }

/-- Apart from the scope, a loop changes what its updates change. -/
theorem pollIdle_touches (w : World) (loop : Loop) :
    w.Touches (· = loop.kind) { (w.pollIdle loop).1 with scope := w.scope } := by
  have hbegin :=
    (beginRefreshing_touches (w.mapScope Scope.register) loop.kind false).rescope w.scope
  unfold pollIdle
  split
  · exact .refl _ w
  · split
    · simp only
      split <;> (rename_i hb; rw [hb] at hbegin; exact hbegin)
    · exact .refl _ w

theorem pollLoop_touches (w : World) (loop : Loop) :
    w.Touches (· = loop.kind) { (w.pollLoop loop).1 with scope := w.scope } := by
  unfold pollLoop
  split
  · exact pollIdle_touches w loop
  · rename_i r _
    have hpoll := (pollRefreshing_touches w loop.kind r).rescope w.scope
    simp only
    split
    · rename_i hp
      rw [hp] at hpoll
      exact hpoll
    · rename_i hp
      rw [hp] at hpoll
      exact hpoll
    · rename_i w₁ _ hp
      rw [hp] at hpoll
      have hidle := (pollIdle_touches (w₁.mapScope Scope.release)
        { loop with update := none }).rescope w.scope
      split <;> (rename_i hi; rw [hi] at hidle; exact hpoll.trans hidle)

theorem dropLoop_touches (w : World) (loop : Loop) :
    w.Touches (· = loop.kind) { w.dropLoop loop with scope := w.scope } := by
  unfold dropLoop
  split
  · rename_i r _
    exact (dropRefreshing_touches w loop.kind r).rescope w.scope
  · exact .refl _ w

end World

/-! ## Plain activities -/

/-- The kinds whose caches an activity refreshes. -/
def Activity.kinds : Activity → List CacheKind
  | .refresh k _ => [k]
  | .start _ warmUps => World.kindsOf warmUps
  | .findNamespace .. => [.namespaces]
  | .loop l => [l.kind]
  | .stop _ | .sleep _ | .watchSize .. | .pull .. | .join _ => []

/-- The activity refreshes caches or waits, and does nothing else. -/
def Activity.isPlain : Activity → Bool
  | .start .. | .loop _ => false
  | _ => true

/-- The command asks for a plain activity that does not touch the scope. -/
def Command.isPlain : Command → Bool
  | .start | .stop _ => false
  | _ => true

namespace World

variable {w w' : World} {a : Activity} {c : Command}

/-- The kinds whose caches a command refreshes. -/
def kindsAsked (w : World) : Command → List CacheKind
  | .refresh k _ => [k]
  | .forceUpdate k => if w.manager.isScheduled k then [k] else []
  | .start => w.manager.scheduled
  | .findNamespace _ => [.namespaces]
  | .stop _ | .sleep _ | .watchSize .. | .pull .. | .join _ => []

theorem resumeSearch_touches (w : World) (name : String)
    (next : Refreshing .namespaces ⊕ Refreshed) :
    w.Touches (· = .namespaces) (w.resumeSearch name next).1 := by
  unfold resumeSearch
  split
  · exact .refl _ w
  · split
    · exact .refl _ w
    · exact lookUp_touches w name

theorem beginSearch_touches (w : World) (name : String) :
    w.Touches (· = .namespaces) (w.beginSearch name).1 := by
  have hlook := lookUp_touches w name
  unfold beginSearch
  split
  · rename_i hl
    rw [hl] at hlook
    exact hlook
  · rename_i w₁ hl
    rw [hl] at hlook
    exact (hlook.trans (beginRefreshing_touches w₁ .namespaces true)).trans
      (resumeSearch_touches _ name _)

theorem resumePull_touches (p : CacheKind → Prop) (w : World) (k : CacheKind)
    (pull : OpenPull k.Row) : w.Touches p (w.resumePull k pull).1 := by
  unfold resumePull
  split
  · exact .withStore p w _
  · exact .refl p w

theorem begin_touches (w : World) (hc : c.isPlain) :
    w.Touches (· ∈ w.kindsAsked c) (w.begin c).1 := by
  cases c with
  | refresh k thorough => exact (beginRefreshing_touches w k thorough).single
  | forceUpdate k =>
    simp only [begin, kindsAsked]
    split
    · exact (beginRefreshing_touches w k true).single
    · exact .refl _ w
  | start => cases hc
  | stop grace => cases hc
  | findNamespace name => exact (beginSearch_touches w name).single
  | pull k since firstLoad => exact (Touches.withStore _ w _).trans (resumePull_touches _ _ k _)
  | sleep | watchSize | join => exact .refl _ w

theorem poll_touches (w : World) (ha : a.isPlain) : w.Touches (· ∈ a.kinds) (w.poll a).1 := by
  cases a with
  | refresh k r => exact (pollRefreshing_touches w k r).single
  | start deadline warmUps => cases ha
  | loop loop => cases ha
  | findNamespace name r =>
    have hpoll := (pollRefreshing_touches w .namespaces r).single
    simp only [poll]
    split
    · rename_i hp
      rw [hp] at hpoll
      exact hpoll
    · rename_i hp
      rw [hp] at hpoll
      exact hpoll.trans (resumeSearch_touches _ name _).single
  | pull k pull => exact resumePull_touches _ w k pull
  | stop | sleep | watchSize | join => exact .refl _ w

theorem drop_touches (w : World) (ha : a.isPlain) : w.Touches (· ∈ a.kinds) (w.drop a) := by
  cases a with
  | refresh k r => exact (dropRefreshing_touches w k r).single
  | start deadline warmUps => cases ha
  | loop loop => cases ha
  | findNamespace name r => exact (dropRefreshing_touches w .namespaces r).single
  | pull k pull => exact .withStore _ w _
  | stop | sleep | watchSize | join => exact .refl _ w

theorem resumeRefresh_plain {k : CacheKind} {next : Refreshing k ⊕ Refreshed}
    (h : resumeRefresh k next = .inl a) : a.isPlain ∧ a.kinds = [k] := by
  cases next <;> cases h
  exact ⟨rfl, rfl⟩

theorem resumeSearch_plain {name : String} {next : Refreshing .namespaces ⊕ Refreshed}
    (h : (w.resumeSearch name next).2 = .inl a) : a.isPlain ∧ a.kinds = [.namespaces] := by
  unfold resumeSearch at h
  split at h
  · cases h
    exact ⟨rfl, rfl⟩
  · split at h <;> cases h

theorem resumePull_plain {k : CacheKind} {pull : OpenPull k.Row}
    (h : (w.resumePull k pull).2 = .inl a) : a.isPlain ∧ a.kinds = [] := by
  unfold resumePull at h
  split at h <;> cases h
  exact ⟨rfl, rfl⟩

theorem lookAtSize_plain {k : CacheKind} {size deadline : Nat}
    (h : w.lookAtSize k size deadline = .inl a) : a.isPlain ∧ a.kinds = [] := by
  unfold lookAtSize at h
  split at h
  · cases h
  · split at h <;> cases h
    exact ⟨rfl, rfl⟩

theorem resumeSleep_plain {readyAt : Nat} (h : w.resumeSleep readyAt = .inl a) :
    a.isPlain ∧ a.kinds = [] := by
  unfold resumeSleep at h
  split at h <;> cases h
  exact ⟨rfl, rfl⟩

theorem resumeJoin_plain {task : Nat} (h : w.resumeJoin task = .inl a) :
    a.isPlain ∧ a.kinds = [] := by
  unfold resumeJoin at h
  split at h <;> cases h
  exact ⟨rfl, rfl⟩

/-- A plain command becomes a plain activity. -/
theorem begin_plain (hc : c.isPlain) (h : (w.begin c).2 = .inl a) :
    a.isPlain ∧ a.kinds = w.kindsAsked c := by
  cases c with
  | refresh k thorough => exact resumeRefresh_plain h
  | forceUpdate k =>
    simp only [begin, kindsAsked] at h ⊢
    split at h
    · rw [if_pos ‹_›]
      exact resumeRefresh_plain h
    · cases h
  | start => cases hc
  | stop grace => cases hc
  | findNamespace name =>
    simp only [begin, beginSearch] at h
    split at h
    · cases h
    · exact resumeSearch_plain h
  | pull k since firstLoad => exact resumePull_plain h
  | sleep span => exact resumeSleep_plain h
  | watchSize k size limit => exact lookAtSize_plain h
  | join task => exact resumeJoin_plain h

/-- What waits on has not moved. -/
theorem ne_unlessWaiting {next : Activity ⊕ Reply} : unlessWaiting next ≠ some (.inl a) := by
  cases next <;> simp [unlessWaiting]

/-- A plain activity stays one of the same kinds. -/
theorem poll_plain {b : Activity} (ha : a.isPlain) (h : (w.poll a).2 = some (.inl b)) :
    b.isPlain ∧ b.kinds = a.kinds := by
  cases a with
  | refresh k r =>
    obtain ⟨next, -, hnext⟩ := Option.map_eq_some_iff.mp h
    exact resumeRefresh_plain hnext
  | start deadline warmUps => cases ha
  | loop loop => cases ha
  | findNamespace name r =>
    simp only [poll] at h
    split at h
    · cases h
    · exact resumeSearch_plain (Option.some.inj h)
  | watchSize k size deadline nextLook =>
    simp only [poll] at h
    split at h
    · exact lookAtSize_plain (Option.some.inj h)
    · cases h
  | stop | sleep | pull | join => exact absurd h ne_unlessWaiting

end World

end GovernanceCache
