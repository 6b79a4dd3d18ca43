import GovernanceCache.Proofs.Flights
import GovernanceCache.Proofs.StartTasks

/-!
# The calls that tasks hold

A caller that pulls holds the call of its cache that it leads; a task that runs holds the calls of
its callers. Entering a refresh as a leader takes a call up, and settling or abandoning it lays it
down, whichever way the task goes on, ends or is dropped.

1. `Lasting I` says of a property of a cache and the calls that are held of it that every operation
   of the cache keeps it.
2. `Hands` follows such a property through the steps of an activity, whatever calls others hold
   (`begin_hands`, `poll_hands`, `drop_hands`).
3. Every step of a course keeps it for the calls that the tasks hold (`Course.run_lasting`).
-/

namespace GovernanceCache

variable {k l : CacheKind}

/-! ## Who holds which call -/

/-- The call that a caller at this stage leads. -/
def Stage.held {φ : Type} : Stage φ → List Nat
  | .pulling call _ _ => [call]
  | .following _ => []

/-- The call that a caller leads who entered so. -/
def Entry.held : Entry → List Nat
  | .pull call _ => [call]
  | .follow _ | .refused _ => []

/-- The call that a first load leads. -/
def WarmUp.held : WarmUp k → List Nat
  | .loading r => r.stage.held
  | .ended _ => []

/-- Calls of the cache of one kind. -/
def only (k : CacheKind) (calls : List Nat) (l : CacheKind) : List Nat :=
  if k = l then calls else []

/-- The calls of each cache that first loads lead. -/
def World.heldBy (warmUps : World.WarmUps) (l : CacheKind) : List Nat :=
  warmUps.flatMap fun u => only u.1 u.2.held l

/-- The calls of each cache that an activity leads. -/
def Activity.held : Activity → CacheKind → List Nat
  | .refresh k r => only k r.stage.held
  | .start _ warmUps => World.heldBy warmUps
  | .findNamespace _ r => only .namespaces r.stage.held
  | .loop l => only l.kind (l.update.elim [] fun r => r.stage.held)
  | .stop _ | .sleep _ | .watchSize .. | .pull .. | .join _ => fun _ => []

/-- The calls of each cache that a task leads. -/
def TaskState.held : TaskState → CacheKind → List Nat
  | .running a => a.held
  | .finished _ | .aborted => fun _ => []

/-- The calls of each cache that the tasks of a world lead. -/
def World.held (w : World) (l : CacheKind) : List Nat := w.tasks.flatMap fun t => t.state.held l

@[simp] theorem only_self (k : CacheKind) (calls : List Nat) : only k calls k = calls := if_pos rfl

@[simp] theorem only_nil (k l : CacheKind) : only k [] l = [] := ite_self _

theorem Stage.held_mapPull {φ : Type} (f : φ → φ) (stage : Stage φ) :
    (stage.mapPull f).held = stage.held := by
  cases stage <;> rfl

theorem Activity.held_mapPulls (f : PullChange) (a : Activity) : (a.mapPulls f).held = a.held := by
  cases a with
  | refresh k r => exact congrArg (only k) (r.stage.held_mapPull (f k))
  | start deadline warmUps =>
    funext l
    show World.heldBy (warmUps.map _) l = World.heldBy warmUps l
    unfold World.heldBy
    rw [List.flatMap_map]
    refine List.flatMap_congr fun u _ => ?_
    rcases u with ⟨k, r | result⟩
    · exact congrArg (only k · l) (r.stage.held_mapPull (f k))
    · rfl
  | findNamespace name r =>
    exact congrArg (only .namespaces) (r.stage.held_mapPull (f .namespaces))
  | loop loop =>
    rcases loop with ⟨k, period, dueAt, _ | r⟩
    · rfl
    · exact congrArg (only k) (r.stage.held_mapPull (f k))
  | stop | sleep | watchSize | pull | join => rfl

/-! ## How a caller enters -/

namespace Refresher

variable {R ι : Type}

/-- How a caller enters, and what becomes of the replica and its flights. -/
inductive Entering (c : Refresher R ι) (now : Instant) : Refresher R ι × Entry → Prop where
  | follows (call : Nat) (h : c.flights.current[c.key]? = some call) :
    Entering c now (c, .follow call)
  /-- The replica is closed: the call ends where it began. -/
  | refused (h : c.flights.current[c.key]? = none) (hc : c.replica.closed = true) :
    Entering c now
      ({ c with
          flights := (c.flights.lead c.key).finish c.key c.flights.next (.error (.closed c.key)) },
        .refused (.error (.closed c.key)))
  | leads (h : c.flights.current[c.key]? = none) (hc : c.replica.closed = false)
    (ticket : Ticket) :
    Entering c now
      ({ flights := c.flights.lead c.key
         replica := { c.replica with
          tally := c.replica.tally.countPull
          meter := c.replica.meter.countRefresh } },
        .pull c.flights.next ticket)

theorem enter_entering (c : Refresher R ι) (now : Instant) : Entering c now (c.enter now) := by
  unfold enter
  rcases hk : c.flights.current[c.key]? with _ | call
  · rw [SingleFlight.enter_of_free hk]
    rcases hc : c.replica.closed with _ | _
    · have hopened : c.replica.openPull now = some (_, _) := if_neg (by simp [hc])
      simp only [hopened]
      exact .leads hk hc _
    · have hrefused : c.replica.openPull now = none := if_pos hc
      simp only [hrefused]
      exact .refused hk hc
  · rw [SingleFlight.enter_of_registered hk]
    exact .follows call hk

end Refresher

/-! ## Properties that last -/

/-- A property of a cache and the calls of it that are held, kept by every operation of the
cache. -/
structure Lasting (I : (k : CacheKind) → Cache k → List Nat → Prop) : Prop where
  perm : ∀ {k : CacheKind} {c : Cache k} {calls calls' : List Nat},
    calls.Perm calls' → I k c calls → I k c calls'
  enter : ∀ {k : CacheKind} {c : Cache k} {calls : List Nat} (now : Instant),
    I k c calls → I k (c.enter now).1 ((c.enter now).2.held ++ calls)
  settle : ∀ {k : CacheKind} {c : Cache k} {calls : List Nat} {call : Nat} (ticket : Ticket)
    (answer : Answer k.Row), I k c (call :: calls) → I k (c.settle call ticket answer).1 calls
  abandon : ∀ {k : CacheKind} {c : Cache k} {calls : List Nat} {call : Nat},
    I k c (call :: calls) → I k (c.abandon call) calls
  share : ∀ {k : CacheKind} {c : Cache k} {calls : List Nat},
    I k c calls → I k { c with replica := c.replica.countShared } calls
  clear : ∀ {k : CacheKind} {c : Cache k} {calls : List Nat}, I k c calls → I k c.clear calls
  close : ∀ {k : CacheKind} {c : Cache k} {calls : List Nat},
    I k c calls → I k { c with replica := c.replica.close } calls
  look : ∀ {k : CacheKind} {c : Cache k} {calls : List Nat} (key : String),
    I k c calls → I k { c with replica := (c.replica.get key).1 } calls

namespace World

variable {I : (k : CacheKind) → Cache k → List Nat → Prop} {w w' w'' : World}
  {held held' held'' others : CacheKind → List Nat}

@[simp] theorem cache_withCache_self (w : World) (k : CacheKind) (cache : Cache k) :
    (w.withCache k cache).cache k = cache := ByKind.get_set_self _ k cache

/-- The property holds of every cache, if these calls of it are held. -/
def Bears (I : (k : CacheKind) → Cache k → List Nat → Prop) (w : World)
    (held : CacheKind → List Nat) : Prop := ∀ k, I k (w.cache k) (held k)

/-- Whatever calls others hold, the property goes on to hold while the first calls become the
second. -/
def Hands (I : (k : CacheKind) → Cache k → List Nat → Prop) (held held' : CacheKind → List Nat)
    (w w' : World) : Prop :=
  ∀ others : CacheKind → List Nat,
    w.Bears I (fun k => held k ++ others k) → w'.Bears I (fun k => held' k ++ others k)

namespace Hands

theorem refl (I : (k : CacheKind) → Cache k → List Nat → Prop) (held : CacheKind → List Nat)
    (w : World) : Hands I held held w w := fun _ h => h

theorem trans (h : Hands I held held' w w') (h' : Hands I held' held'' w' w'') :
    Hands I held held'' w w'' := fun others hw => h' others (h others hw)

/-- Only the cache of one kind changes, and what is held of it. -/
theorem single {calls calls' : List Nat} (ht : w.Touches (· = k) w')
    (h : ∀ others, I k (w.cache k) (calls ++ others) → I k (w'.cache k) (calls' ++ others)) :
    Hands I (only k calls) (only k calls') w w' := by
  intro others hw l
  by_cases hl : k = l
  · subst hl
    have hk := hw k
    simp only [only_self] at hk ⊢
    exact h _ hk
  · have hsame : w'.cache l = w.cache l := ht.manager.cache l (Ne.symm hl)
    have hl' := hw l
    simp only [only, if_neg hl] at hl' ⊢
    rw [hsame]
    exact hl'

/-- No cache changes, and nothing else is held. -/
theorem still (h : ∀ k, w'.cache k = w.cache k) (held : CacheKind → List Nat) :
    Hands I held held w w' := fun _ hw k => h k ▸ hw k

variable (hI : Lasting I)

include hI in
/-- Others may hold calls besides, named first. -/
theorem beside (h : Hands I held held' w w') (others : CacheKind → List Nat) :
    Hands I (fun k => others k ++ held k) (fun k => others k ++ held' k) w w' := by
  intro more hw k
  have hswap : ∀ (first : CacheKind → List Nat) (l : CacheKind),
      (others l ++ first l ++ more l).Perm (first l ++ (others l ++ more l)) := fun first l => by
    rw [← List.append_assoc]
    exact List.perm_append_comm.append_right _
  refine hI.perm (hswap held' k).symm (h (fun l => others l ++ more l) ?_ k)
  exact fun l => hI.perm (hswap held l) (hw l)

/-- Others may hold calls besides, named last. -/
theorem before (h : Hands I held held' w w') (others : CacheKind → List Nat) :
    Hands I (fun k => held k ++ others k) (fun k => held' k ++ others k) w w' := by
  intro more hw k
  have hassoc : ∀ first : CacheKind → List Nat, (fun l => first l ++ (others l ++ more l)) =
      fun l => first l ++ others l ++ more l := fun first => by
    funext l
    exact (List.append_assoc _ _ _).symm
  have hw' := h (fun l => others l ++ more l)
  rw [hassoc, hassoc] at hw'
  exact hw' hw k

end Hands

variable (hI : Lasting I)

include hI

/-! ## Refreshes -/

omit hI in
/-- A follower that is polled waits on, or is counted and ends. -/
theorem pollStage_following (w : World) (k : CacheKind) (call : Nat) :
    w.pollStage k (.following call) = (w, none) ∨ ∃ result, w.pollStage k (.following call) =
      (w.withCache k { w.cache k with replica := (w.cache k).replica.countShared },
        some ⟨.follower, result⟩) := by
  rcases hr : (w.cache k).flights.resultFor (w.cache k).key call with _ | result
  · exact Or.inl (by simp only [pollStage, Refresher.share?, hr, Option.map_none])
  · exact Or.inr ⟨result, by simp only [pollStage, Refresher.share?, hr, Option.map_some]⟩

theorem pollStage_hands (w : World) (k : CacheKind) (stage : Stage (OpenPull k.Row)) :
    Hands I (only k stage.held) (only k (if (w.pollStage k stage).2.isSome then [] else stage.held))
      w (w.pollStage k stage).1 := by
  refine .single (pollStage_touches w k stage) ?_
  intro others h
  cases stage with
  | pulling call ticket pull =>
    simp only [pollStage]
    split
    · have hsettled := hI.settle ticket pull.answer h
      simp only [Option.isSome_some, if_true, List.nil_append]
      show I k ((w.withCache k _).cache k) others
      rw [cache_withCache_self]
      exact hsettled
    · exact h
  | following call =>
    rcases pollStage_following w k call with heq | ⟨result, heq⟩
    · rw [heq]
      exact h
    · rw [heq]
      show I k ((w.withCache k _).cache k) others
      rw [cache_withCache_self]
      exact hI.share h

theorem enterRefresh_hands (w : World) (k : CacheKind) :
    Hands I (only k []) (only k ((w.enterRefresh k).2.elim Stage.held fun _ => [])) w
      (w.enterRefresh k).1 := by
  have hentered : ∀ (cache : Cache k) (entry : Entry),
      (w.cache k).enter w.wallClock = (cache, entry) →
      Hands I (only k []) (only k entry.held) w (w.withCache k cache) := by
    intro cache entry heq
    refine .single (.withCache w k cache) fun others h => ?_
    have hin := hI.enter w.wallClock h
    rw [heq] at hin
    rw [cache_withCache_self]
    exact hin
  unfold enterRefresh
  rcases heq : (w.cache k).enter w.wallClock with ⟨cache, ⟨call, ticket⟩ | call | result⟩
  · have hasked : Hands I (only k []) (only k [call]) w ((w.withCache k cache).ask k ticket).1 :=
      (hentered cache _ heq).trans (.still (fun _ => rfl) _)
    have hpolled := pollStage_hands hI ((w.withCache k cache).ask k ticket).1 k
      (.pulling call ticket ((w.withCache k cache).ask k ticket).2)
    simp only
    split <;>
    · rename_i hp
      rw [hp] at hpolled
      exact hasked.trans hpolled
  · exact hentered cache _ heq
  · exact hentered cache _ heq

theorem concludeRefresh_hands (w : World) (k : CacheKind) (thorough : Bool)
    (refreshed : Refreshed) :
    Hands I (only k []) (only k (warmUpOf (w.concludeRefresh k thorough refreshed).2).held) w
      (w.concludeRefresh k thorough refreshed).1 := by
  have henter := enterRefresh_hands hI w k
  unfold concludeRefresh
  split
  · split <;> (rename_i he; rw [he] at henter; exact henter)
  · exact .refl I _ w

theorem beginRefreshing_hands (w : World) (k : CacheKind) (thorough : Bool) :
    Hands I (only k []) (only k (warmUpOf (w.beginRefreshing k thorough).2).held) w
      (w.beginRefreshing k thorough).1 := by
  have henter := enterRefresh_hands hI w k
  unfold beginRefreshing
  split
  · rename_i he
    rw [he] at henter
    exact henter
  · rename_i he
    rw [he] at henter
    exact henter.trans (concludeRefresh_hands hI _ k thorough _)

theorem pollRefreshing_hands (w : World) (k : CacheKind) (r : Refreshing k) :
    Hands I (only k r.stage.held)
      (only k (warmUpOf ((w.pollRefreshing k r).2.getD (.inl r))).held) w
      (w.pollRefreshing k r).1 := by
  have hstage := pollStage_hands hI w k r.stage
  unfold pollRefreshing
  split
  · rename_i hp
    rw [hp] at hstage
    exact hstage
  · rename_i hp
    rw [hp] at hstage
    exact hstage.trans (concludeRefresh_hands hI _ k r.thorough _)

theorem dropRefreshing_hands (w : World) (k : CacheKind) (r : Refreshing k) :
    Hands I (only k r.stage.held) (only k []) w (w.dropRefreshing k r) := by
  refine .single (dropRefreshing_touches w k r) ?_
  intro others h
  unfold dropRefreshing
  rcases hr : r.stage with ⟨call, ticket, pull⟩ | call
  · rw [hr] at h
    show I k ((w.withCache k _).cache k) others
    rw [cache_withCache_self]
    exact hI.abandon h
  · rw [hr] at h
    exact h

theorem lookUp_hands (w : World) (name : String) :
    Hands I (only .namespaces []) (only .namespaces []) w (w.lookUp name).1 :=
  .single (lookUp_touches w name) fun _ h => hI.look name h

/-! ## First loads -/

theorem expire_hands (w : World) (k : CacheKind) (deadline : Nat) (warmUp : WarmUp k) :
    Hands I (only k warmUp.held) (only k (w.expire k deadline warmUp).2.held) w
      (w.expire k deadline warmUp).1 := by
  unfold expire
  split
  · split
    · exact dropRefreshing_hands hI w k _
    · exact .refl I _ w
  · exact .refl I _ w

theorem beginWarmUp_hands (w : World) (k : CacheKind) (deadline : Nat) :
    Hands I (only k []) (only k (w.beginWarmUp k deadline).2.held) w
      (w.beginWarmUp k deadline).1 :=
  (beginRefreshing_hands hI w k true).trans (expire_hands hI _ k deadline _)

theorem pollWarmUp_hands (w : World) (k : CacheKind) (deadline : Nat) (warmUp : WarmUp k) :
    Hands I (only k warmUp.held) (only k (w.pollWarmUp k deadline warmUp).2.1.held) w
      (w.pollWarmUp k deadline warmUp).1 := by
  unfold pollWarmUp
  split
  · exact .refl I _ w
  · rename_i r
    have hpoll := pollRefreshing_hands hI w k r
    split <;>
    · rename_i hp
      rw [hp] at hpoll
      exact hpoll.trans (expire_hands hI _ k deadline _)

theorem beginWarmUps_hands (w : World) (deadline : Nat) (kinds : List CacheKind) :
    Hands I (fun _ => []) (heldBy (w.beginWarmUps deadline kinds).2) w
      (w.beginWarmUps deadline kinds).1 := by
  induction kinds generalizing w with
  | nil => exact .refl I _ w
  | cons k rest ih =>
    have hk := beginWarmUp_hands hI w k deadline
    have hrest := (ih (w.beginWarmUp k deadline).1).beside hI
      (only k (w.beginWarmUp k deadline).2.held)
    have hnone : only k [] = fun _ => [] := funext (only_nil k)
    rw [hnone] at hk
    simp only [List.append_nil] at hrest
    exact hk.trans hrest

theorem pollWarmUps_hands (w : World) (deadline : Nat) (warmUps : WarmUps) :
    Hands I (heldBy warmUps) (heldBy (w.pollWarmUps deadline warmUps).2.1) w
      (w.pollWarmUps deadline warmUps).1 := by
  induction warmUps generalizing w with
  | nil => exact .refl I _ w
  | cons u rest ih =>
    have hk := (pollWarmUp_hands hI w u.1 deadline u.2).before (heldBy rest)
    exact hk.trans ((ih (w.pollWarmUp u.1 deadline u.2).1).beside hI
      (only u.1 (w.pollWarmUp u.1 deadline u.2).2.1.held))

omit hI in
theorem heldBy_ended (k : CacheKind) (result : Outcome) (rest : WarmUps) :
    heldBy (⟨k, .ended result⟩ :: rest) = heldBy rest := by
  funext l
  show only k [] l ++ heldBy rest l = heldBy rest l
  rw [only_nil, List.nil_append]

theorem dropWarmUps_hands (w : World) (warmUps : WarmUps) :
    Hands I (heldBy warmUps) (fun _ => []) w (w.dropWarmUps warmUps) := by
  induction warmUps generalizing w with
  | nil => exact .refl I _ w
  | cons u rest ih =>
    obtain ⟨k, r | result⟩ := u
    · have hk := (dropRefreshing_hands hI w k r).before (heldBy rest)
      simp only [only_nil, List.nil_append] at hk
      exact hk.trans (ih _)
    · rw [heldBy_ended]
      exact ih w

omit hI in
/-- First loads that have ended lead no call. -/
theorem heldBy_of_results {warmUps : WarmUps} {results : List Outcome}
    (h : warmUpResults? warmUps = some results) : heldBy warmUps = fun _ => [] := by
  induction warmUps generalizing results with
  | nil => rfl
  | cons u rest ih =>
    rw [warmUpResults?_cons] at h
    obtain ⟨result, hu, h⟩ := Option.bind_eq_some_iff.mp h
    obtain ⟨later, hrest, -⟩ := Option.map_eq_some_iff.mp h
    obtain ⟨k, r | result⟩ := u
    · cases hu
    · rw [← ih hrest]
      exact heldBy_ended k result rest

omit hI in
/-- However a start goes on, it leads the calls that its first loads lead. -/
theorem resumeStart_hands (w : World) (deadline : Nat) (warmUps : WarmUps) :
    Hands I (heldBy warmUps) (stateAfter (w.resumeStart deadline warmUps).2).held w
      (w.resumeStart deadline warmUps).1 := by
  have h := resumeStart_resumption w deadline warmUps
  generalize w.resumeStart deadline warmUps = resumed at h ⊢
  cases h with
  | waits => exact .refl I _ w
  | succeeds results hr =>
    rw [heldBy_of_results hr, foldl_spawnLoop]
    exact .still (fun _ => rfl) _
  | fails results hr =>
    rw [heldBy_of_results hr]
    exact .still (fun _ => rfl) _

/-! ## Loops -/

theorem pollIdle_hands (w : World) (loop : Loop) (hu : loop.update = none) :
    Hands I (Activity.loop loop).held (polled (.loop loop) (w.pollIdle loop).2).held w
      (w.pollIdle loop).1 := by
  have hidle : (Activity.loop loop).held = only loop.kind [] := by
    show only loop.kind _ = _
    rw [hu]
    rfl
  have hended : (fun _ => []) = only loop.kind [] := (funext (only_nil loop.kind)).symm
  have hbegin := beginRefreshing_hands hI (w.mapScope Scope.register) loop.kind false
  rw [hidle]
  unfold pollIdle
  split
  · show Hands I _ (fun _ => []) w w
    rw [hended]
    exact .refl I _ w
  · split
    · have hreg : Hands I (only loop.kind []) _ w _ := (Hands.still (fun _ => rfl) _).trans hbegin
      simp only
      split
      · rename_i hb
        rw [hb] at hreg
        exact hreg
      · rename_i hb
        rw [hb] at hreg
        exact hreg.trans (.still (fun _ => rfl) _)
    · rw [← hidle]
      exact .refl I _ w

theorem pollLoop_hands (w : World) (loop : Loop) :
    Hands I (Activity.loop loop).held (polled (.loop loop) (w.pollLoop loop).2).held w
      (w.pollLoop loop).1 := by
  rcases loop with ⟨k, period, dueAt, _ | r⟩
  · exact pollIdle_hands hI w ⟨k, period, dueAt, none⟩ rfl
  · have hpoll := pollRefreshing_hands hI w k r
    unfold pollLoop
    simp only
    split
    · rename_i hp
      rw [hp] at hpoll
      exact hpoll
    · rename_i hp
      rw [hp] at hpoll
      exact hpoll
    · rename_i w₁ _ hp
      rw [hp] at hpoll
      have hidle := pollIdle_hands hI (w₁.mapScope Scope.release) ⟨k, period, dueAt, none⟩ rfl
      have hended : Hands I (only k r.stage.held) (only k []) w (w₁.mapScope Scope.release) :=
        hpoll.trans (.still (fun _ => rfl) _)
      split <;>
      · rename_i hi
        rw [hi] at hidle
        exact hended.trans hidle

theorem dropLoop_hands (w : World) (loop : Loop) :
    Hands I (Activity.loop loop).held (fun _ => []) w (w.dropLoop loop) := by
  rcases loop with ⟨k, period, dueAt, _ | r⟩
  · show Hands I (only k []) _ w w
    rw [funext (only_nil k)]
    exact .refl I _ w
  · have hdrop := dropRefreshing_hands hI w k r
    rw [funext (only_nil k)] at hdrop
    exact hdrop.trans (.still (fun _ => rfl) _)

/-! ## Activities -/

omit hI in
/-- However a refresh goes on, it leads the call that its caller leads. -/
theorem held_resumeRefresh (k : CacheKind) (next : Refreshing k ⊕ Refreshed) :
    (stateAfter (resumeRefresh k next)).held = only k (warmUpOf next).held := by
  cases next with
  | inl r => rfl
  | inr refreshed => exact (funext (only_nil k)).symm

theorem resumeSearch_hands (w : World) (name : String)
    (next : Refreshing .namespaces ⊕ Refreshed) :
    Hands I (only .namespaces (warmUpOf next).held)
      (stateAfter (w.resumeSearch name next).2).held w (w.resumeSearch name next).1 := by
  unfold resumeSearch
  split
  · exact .refl I _ w
  · have hended : only .namespaces [] = fun _ => [] := funext (only_nil .namespaces)
    have hlook := lookUp_hands hI w name
    rw [hended] at hlook
    show Hands I (only .namespaces []) _ w _
    rw [hended]
    split
    · exact .refl I _ w
    · exact hlook

theorem beginSearch_hands (w : World) (name : String) :
    Hands I (fun _ => []) (stateAfter (w.beginSearch name).2).held w (w.beginSearch name).1 := by
  have hlook := lookUp_hands hI w name
  have hended : only .namespaces [] = fun _ => [] := funext (only_nil .namespaces)
  unfold beginSearch
  split
  · rename_i hl
    rw [hl, hended] at hlook
    exact hlook
  · rename_i w₁ hl
    rw [hl] at hlook
    have hbegin := beginRefreshing_hands hI w₁ .namespaces true
    rw [← hended]
    exact (hlook.trans hbegin).trans (resumeSearch_hands hI _ name _)

omit hI in
theorem resumePull_hands (w : World) (k : CacheKind) (pull : OpenPull k.Row) :
    Hands I (fun _ => []) (stateAfter (w.resumePull k pull).2).held w (w.resumePull k pull).1 := by
  unfold resumePull
  split <;> exact .still (fun _ => rfl) _

omit hI in
theorem held_lookAtSize (w : World) (k : CacheKind) (size deadline : Nat) :
    (stateAfter (w.lookAtSize k size deadline)).held = fun _ => [] := by
  unfold lookAtSize
  split
  · rfl
  · split <;> rfl

omit hI in
theorem held_resumeSleep (w : World) (readyAt : Nat) :
    (stateAfter (w.resumeSleep readyAt)).held = fun _ => [] := by
  unfold resumeSleep
  split <;> rfl

omit hI in
theorem held_resumeJoin (w : World) (task : Nat) :
    (stateAfter (w.resumeJoin task)).held = fun _ => [] := by
  unfold resumeJoin
  split <;> rfl

omit hI in
theorem held_resumeStop (w : World) (stop : Stop) :
    (stateAfter (w.resumeStop stop)).held = fun _ => [] := by
  unfold resumeStop
  split <;> rfl

omit hI in
/-- What waits on leads what it led. -/
theorem held_unlessWaiting {a : Activity} {next : Activity ⊕ Reply}
    (ha : a.held = fun _ => []) : (polled a (unlessWaiting next)).held = fun _ => [] := by
  cases next with
  | inl b => exact ha
  | inr reply => rfl

/-- A command takes up the calls that its activity leads. -/
theorem begin_hands (w : World) (c : Command) :
    Hands I (fun _ => []) (stateAfter (w.begin c).2).held w (w.begin c).1 := by
  have hrefresh : ∀ k thorough, Hands I (fun _ => [])
      (stateAfter (w.beginRefresh k thorough).2).held w (w.beginRefresh k thorough).1 := by
    intro k thorough
    have hbegin := beginRefreshing_hands hI w k thorough
    rw [funext (only_nil k), ← held_resumeRefresh k] at hbegin
    exact hbegin
  cases c with
  | refresh k thorough => exact hrefresh k thorough
  | forceUpdate k =>
    simp only [begin]
    split
    · exact hrefresh k true
    · exact .refl I _ w
  | start =>
    by_cases hs : w.manager.started = true
    · rw [begin_start_of_started hs]
      exact .refl I _ w
    · rw [begin_start_of_idle hs]
      have hmark : Hands I (fun _ => []) (fun _ => []) w w.marked := .still (fun _ => rfl) _
      exact (hmark.trans (beginWarmUps_hands hI _ _ _)).trans (resumeStart_hands _ _ _)
  | stop grace =>
    simp only [begin, beginStop]
    split
    · exact .still (fun _ => rfl) _
    · rw [held_resumeStop]
      exact .still (fun _ => rfl) _
  | findNamespace name => exact beginSearch_hands hI w name
  | pull k since firstLoad =>
    have hasked : ∀ store, Hands I (fun _ => []) (fun _ => []) w { w with store } :=
      fun store => .still (fun _ => rfl) _
    exact (hasked _).trans (resumePull_hands _ k _)
  | sleep span =>
    show Hands I _ (stateAfter (w.resumeSleep _)).held w w
    rw [held_resumeSleep]
    exact .refl I _ w
  | watchSize k size limit =>
    show Hands I _ (stateAfter (w.lookAtSize k size _)).held w w
    rw [held_lookAtSize]
    exact .refl I _ w
  | join task =>
    show Hands I _ (stateAfter (w.resumeJoin task)).held w w
    rw [held_resumeJoin]
    exact .refl I _ w

omit hI in
/-- First loads that do not move stand as before. -/
theorem pollWarmUps_unmoved {deadline : Nat} {warmUps : WarmUps}
    (h : (w.pollWarmUps deadline warmUps).2.2 = false) :
    (w.pollWarmUps deadline warmUps).2.1 = warmUps := by
  induction warmUps generalizing w with
  | nil => rfl
  | cons u rest ih =>
    have h : ((w.pollWarmUp u.1 deadline u.2).2.2 ||
        ((w.pollWarmUp u.1 deadline u.2).1.pollWarmUps deadline rest).2.2) = false := h
    obtain ⟨hu, hrest⟩ := Bool.or_eq_false_iff.mp h
    have hload : (w.pollWarmUp u.1 deadline u.2).2.1 = u.2 := by
      obtain ⟨k, r | result⟩ := u
      · obtain ⟨hp, hlt⟩ := pollWarmUp_unmoved hu
        have hnow := (pollRefreshing_touches w k r).now
        rcases hr : w.pollRefreshing k r with ⟨w₁, next⟩
        rw [hr] at hp hnow
        obtain rfl : next = none := hp
        have hlt : ¬ deadline ≤ w₁.now := by
          rw [hnow]
          exact Nat.not_le.mpr hlt
        simp only [pollWarmUp, hr, expire, if_neg hlt]
      · rfl
    show (⟨u.1, (w.pollWarmUp u.1 deadline u.2).2.1⟩ : (k : CacheKind) × WarmUp k) ::
      ((w.pollWarmUp u.1 deadline u.2).1.pollWarmUps deadline rest).2.1 = u :: rest
    rw [hload, ih hrest]

/-- An activity that is polled keeps the calls that it leads, or lays them down. -/
theorem poll_hands (w : World) (a : Activity) :
    Hands I a.held (polled a (w.poll a).2).held w (w.poll a).1 := by
  cases a with
  | refresh k r =>
    have hpoll := pollRefreshing_hands hI w k r
    rcases hp : w.pollRefreshing k r with ⟨w₁, _ | next⟩
    · rw [hp] at hpoll
      simp only [poll, hp]
      exact hpoll
    · rw [hp] at hpoll
      simp only [poll, hp]
      show Hands I _ (stateAfter (resumeRefresh k next)).held w w₁
      rw [held_resumeRefresh]
      exact hpoll
  | start deadline warmUps =>
    have hpoll := pollWarmUps_hands hI w deadline warmUps
    simp only [poll, pollStart]
    split
    · exact hpoll.trans (resumeStart_hands _ deadline _)
    · rename_i hmoved
      rw [pollWarmUps_unmoved (Bool.eq_false_iff.mpr hmoved)] at hpoll
      exact hpoll
  | findNamespace name r =>
    have hpoll := pollRefreshing_hands hI w .namespaces r
    simp only [poll]
    split
    · rename_i hp
      rw [hp] at hpoll
      exact hpoll
    · rename_i hp
      rw [hp] at hpoll
      exact hpoll.trans (resumeSearch_hands hI _ name _)
  | loop loop => exact pollLoop_hands hI w loop
  | watchSize k size deadline nextLook =>
    simp only [poll]
    split
    · show Hands I _ (stateAfter (w.lookAtSize k size deadline)).held w w
      rw [held_lookAtSize]
      exact .refl I _ w
    · exact .refl I _ w
  | pull k pull =>
    simp only [poll]
    rw [held_unlessWaiting rfl]
    unfold resumePull
    split <;> exact .still (fun _ => rfl) _
  | stop | sleep | join =>
    simp only [poll]
    rw [held_unlessWaiting rfl]
    exact .refl I _ w

/-- An activity that is dropped lays down the calls that it leads. -/
theorem drop_hands (w : World) (a : Activity) :
    Hands I a.held (fun _ => []) w (w.drop a) := by
  cases a with
  | refresh k r =>
    rw [← funext (only_nil k)]
    exact dropRefreshing_hands hI w k r
  | start deadline warmUps => exact dropWarmUps_hands hI w warmUps
  | findNamespace name r =>
    rw [← funext (only_nil .namespaces)]
    exact dropRefreshing_hands hI w .namespaces r
  | loop loop => exact dropLoop_hands hI w loop
  | pull k pull => exact .still (fun _ => rfl) _
  | stop | sleep | watchSize | join => exact .refl I _ w

/-! ## Tasks -/

omit hI

/-- New loops lead no call. -/
theorem held_loopTasks (w : World) (id : Nat) (kinds : List CacheKind) (l : CacheKind) :
    ((w.loopTasks id kinds).flatMap fun t => t.state.held l) = [] := by
  induction kinds generalizing id with
  | nil => rfl
  | cons k rest ih =>
    rw [loopTasks, List.flatMap_cons, ih, List.append_nil]
    exact only_nil k l

theorem Grows.held_eq {kinds : List CacheKind} (hg : w.Grows kinds w') (l : CacheKind) :
    w'.held l = w.held l := by
  unfold held
  rw [hg.tasks, List.flatMap_append, held_loopTasks, List.append_nil]

/-- The other tasks keep their calls when one that runs is put into another state. -/
theorem held_setTask {id : Nat} {st st' : TaskState} (hn : w.Numbered)
    (h : w.taskState? id = some st) :
    ∃ others : CacheKind → List Nat, ∀ l, (w.held l).Perm (st.held l ++ others l) ∧
      ((w.setTask id st').held l).Perm (st'.held l ++ others l) := by
  obtain ⟨before, after, htasks, hset⟩ := hn.split_setTask h st'
  have hheld : ∀ (st : TaskState) (l : CacheKind),
      ((before ++ ⟨id, st⟩ :: after).flatMap fun t => t.state.held l).Perm
        (st.held l ++ (before ++ after).flatMap fun t => t.state.held l) := by
    intro st l
    simp only [List.flatMap_append, List.flatMap_cons]
    exact List.perm_append_comm_assoc _ _ _
  refine ⟨fun l => (before ++ after).flatMap fun t => t.state.held l, fun l => ⟨?_, ?_⟩⟩
  · unfold held
    rw [htasks]
    exact hheld st l
  · unfold held
    rw [hset]
    exact hheld st' l

/-- A task that runs hands its calls on while the other tasks hold what they held. -/
theorem Bears.handedOn (hI : Lasting I) {id : Nat} {a : Activity} {held' : CacheKind → List Nat}
    (h : w.Bears I w.held) (hn : w.Numbered) (ht : w.taskState? id = some (.running a))
    {kinds : List CacheKind} (hg : w.Grows kinds w') (hh : Hands I a.held held' w w')
    (st : TaskState) :
    ∃ others : CacheKind → List Nat, w'.Bears I (fun l => held' l ++ others l) ∧
      ∀ l, (w'.held l).Perm (a.held l ++ others l) ∧
        ((w'.setTask id st).held l).Perm (st.held l ++ others l) := by
  obtain ⟨others, hperm⟩ := @held_setTask w' id (.running a) st (hn.grow hg)
    (taskState?_kept hg.tasks ht)
  refine ⟨others, hh others fun l => hI.perm ?_ (h l), hperm⟩
  rw [← hg.held_eq l]
  exact (hperm l).1

theorem Bears.setTask (hI : Lasting I) {id : Nat} {a : Activity} {st : TaskState}
    (h : w.Bears I w.held) (hn : w.Numbered) (ht : w.taskState? id = some (.running a))
    {kinds : List CacheKind} (hg : w.Grows kinds w') (hh : Hands I a.held st.held w w') :
    (w'.setTask id st).Bears I (w'.setTask id st).held := by
  obtain ⟨_, hbears, hperm⟩ := h.handedOn hI hn ht hg hh st
  exact fun k => hI.perm (hperm k).2.symm (hbears k)

theorem Bears.abort (hI : Lasting I) {id : Nat} {a : Activity} (h : w.Bears I w.held)
    (hn : w.Numbered) (ht : w.taskState? id = some (.running a)) :
    (w.abort id).Bears I (w.abort id).held := by
  rw [abort_of_running ht]
  obtain ⟨htasks, hnext⟩ := drop_tasks w a
  exact h.setTask hI hn ht (.of_eq htasks hnext) (drop_hands hI w a)

end World

/-- Changing one cache after another keeps what each change keeps. -/
theorem Manager.foldl_withCache {P : (k : CacheKind) → Cache k → Prop}
    {f : (k : CacheKind) → Cache k → Cache k} (hf : ∀ k c, P k c → P k (f k c))
    (kinds : List CacheKind) {m : Manager} (h : ∀ k, P k (m.cache k)) :
    ∀ k, P k ((kinds.foldl (fun m k => m.withCache k (f k (m.cache k))) m).cache k) := by
  induction kinds generalizing m with
  | nil => exact h
  | cons k rest ih =>
    refine ih fun l => ?_
    by_cases hl : l = k
    · subst hl
      show P l ((m.caches.set l _).get l)
      rw [ByKind.get_set_self]
      exact hf l _ (h l)
    · show P l ((m.caches.set k _).get l)
      rw [ByKind.get_set_of_ne _ _ hl]
      exact h l

/-! ## Courses -/

namespace Course

open World

variable {I : (k : CacheKind) → Cache k → List Nat → Prop} {s s' : Course}

/-- Every step keeps what lasts. -/
theorem step_lasting (hI : Lasting I) (hn : s.Numbered) (h : s.world.Bears I s.world.held)
    (hs : Step s s') : s'.world.Bears I s'.world.held := by
  cases hs with
  | asked c w next kinds hb hg hk =>
    have hh := begin_hands hI s.world c
    rw [hb] at hh
    intro k
    have hheld : (w.addTask (stateAfter next)).1.held k =
        s.world.held k ++ (stateAfter next).held k := by
      rw [← hg.held_eq k]
      simp [World.held, addTask]
    rw [hheld]
    exact hI.perm List.perm_append_comm (hh s.world.held h k)
  | moved task a w next kinds ht hp hg hk =>
    have hh := poll_hands hI s.world a
    rw [hp] at hh
    exact h.setTask hI hn.world ht hg hh
  | waited task a w ht hp hg =>
    have hh := poll_hands hI s.world a
    rw [hp] at hh
    obtain ⟨_, hbears, hperm⟩ := h.handedOn hI hn.world ht hg hh (.running a)
    exact fun k => hI.perm (hperm k).1.symm (hbears k)
  | dropped task a ht =>
    have habort := h.abort hI hn.world ht
    rwa [abort_of_running ht] at habort
  | answered task a f ht =>
    refine h.setTask hI hn.world ht (.of_eq rfl rfl) ?_
    show Hands I a.held (a.mapPulls f).held _ _
    rw [Activity.held_mapPulls]
    exact .refl I _ _
  | opened requests =>
    obtain ⟨⟨o, opened, heq⟩, -⟩ := s.world.manager.openAll_spec requests
    intro k
    show I k ((s.world.manager.openAll requests).1.cache k) _
    rw [heq]
    exact h k
  | cleared =>
    exact Manager.foldl_withCache (P := fun k c => I k c (s.world.held k)) (fun _ _ => hI.clear) _ h
  | closed =>
    have hloops : (s.world.tasks.foldl endLoop s.world).Numbered ∧
        (s.world.tasks.foldl endLoop s.world).Bears I
          (s.world.tasks.foldl endLoop s.world).held := by
      refine @endLoops_induction s.world (fun w => w.Numbered ∧ w.Bears I w.held) hn.world ?_
        ⟨hn.world, h⟩
      rintro w id loop ⟨hw, hbears⟩ ht
      refine ⟨?_, hbears.abort hI hw ht⟩
      rw [abort_of_running ht]
      exact (hw.drop _).setTask _ _
    exact Manager.foldl_withCache
      (P := fun k c => I k c ((s.world.tasks.foldl endLoop s.world).held k))
      (fun _ _ => hI.close) _ hloops.2
  | outside | enrolled | withdrawn | idle => exact h

/-- Whatever steps are made, what lasts holds of the caches and of the calls that the tasks hold. -/
theorem run_lasting (hI : Lasting I) {manager : Manager} (hm : ∀ k, I k (manager.cache k) [])
    (store : Store) (origin : Instant) (now : Nat) (actions : List Action) :
    ((outset manager store origin now).run actions).world.Bears I
      ((outset manager store origin now).run actions).world.held := by
  have key : ((outset manager store origin now).run actions).Numbered ∧
      ((outset manager store origin now).run actions).world.Bears I
        ((outset manager store origin now).run actions).world.held := by
    refine run_invariant (P := fun s => s.Numbered ∧ s.world.Bears I s.world.held) ?_
      ⟨outset_numbered manager store origin now, hm⟩ actions
    rintro s a ⟨hn, h⟩
    exact ⟨hn.step (act_step s a), step_lasting hI hn h (act_step s a)⟩
  exact key.2

end Course

end GovernanceCache
