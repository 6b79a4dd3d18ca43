import GovernanceCache.Proofs.Chronicle
import GovernanceCache.Scope.Holders
import Mathlib.Data.List.Nodup

/-!
# How stops and waits end

Around a scope, guards of operations come and go, signals are waited for, the clock moves, and the
owner may give the scope up. After each step everything that can end does so. The steps alone tell
how the first stop ends: in the first settled state without live guards or past its deadline. They
tell as well when the waits for the signal end.

1. `Tended` ties the holders to the steps, in settled states; `Poised` does while things settle.
   Every step leads from the one to the other (`Tended.perform`), and settling leads back
   (`Poised.settle`).
2. A stop looks at the count of operations only if it was noticed. It misses nothing: whenever one
   waits without a new notice, some guard is live (`Poised.awake`).
-/

namespace GovernanceCache.Scope

/-- What is done around a scope. -/
inductive Action where
  | signal (name : String)
  /-- Begins to wait for a signal. -/
  | wait (name signal : String)
  | register (guard : String)
  | release (guard : String)
  | stop (name : String) (grace : Nat)
  | sleep (span : Nat)
  /-- The owner gives the scope up. -/
  | disown

namespace Holders

/-- The step can be taken: only an owner can make signals, register and stop. -/
def admits (h : Holders) : Action → Bool
  | .signal _ => h.owned
  | .wait name signal => h.signals.contains signal && !h.waits.contains name
  | .register guard => h.owned && !h.guards.contains guard
  | .release guard => h.guards.contains guard
  | .stop _ _ => h.owned
  | .sleep _ => true
  | .disown => h.owned

/-- Takes a step; tells how a stop ended that did not have to wait. -/
def perform (h : Holders) : Action → Holders × List (String × Bool)
  | .signal name => (h.signal name, [])
  | .wait name _ => (h.wait name, [])
  | .register guard => (h.register guard, [])
  | .release guard => (h.release guard, [])
  | .stop name grace => h.stop name grace
  | .sleep span => (h.sleep span, [])
  | .disown => (h.disown, [])

end Holders

/-- A step, and what there was when everything had settled after it. -/
structure Settled where
  action : Action
  /-- How a stop ended that did not have to wait. -/
  atOnce : List (String × Bool)
  /-- How stops ended that waited. -/
  ended : List (String × Bool)
  holders : Holders

/-- The holders of a scope and the steps taken, the newest first. -/
structure Course where
  holders : Holders := {}
  record : List Settled := []

namespace Course

/-- The steps taken, the newest first. -/
def taken (s : Course) : List Action := s.record.map Settled.action

/-- The course after one more step, if it can be taken. -/
def act (s : Course) (action : Action) : Course :=
  if s.holders.admits action then
    let (poised, atOnce) := s.holders.perform action
    let (holders, ended) := poised.settle
    { holders, record := { action, atOnce, ended, holders } :: s.record }
  else s

/-- The course from the outset. -/
def run (actions : List Action) : Course := actions.foldl act {}

end Course

/-! ## What the steps tell -/

/-- The guards that are live. -/
def guards : List Action → List String
  | [] => []
  | .register guard :: earlier => guard :: guards earlier
  | .release guard :: earlier => (guards earlier).erase guard
  | _ :: earlier => guards earlier

/-- What the clock shows. -/
def clock : List Action → Nat
  | [] => 0
  | .sleep span :: earlier => Clock.wake (clock earlier) span
  | _ :: earlier => clock earlier

/-- A stop has begun. -/
def isStopped (steps : List Action) : Bool :=
  steps.any fun
    | .stop .. => true
    | _ => false

/-- The owner has given the scope up. -/
def isDisowned (steps : List Action) : Bool :=
  steps.any fun
    | .disown => true
    | _ => false

/-- The stop waits when everything settles after the last step: it is the first one and began just
now, or in each settled state since it began a guard was live and its time was not over. -/
inductive Awaits (name : String) (deadline : Nat) : List Action → Prop
  | begins {earlier : List Action} {grace : Nat} (first : isStopped earlier = false)
    (ends : deadline = clock earlier + grace) : Awaits name deadline (.stop name grace :: earlier)
  | goesOn {earlier : List Action} {step : Action} (waited : Awaits name deadline earlier)
    (live : guards earlier ≠ []) (early : clock earlier < deadline) :
    Awaits name deadline (step :: earlier)

/-- The stop waits on in the settled state. -/
def Runs (name : String) (deadline : Nat) (steps : List Action) : Prop :=
  Awaits name deadline steps ∧ guards steps ≠ [] ∧ clock steps < deadline

/-- A stop has begun, or nothing keeps the scope: no owner, no guard, and no stop that runs. -/
def IsOver (steps : List Action) : Prop :=
  isStopped steps = true ∨
    isDisowned steps = true ∧ guards steps = [] ∧ ∀ name deadline, ¬ Runs name deadline steps

/-- What there is in a settled state, after the given steps. -/
structure EndsWell (earlier : List Action) (e : Settled) : Prop where
  owned : e.holders.owned = !isDisowned (e.action :: earlier)
  live : ∀ guard, guard ∈ e.holders.guards ↔ guard ∈ guards (e.action :: earlier)
  /-- The operations are counted. -/
  counted : e.holders.scope.active = (guards (e.action :: earlier)).length
  distinct : (guards (e.action :: earlier)).Nodup
  /-- What is released was counted. -/
  released : ∀ guard, e.action = .release guard →
    guard ∈ guards earlier ∧ e.holders.scope.active + 1 = (guards earlier).length
  signalled : e.holders.scope.signalled = isStopped (e.action :: earlier)
  succeeded : ∀ name, (name, true) ∈ e.ended ↔
    ∃ deadline, Awaits name deadline (e.action :: earlier) ∧ guards (e.action :: earlier) = []
  failed : ∀ name, (name, false) ∈ e.ended ↔
    ∃ deadline, Awaits name deadline (e.action :: earlier) ∧
      guards (e.action :: earlier) ≠ [] ∧ deadline ≤ clock (e.action :: earlier)
  once : e.ended.length ≤ 1
  /-- Every stop but the first one succeeds at once. -/
  atOnce : ∀ name grace, e.action = .stop name grace →
    e.atOnce = if isStopped earlier then [(name, true)] else []
  /-- Those wait or have waited who were told to. -/
  waited : ∀ name, name ∈ e.holders.waits ↔ ∃ signal, .wait name signal ∈ e.action :: earlier
  waits : ∀ (name : String) (ended : Bool), e.holders.waits[name]? = some ended →
    (ended = true ↔ IsOver (e.action :: earlier))

variable {steps : List Action} {action : Action} {h : Holders} {name name' : String}
  {deadline deadline' : Nat}

theorem isStopped_of_awaits (ha : Awaits name deadline steps) : isStopped steps = true := by
  induction ha with
  | begins => rfl
  | goesOn _ _ _ ih =>
    unfold isStopped
    rw [List.any_cons, Bool.or_eq_true]
    exact .inr ih

theorem awaits_cons (hstep : ∀ name grace, action ≠ .stop name grace) :
    Awaits name deadline (action :: steps) ↔ Runs name deadline steps := by
  constructor
  · rintro (_ | ⟨hwaited, hlive, hearly⟩)
    · exact absurd rfl (hstep _ _)
    · exact ⟨hwaited, hlive, hearly⟩
  · rintro ⟨hwaited, hlive, hearly⟩
    exact .goesOn hwaited hlive hearly

theorem awaits_stop {grace : Nat} : Awaits name deadline (.stop name' grace :: steps) ↔
    Runs name deadline steps ∨
      isStopped steps = false ∧ name = name' ∧ deadline = clock steps + grace := by
  constructor
  · rintro (⟨hfirst, hends⟩ | ⟨hwaited, hlive, hearly⟩)
    · exact .inr ⟨hfirst, rfl, hends⟩
    · exact .inl ⟨hwaited, hlive, hearly⟩
  · rintro (⟨hwaited, hlive, hearly⟩ | ⟨hfirst, rfl, hends⟩)
    · exact .goesOn hwaited hlive hearly
    · exact .begins hfirst hends

/-! ## The holders and the steps -/

/-- What holds whether or not everything has settled. -/
structure Kept (steps : List Action) (h : Holders) : Prop where
  owned : h.owned = !isDisowned steps
  now : h.now = clock steps
  signalled : h.scope.signalled = isStopped steps
  distinct : (guards steps).Nodup
  live : ∀ guard, guard ∈ h.guards ↔ guard ∈ guards steps
  counted : h.scope.active = (guards steps).length
  waited : ∀ name, name ∈ h.waits ↔ ∃ signal, .wait name signal ∈ steps
  few : h.stops.length ≤ 1

/-- What holds after a step, before anything has ended. -/
structure Poised (steps : List Action) (h : Holders) : Prop extends Kept steps h where
  awaits : ∀ name deadline, Awaits name deadline steps ↔
    ∃ w ∈ h.stops, w.name = name ∧ w.stop.deadline = deadline
  /-- No notice is missed. -/
  awake : ∀ w ∈ h.stops, w.seen = some h.notices → guards steps ≠ []
  finished : ∀ name : String, h.waits[name]? = some true → IsOver steps

/-- What holds in settled states. -/
structure Tended (steps : List Action) (h : Holders) : Prop extends Kept steps h where
  runs : ∀ name deadline, Runs name deadline steps ↔
    ∃ w ∈ h.stops, w.name = name ∧ w.stop.deadline = deadline
  looked : ∀ w ∈ h.stops, w.seen = some h.notices
  waits : ∀ (name : String) (ended : Bool), h.waits[name]? = some ended →
    (ended = true ↔ IsOver steps)

namespace Kept

theorem isEmpty_guards (hk : Kept steps h) : h.guards.isEmpty = true ↔ guards steps = [] := by
  rw [Std.ExtTreeSet.isEmpty_iff, Std.ExtTreeSet.eq_empty_iff_forall_not_mem,
    List.eq_nil_iff_forall_not_mem]
  exact forall_congr' fun guard => not_congr (hk.live guard)

theorem active_eq_zero (hk : Kept steps h) : h.scope.active = 0 ↔ guards steps = [] := by
  rw [hk.counted, List.length_eq_zero_iff]

theorem endWaits (hk : Kept steps h) : Kept steps h.endWaits := by
  unfold Holders.endWaits
  split
  · exact { hk with waited := fun name => Std.ExtTreeMap.mem_map.trans (hk.waited name) }
  · exact hk

/-- The waits can end if the steps say so. -/
theorem isOver_iff (hk : Kept steps h) (hruns : ∀ name deadline, Runs name deadline steps ↔
    ∃ w ∈ h.stops, w.name = name ∧ w.stop.deadline = deadline) :
    (h.scope.signalled || h.isLost) = true ↔ IsOver steps := by
  have hempty : h.stops.isEmpty = true ↔ ∀ name deadline, ¬ Runs name deadline steps := by
    rw [List.isEmpty_iff, List.eq_nil_iff_forall_not_mem]
    constructor
    · intro hnone name deadline hr
      obtain ⟨w, hw, -⟩ := (hruns name deadline).mp hr
      exact hnone w hw
    · intro hnone w hw
      exact hnone _ _ ((hruns _ _).mpr ⟨w, hw, rfl, rfl⟩)
  unfold IsOver Holders.isLost
  rw [Bool.or_eq_true, Bool.and_eq_true, Bool.and_eq_true, hempty, hk.isEmpty_guards,
    hk.signalled, hk.owned, Bool.not_not, and_assoc, and_comm (a := ∀ _ _, _)]

end Kept

/-! ## Everything settles -/

/-- How a stop that waits ends in the settled state, if it ends there. -/
def ending? (steps : List Action) (deadline : Nat) : Option Bool :=
  if guards steps = [] then some true
  else if deadline ≤ clock steps then some false
  else none

theorem ending?_eq_none :
    ending? steps deadline = none ↔ guards steps ≠ [] ∧ clock steps < deadline := by
  unfold ending?
  by_cases hg : guards steps = [] <;> simp [hg]

theorem ending?_eq_true : ending? steps deadline = some true ↔ guards steps = [] := by
  unfold ending?
  by_cases hg : guards steps = [] <;> simp [hg]

theorem ending?_eq_false :
    ending? steps deadline = some false ↔ guards steps ≠ [] ∧ deadline ≤ clock steps := by
  unfold ending?
  by_cases hg : guards steps = [] <;> simp [hg]

namespace Poised

/-- How a stop ends, if it ends now: the notices do not matter. -/
theorem resultOf_eq (hp : Poised steps h) {w : Waiter} (hw : w ∈ h.stops) :
    h.resultOf w = ending? steps w.stop.deadline := by
  unfold Holders.resultOf Stop.result? ending?
  simp only [hp.active_eq_zero, hp.now]
  split
  · rename_i hseen
    rw [if_neg (hp.awake w hw hseen)]
  · rfl

theorem mem_endedStops (hp : Poised steps h) {success : Bool} :
    (name, success) ∈ h.endedStops ↔
      ∃ deadline, Awaits name deadline steps ∧ ending? steps deadline = some success := by
  unfold Holders.endedStops
  rw [List.mem_filterMap]
  constructor
  · rintro ⟨w, hw, hended⟩
    obtain ⟨result, hresult, heq⟩ := Option.map_eq_some_iff.mp hended
    obtain ⟨rfl, rfl⟩ := Prod.mk.inj heq
    exact ⟨w.stop.deadline, (hp.awaits _ _).mpr ⟨w, hw, rfl, rfl⟩, hp.resultOf_eq hw ▸ hresult⟩
  · rintro ⟨deadline, hwaits, hresult⟩
    obtain ⟨w, hw, rfl, rfl⟩ := (hp.awaits _ _).mp hwaits
    exact ⟨w, hw, by rw [hp.resultOf_eq hw, hresult]; rfl⟩

theorem runs_iff (hp : Poised steps h) : Runs name deadline steps ↔
    ∃ w ∈ h.withoutEndedStops.stops, w.name = name ∧ w.stop.deadline = deadline := by
  have hnone : ∀ w ∈ h.stops, (h.resultOf w).isNone = true ↔
      guards steps ≠ [] ∧ clock steps < w.stop.deadline := by
    intro w hw
    rw [hp.resultOf_eq hw, Option.isNone_iff_eq_none, ending?_eq_none]
  unfold Runs Holders.withoutEndedStops
  simp only [hp.awaits, List.mem_map, List.mem_filter]
  constructor
  · rintro ⟨⟨w, hw, rfl, rfl⟩, hruns⟩
    exact ⟨_, ⟨w, ⟨hw, (hnone w hw).mpr hruns⟩, rfl⟩, rfl, rfl⟩
  · rintro ⟨_, ⟨w, ⟨hw, hres⟩, rfl⟩, rfl, rfl⟩
    exact ⟨⟨w, hw, rfl, rfl⟩, (hnone w hw).mp hres⟩

theorem settle (hp : Poised steps h) : Tended steps h.settle.1 := by
  have hkept : Kept steps h.withoutEndedStops :=
    { hp.toKept with
      few := by
        unfold Holders.withoutEndedStops
        rw [List.length_map]
        exact Nat.le_trans (List.length_filter_le _ _) hp.few }
  have hover := hkept.isOver_iff fun name deadline => hp.runs_iff
  have hstops : h.settle.1.stops = h.withoutEndedStops.stops := by
    show h.withoutEndedStops.endWaits.stops = _
    unfold Holders.endWaits
    split <;> rfl
  have hnotices : h.settle.1.notices = h.notices := by
    show h.withoutEndedStops.endWaits.notices = _
    unfold Holders.endWaits
    split <;> rfl
  refine ⟨hkept.endWaits, ?_, ?_, ?_⟩
  · intro name deadline
    rw [hstops]
    exact hp.runs_iff
  · intro w hw
    rw [hstops] at hw
    rw [hnotices]
    obtain ⟨w, -, rfl⟩ := List.mem_map.mp hw
    rfl
  · intro name ended hended
    have hended : h.withoutEndedStops.endWaits.waits[name]? = some ended := hended
    unfold Holders.endWaits at hended
    split at hended
    · rename_i hends
      rw [Std.ExtTreeMap.getElem?_map] at hended
      obtain ⟨-, -, rfl⟩ := Option.map_eq_some_iff.mp hended
      exact ⟨fun _ => hover.mp hends, fun _ => rfl⟩
    · rename_i hends
      refine ⟨?_, fun ho => absurd (hover.mpr ho) hends⟩
      rintro rfl
      exact hp.finished name hended

end Poised

/-! ## One step -/

/-- What is over stays so. -/
theorem isOver_cons (hk : Kept steps h) (hadm : h.admits action = true) (ho : IsOver steps) :
    IsOver (action :: steps) := by
  have hstopped : isStopped steps = true → isStopped (action :: steps) = true := fun hs => by
    unfold isStopped
    rw [List.any_cons, Bool.or_eq_true]
    exact .inr hs
  rcases ho with hs | ⟨hgone, hnone, hruns⟩
  · exact .inl (hstopped hs)
  · by_cases hs : isStopped steps = true
    · exact .inl (hstopped hs)
    · have howned : h.owned = false := by rw [hk.owned, hgone]; rfl
      have hfree : ∀ guard, guard ∉ h.guards := by
        intro guard hmem
        rw [hk.live, hnone] at hmem
        cases hmem
      -- no owner is left to register or stop, and no guard to be released
      cases action with
      | wait name signal =>
        refine .inr ⟨hgone, hnone, fun name deadline hr => hruns name deadline ?_⟩
        exact (awaits_cons fun _ _ => by nofun).mp hr.1
      | sleep span =>
        refine .inr ⟨hgone, hnone, fun name deadline hr => hruns name deadline ?_⟩
        exact (awaits_cons fun _ _ => by nofun).mp hr.1
      | release guard => exact absurd (Std.ExtTreeSet.contains_iff_mem.mp hadm) (hfree guard)
      | register guard =>
        have hadm : (h.owned && !h.guards.contains guard) = true := hadm
        rw [howned] at hadm
        cases hadm
      | signal name => exact absurd (howned.symm.trans hadm) nofun
      | stop name grace => exact absurd (howned.symm.trans hadm) nofun
      | disown => exact absurd (howned.symm.trans hadm) nofun

/-- Nobody else waits after another step. -/
theorem Kept.waited_cons (hk : Kept steps h) (hstep : ∀ name signal, action ≠ .wait name signal)
    (name : String) : name ∈ h.waits ↔ ∃ signal, .wait name signal ∈ action :: steps := by
  rw [hk.waited]
  refine exists_congr fun signal => ?_
  rw [List.mem_cons]
  exact (or_iff_right fun he => hstep name signal he.symm).symm

namespace Tended

/-- A step that begins no stop and no wait leaves those that there are as they are. -/
theorem poised (ht : Tended steps h) (hadm : h.admits action = true) {h' : Holders}
    (hk : Kept (action :: steps) h') (hstop : ∀ name grace, action ≠ .stop name grace)
    (hstops : h'.stops = h.stops)
    (hover : ∀ name : String, h'.waits[name]? = some true → h.waits[name]? = some true)
    (hawake : ∀ w ∈ h.stops, guards steps ≠ [] → h.notices = h'.notices →
      guards (action :: steps) ≠ []) : Poised (action :: steps) h' where
  toKept := hk
  awaits name deadline := by
    rw [awaits_cons hstop, ht.runs, hstops]
  awake w hw hseen := by
    rw [hstops] at hw
    have hruns := (ht.runs _ _).mpr ⟨w, hw, rfl, rfl⟩
    exact hawake w hw hruns.2.1 (Option.some.inj ((ht.looked w hw).symm.trans hseen))
  finished name hended :=
    isOver_cons ht.toKept hadm ((ht.waits name true (hover name hended)).mp rfl)

/-- Only the first stop has to wait. -/
theorem stop_eq (ht : Tended steps h) (name : String) (grace : Nat) :
    h.stop name grace =
      if isStopped steps then (h, [(name, true)])
      else ({ h with
        scope := { h.scope with signalled := true }
        stops := [{ name, stop := { deadline := h.now + grace } }] }, []) := by
  unfold Holders.stop Scope.beginStop
  rw [ht.signalled]
  rcases hs : isStopped steps with _ | _
  · have hnone : h.stops = [] := by
      rw [List.eq_nil_iff_forall_not_mem]
      intro w hw
      have hruns := (ht.runs _ _).mpr ⟨w, hw, rfl, rfl⟩
      rw [isStopped_of_awaits hruns.1] at hs
      cases hs
    simp only [hnone]
    rfl
  · rfl

theorem stop (ht : Tended steps h) (name : String) (grace : Nat) :
    Poised (.stop name grace :: steps) (h.stop name grace).1 := by
  have hwaited : ∀ other : String, other ∈ h.waits ↔
      ∃ signal, .wait other signal ∈ .stop name grace :: steps :=
    ht.waited_cons fun _ _ => nofun
  have hover : ∀ name' : String, h.waits[name']? = some true →
      IsOver (.stop name grace :: steps) := fun _ _ => .inl rfl
  rw [ht.stop_eq]
  rcases hs : isStopped steps with _ | _
  · have hnone : ∀ name' deadline, ¬ Runs name' deadline steps := fun name' deadline hr => by
      rw [isStopped_of_awaits hr.1] at hs
      cases hs
    refine ⟨{ ht.toKept with signalled := rfl, waited := hwaited, few := Nat.le_refl 1 }, ?_, ?_,
      hover⟩
    · intro name' deadline
      rw [awaits_stop, or_iff_right (hnone name' deadline)]
      simp only [hs, true_and, Bool.false_eq_true, if_false, List.mem_singleton, exists_eq_left,
        ht.now]
      exact and_congr eq_comm eq_comm
    · intro w hw hseen
      rw [List.mem_singleton.mp hw] at hseen
      cases hseen
  · refine ⟨{ ht.toKept with signalled := ht.signalled.trans hs, waited := hwaited }, ?_, ?_, hover⟩
    · intro name' deadline
      rw [awaits_stop, hs, ht.runs]
      exact or_iff_left nofun
    · intro w hw hseen
      exact ((ht.runs _ _).mpr ⟨w, hw, rfl, rfl⟩).2.1

theorem wait (ht : Tended steps h) {name signal : String}
    (hadm : h.admits (.wait name signal) = true) :
    Poised (.wait name signal :: steps) (h.wait name) := by
  refine ht.poised hadm ?_ (fun _ _ => nofun) rfl ?_ fun _ _ hlive _ => hlive
  · refine { ht.toKept with waited := fun name' => ?_ }
    show name' ∈ h.waits.insert name false ↔ _
    rw [Std.ExtTreeMap.mem_insert, Std.compare_eq_iff_eq, ht.waited]
    simp only [List.mem_cons, Action.wait.injEq, exists_or, exists_and_left, exists_eq]
    rw [and_true, eq_comm]
  · intro name' hended
    have hended : (h.waits.insert name false)[name']? = some true := hended
    rw [Std.ExtTreeMap.getElem?_insert] at hended
    split at hended
    · cases hended
    · exact hended

theorem register (ht : Tended steps h) {guard : String}
    (hadm : h.admits (.register guard) = true) :
    Poised (.register guard :: steps) (h.register guard) := by
  have hfree : (h.owned && !h.guards.contains guard) = true := hadm
  rw [Bool.and_eq_true, Bool.not_eq_true'] at hfree
  have hnew : guard ∉ guards steps := by
    rw [← ht.live, ← Std.ExtTreeSet.contains_iff_mem, hfree.2]
    nofun
  unfold Holders.register
  rw [hfree.2, if_neg nofun]
  refine ht.poised hadm ?_ (fun _ _ => nofun) rfl (fun _ he => he) fun _ _ _ _ => nofun
  exact { ht.toKept with
    distinct := List.nodup_cons.mpr ⟨hnew, ht.distinct⟩
    live := fun other => by
      show other ∈ h.guards.insert guard ↔ other ∈ guard :: guards steps
      rw [Std.ExtTreeSet.mem_insert, Std.compare_eq_iff_eq, List.mem_cons, ht.live, eq_comm]
    counted := congrArg Nat.succ ht.counted
    waited := ht.waited_cons fun _ _ => by nofun }

theorem release (ht : Tended steps h) {guard : String}
    (hadm : h.admits (.release guard) = true) :
    Poised (.release guard :: steps) (h.release guard) := by
  have hlength : ((guards steps).erase guard).length = (guards steps).length - 1 :=
    List.length_erase_of_mem ((ht.live guard).mp (Std.ExtTreeSet.contains_iff_mem.mp hadm))
  have hcontains : h.guards.contains guard = true := hadm
  unfold Holders.release
  rw [if_pos hcontains]
  refine ht.poised hadm ?_ (fun _ _ => nofun) rfl (fun _ he => he) ?_
  · exact { ht.toKept with
      distinct := ht.distinct.erase guard
      live := fun other => by
        show other ∈ h.guards.erase guard ↔ other ∈ (guards steps).erase guard
        rw [Std.ExtTreeSet.mem_erase, ne_eq, Std.compare_eq_iff_eq, ht.distinct.mem_erase_iff,
          ht.live, ne_comm]
      counted := by
        show h.scope.active - 1 = ((guards steps).erase guard).length
        rw [hlength, ht.counted]
      waited := ht.waited_cons fun _ _ => by nofun }
  · -- the last guard does not go without notice
    intro w hw hlive hsame
    have hsame : h.notices = if h.scope.active = 1 then h.notices + 1 else h.notices := hsame
    have hmore : h.scope.active ≠ 1 := by
      intro hone
      rw [if_pos hone] at hsame
      omega
    show (guards steps).erase guard ≠ []
    rw [ne_eq, ← List.length_eq_zero_iff, hlength]
    rw [ht.counted] at hmore
    have := List.length_pos_iff.mpr hlive
    omega

/-- Whatever the step, it leaves everything poised to settle. -/
theorem perform (ht : Tended steps h) (hadm : h.admits action = true) :
    Poised (action :: steps) (h.perform action).1 := by
  cases action with
  | signal name =>
    refine ht.poised hadm ?_ (fun _ _ => nofun) rfl (fun _ he => he) fun _ _ hlive _ => hlive
    exact { ht.toKept with waited := ht.waited_cons fun _ _ => by nofun }
  | wait name signal => exact ht.wait hadm
  | register guard => exact ht.register hadm
  | release guard => exact ht.release hadm
  | stop name grace => exact ht.stop name grace
  | sleep span =>
    refine ht.poised hadm ?_ (fun _ _ => nofun) rfl (fun _ he => he) fun _ _ hlive _ => hlive
    exact { ht.toKept with
      now := congrArg (Clock.wake · span) ht.now
      waited := ht.waited_cons fun _ _ => by nofun }
  | disown =>
    refine ht.poised hadm ?_ (fun _ _ => nofun) rfl (fun _ he => he) fun _ _ hlive _ => hlive
    exact { ht.toKept with
      owned := rfl
      waited := ht.waited_cons fun _ _ => by nofun }

theorem endsWell (ht : Tended steps h) (hadm : h.admits action = true) :
    EndsWell steps
      { action
        atOnce := (h.perform action).2
        ended := (h.perform action).1.settle.2
        holders := (h.perform action).1.settle.1 } := by
  have hp := ht.perform hadm
  have hs := hp.settle
  refine ⟨hs.owned, hs.live, hs.counted, hs.distinct, ?_, hs.signalled, ?_, ?_, ?_, ?_, hs.waited,
    hs.waits⟩
  · rintro guard rfl
    have hmem : guard ∈ guards steps := (ht.live guard).mp (Std.ExtTreeSet.contains_iff_mem.mp hadm)
    refine ⟨hmem, ?_⟩
    have hcounted : (h.perform (.release guard)).1.settle.1.scope.active =
      ((guards steps).erase guard).length := hs.counted
    have hpos := List.length_pos_iff_exists_mem.mpr ⟨guard, hmem⟩
    rw [List.length_erase_of_mem hmem] at hcounted
    show (h.perform (.release guard)).1.settle.1.scope.active + 1 = _
    omega
  · exact fun name => hp.mem_endedStops.trans
      (exists_congr fun deadline => and_congr_right fun _ => ending?_eq_true)
  · exact fun name => hp.mem_endedStops.trans
      (exists_congr fun deadline => and_congr_right fun _ => ending?_eq_false)
  · exact Nat.le_trans (List.length_filterMap_le _ _) hp.few
  · rintro name grace rfl
    show (h.stop name grace).2 = _
    rw [ht.stop_eq]
    split <;> rfl

end Tended

namespace Course

variable {s : Course}

/-- The course is in a settled state, and has come to it well. -/
structure Sound (s : Course) : Prop where
  tended : Tended s.taken s.holders
  lawful : Chronicle (fun earlier e => EndsWell (earlier.map Settled.action) e) s.record

theorem Sound.outset : Sound {} := by
  refine ⟨⟨⟨rfl, rfl, rfl, .nil, ?_, rfl, ?_, Nat.zero_le 1⟩, ?_, nofun, ?_⟩, trivial⟩
  · intro guard
    simp [guards, taken]
  · intro name
    simp [taken]
  · intro name deadline
    constructor
    · rintro ⟨ha, -⟩
      cases ha
    · rintro ⟨w, hw, -⟩
      cases hw
  · intro name ended hended
    simp at hended

theorem Sound.act (hs : s.Sound) (action : Action) : (s.act action).Sound := by
  unfold Course.act
  split
  · rename_i hadm
    exact ⟨(hs.tended.perform hadm).settle, hs.tended.endsWell hadm, hs.lawful⟩
  · exact hs

theorem Sound.run (actions : List Action) : (run actions).Sound := by
  have hs : Sound {} := .outset
  unfold Course.run
  generalize ({} : Course) = s at hs ⊢
  induction actions generalizing s with
  | nil => exact hs
  | cons action rest ih => exact ih (s.act action) (hs.act action)

/-- **Stops and waits end in time.** Whatever is done around a scope, the operations that it counts
are the live guards. The first stop succeeds in the first settled state without live guards, if its
time is not over before, and fails when its time is over and a guard is live; every other stop
succeeds at once. A wait has ended exactly if a stop has begun or nothing keeps the scope. -/
theorem run_endsWell (actions : List Action) :
    Chronicle (fun earlier e => EndsWell (earlier.map Settled.action) e) (run actions).record :=
  (Sound.run actions).lawful

/-- A stop outlasts a guard that came after it and the owner, and the wait ends with the stop's
beginning. -/
example : let s := run [.signal "s", .wait "w" "s", .register "a", .stop "first" 50, .register "b",
      .release "a", .disown, .sleep 40, .release "b"]
    s.record.map (fun e => e.ended) = [[("first", true)], [], [], [], [], [], [], [], []] ∧
      s.holders.scope.active = 0 ∧ s.holders.waits["w"]? = some true := by decide +kernel

end Course

end GovernanceCache.Scope
