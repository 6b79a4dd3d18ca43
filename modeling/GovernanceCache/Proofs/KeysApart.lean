import GovernanceCache.Proofs.CallerCourse
import Mathlib.Data.List.Forall2

/-!
# Keys keep apart

Callers of different keys share one set of flights, and one counter gives their calls numbers. Still
the callers of a key see nothing of the others: if all steps of other keys are left out of a course,
the same happens to them, except that their calls have other numbers.

1. `Mirrors key twins s alone` pairs the calls of the key in a course with those of the course in
   which its callers are alone. Twins are equally far, and a call has no second twin, so the checks
   on call numbers come out alike on both sides.
2. A step of another key keeps the pairing as it is (`Mirrors.other`); a step of the key is made on
   both sides (`Mirrors.same`), and adds a pair if it leads a new call.
-/

namespace GovernanceCache

namespace Waiting

variable {α β : Type}

/-- Those who pass a test are paired with others. Then the `i`-th one is paired with the `i`-th
other one, and so are those before it and after it. -/
theorem pick?_paired {R : α → β → Prop} {test : α → Bool} {test' : β → Bool} {l : List α}
    {l' : List β} (h : List.Forall₂ R (l.filter test) l') (ht : ∀ b ∈ l', test' b = true)
    (i : Nat) :
    (pick? test i l = none ∧ pick? test' i l' = none) ∨
      ∃ before a after before' a' after', pick? test i l = some (before, a, after) ∧
        pick? test' i l' = some (before', a', after') ∧
        List.Forall₂ R (before.filter test) before' ∧ R a a' ∧
        List.Forall₂ R (after.filter test) after' := by
  induction l generalizing i l' with
  | nil =>
    cases h
    exact Or.inl ⟨rfl, rfl⟩
  | cons a rest ih =>
    by_cases ha : test a = true
    · rw [List.filter_cons_of_pos ha] at h
      obtain ⟨b, rest', hab, hrest, rfl⟩ := List.forall₂_cons_left_iff.mp h
      have hb : test' b = true := ht b List.mem_cons_self
      cases i with
      | zero =>
        refine Or.inr ⟨[], a, rest, [], b, rest', ?_, ?_, .nil, hab, hrest⟩
        · simp [pick?, ha]
        · simp [pick?, hb]
      | succ i =>
        rcases ih hrest (fun b hb => ht b (List.mem_cons_of_mem _ hb)) i with
          ⟨hnone, hnone'⟩ | ⟨before, c, after, before', c', after', hp, hp', hbefore, hc, hafter⟩
        · left
          simp [pick?, ha, hb, hnone, hnone']
        · refine Or.inr ⟨a :: before, c, after, b :: before', c', after', ?_, ?_, ?_, hc, hafter⟩
          · simp [pick?, ha, hp]
          · simp [pick?, hb, hp']
          · rw [List.filter_cons_of_pos ha]
            exact .cons hab hbefore
    · rw [List.filter_cons_of_neg ha] at h
      rcases ih h ht i with
        ⟨hnone, hnone'⟩ | ⟨before, c, after, before', c', after', hp, hp', hbefore, hc, hafter⟩
      · left
        simp [pick?, ha, hnone, hnone']
      · refine Or.inr ⟨a :: before, c, after, before', c', after', ?_, hp', ?_, hc, hafter⟩
        · simp [pick?, ha, hp]
        · rw [List.filter_cons_of_neg ha]
          exact hbefore

end Waiting

namespace SingleFlight

/-- The caller whatever the number of its call. -/
def Caller.unnumbered (c : Caller) : Caller := { c with call := 0 }

namespace Callers

/-- The key that a step is about. -/
def Action.key : Action → String
  | enter _ key _ | supply key _ _ | poll key _ | drop key _ | forget key => key

/-- The key that an event is about. -/
def Event.key : Event → String
  | entered c | stayed c | ended c _ | dropped c => c.key
  | forgot key => key

/-- The event whatever the numbers of calls. -/
def Event.unnumbered : Event → Event
  | entered c => entered c.unnumbered
  | stayed c => stayed c.unnumbered
  | ended c result => ended c.unnumbered result
  | dropped c => dropped c.unnumbered
  | forgot key => forgot key

/-- The callers of a key see in a course what they see alone. -/
structure SeesAlone (key : String) (s alone : Course) : Prop where
  /-- They enter with the same parts, end with the same results, stay and are dropped alike. -/
  told : (s.events.filter fun e => e.key == key).map Event.unnumbered =
    alone.events.map Event.unnumbered
  /-- The same ones wait. -/
  waiting : (s.callers.waiting.filter fun c => c.key == key).map Caller.unnumbered =
    alone.callers.waiting.map Caller.unnumbered
  inFlight : s.callers.flights.inFlight key = alone.callers.flights.inFlight key

/-! ## Calls that are twins -/

variable {key name : String} {twins : List (Nat × Nat)}
  {flights flights' alone : SingleFlight Outcome} {n n' m m' : Nat} {p : Progress Outcome}

/-- The calls of a key in two sets of flights, in pairs. -/
structure Paired (key : String) (twins : List (Nat × Nat))
    (flights alone : SingleFlight Outcome) : Prop where
  left : (twins.map Prod.fst).Nodup
  right : (twins.map Prod.snd).Nodup
  numbered : ∀ t ∈ twins, t.1 < flights.next ∧ t.2 < alone.next
  /-- Twins are equally far. -/
  progress : ∀ t ∈ twins, flights.progress[t.1]? = alone.progress[t.2]?
  /-- If the key has a call registered on one side, it has the twin on the other. -/
  there : ∀ n, flights.current[key]? = some n →
    ∃ n', (n, n') ∈ twins ∧ alone.current[key]? = some n'
  back : ∀ n', alone.current[key]? = some n' →
    ∃ n, (n, n') ∈ twins ∧ flights.current[key]? = some n

namespace Paired

/-- A call has no second twin. -/
theorem twin_iff (h : Paired key twins flights alone) (hn : (n, n') ∈ twins)
    (hm : (m, m') ∈ twins) : n = m ↔ n' = m' := by
  constructor
  · rintro rfl
    exact congrArg Prod.snd (List.inj_on_of_nodup_map h.left hn hm rfl)
  · rintro rfl
    exact congrArg Prod.fst (List.inj_on_of_nodup_map h.right hn hm rfl)

theorem free_iff (h : Paired key twins flights alone) :
    flights.current[key]? = none ↔ alone.current[key]? = none := by
  simp only [Option.eq_none_iff_forall_ne_some]
  constructor
  · intro hfree n' hn'
    obtain ⟨n, -, hn⟩ := h.back n' hn'
    exact hfree n hn
  · intro hfree n hn
    obtain ⟨n', -, hn'⟩ := h.there n hn
    exact hfree n' hn'

theorem inFlight_eq (h : Paired key twins flights alone) :
    flights.inFlight key = alone.inFlight key := by
  unfold inFlight
  rw [Std.ExtTreeMap.contains_eq_isSome_getElem?, Std.ExtTreeMap.contains_eq_isSome_getElem?,
    Bool.eq_iff_iff, Option.isSome_iff_ne_none, Option.isSome_iff_ne_none]
  exact not_congr h.free_iff

/-- Both sides lead a new call of the key. -/
theorem lead (h : Paired key twins flights alone) :
    Paired key ((flights.next, alone.next) :: twins) (flights.lead key) (alone.lead key) := by
  refine ⟨?_, ?_, ?_, ?_, ?_, ?_⟩
  · rw [List.map_cons, List.nodup_cons]
    refine ⟨?_, h.left⟩
    intro hmem
    obtain ⟨t, ht, heq⟩ := List.mem_map.mp hmem
    have := (h.numbered t ht).1
    omega
  · rw [List.map_cons, List.nodup_cons]
    refine ⟨?_, h.right⟩
    intro hmem
    obtain ⟨t, ht, heq⟩ := List.mem_map.mp hmem
    have := (h.numbered t ht).2
    omega
  · intro t ht
    rw [lead_next, lead_next]
    rcases List.mem_cons.mp ht with rfl | ht
    · omega
    · have := h.numbered t ht
      omega
  · intro t ht
    rw [lead_progress, lead_progress]
    rcases List.mem_cons.mp ht with rfl | ht
    · rw [if_pos rfl, if_pos rfl]
    · have := h.numbered t ht
      rw [if_neg (by omega), if_neg (by omega)]
      exact h.progress t ht
  · intro n hn
    rw [lead_current, if_pos rfl] at hn ⊢
    exact ⟨alone.next, by rw [← Option.some.inj hn]; exact List.mem_cons_self, rfl⟩
  · intro n' hn'
    rw [lead_current, if_pos rfl] at hn' ⊢
    exact ⟨flights.next, by rw [← Option.some.inj hn']; exact List.mem_cons_self, rfl⟩

/-- Both sides settle twins. -/
theorem close (h : Paired key twins flights alone) (hn : (n, n') ∈ twins) (p : Progress Outcome) :
    Paired key twins (flights.close key n p) (alone.close key n' p) := by
  refine ⟨h.left, h.right, ?_, ?_, ?_, ?_⟩
  · intro t ht
    rw [close_next, close_next]
    exact h.numbered t ht
  · intro t ht
    rw [close_progress, close_progress]
    by_cases heq : n = t.1
    · rw [if_pos heq, if_pos ((h.twin_iff hn ht).mp heq)]
    · rw [if_neg heq, if_neg fun heq' => heq ((h.twin_iff hn ht).mpr heq')]
      exact h.progress t ht
  · intro m hm
    rw [close_current_eq_some] at hm
    obtain ⟨m', ht, hm'⟩ := h.there m hm.1
    refine ⟨m', ht, close_current_eq_some.mpr ⟨hm', ?_⟩⟩
    exact fun heq => hm.2 ⟨rfl, (h.twin_iff ht hn).mpr heq.2⟩
  · intro m' hm'
    rw [close_current_eq_some] at hm'
    obtain ⟨m, ht, hm⟩ := h.back m' hm'.1
    refine ⟨m, ht, close_current_eq_some.mpr ⟨hm, ?_⟩⟩
    exact fun heq => hm'.2 ⟨rfl, (h.twin_iff ht hn).mp heq.2⟩

/-- Both sides forget the key. -/
theorem forget (h : Paired key twins flights alone) :
    Paired key twins (flights.forget key) (alone.forget key) := by
  refine ⟨h.left, h.right, h.numbered, h.progress, ?_, ?_⟩
  · intro n hn
    exact absurd rfl (forget_current_eq_some.mp hn).2
  · intro n' hn'
    exact absurd rfl (forget_current_eq_some.mp hn').2

/-! ### Other keys -/

/-- Neither the registered call of the key nor the calls with a twin change. -/
theorem frame (h : Paired key twins flights alone) (hnext : flights.next ≤ flights'.next)
    (hp : ∀ t ∈ twins, flights'.progress[t.1]? = flights.progress[t.1]?)
    (hc : flights'.current[key]? = flights.current[key]?) : Paired key twins flights' alone where
  left := h.left
  right := h.right
  numbered t ht := ⟨Nat.lt_of_lt_of_le (h.numbered t ht).1 hnext, (h.numbered t ht).2⟩
  progress t ht := (hp t ht).trans (h.progress t ht)
  there := by rw [hc]; exact h.there
  back := by rw [hc]; exact h.back

variable {other : String}

theorem lead_other (h : Paired key twins flights alone) (hk : other ≠ key) :
    Paired key twins (flights.lead other) alone := by
  refine h.frame (Nat.le_succ _) ?_ ?_
  · intro t ht
    have := (h.numbered t ht).1
    rw [lead_progress, if_neg (by omega)]
  · rw [lead_current, if_neg hk]

theorem close_other (h : Paired key twins flights alone) (hk : other ≠ key)
    (hn : ∀ t ∈ twins, t.1 ≠ n) (p : Progress Outcome) :
    Paired key twins (flights.close other n p) alone := by
  refine h.frame (Nat.le_of_eq (close_next flights other n p).symm) ?_ ?_
  · intro t ht
    rw [close_progress, if_neg (hn t ht).symm]
  · ext m
    rw [close_current_eq_some]
    exact and_iff_left fun heq => hk heq.1.symm

theorem forget_other (h : Paired key twins flights alone) (hk : other ≠ key) :
    Paired key twins (flights.forget other) alone := by
  refine h.frame (Nat.le_refl _) (fun _ _ => rfl) ?_
  ext m
  rw [forget_current_eq_some]
  exact and_iff_left hk.symm

end Paired

/-! ## Callers that are twins -/

/-- Two callers that differ at most in the numbers of their calls, which are twins. -/
structure Twin (twins : List (Nat × Nat)) (c c' : Caller) : Prop where
  call : (c.call, c'.call) ∈ twins
  name : c.name = c'.name
  key : c.key = c'.key
  role : c.role = c'.role
  supplied : c.supplied = c'.supplied

variable {c c' : Caller} {result : Outcome} {l l' : List Caller}

theorem Twin.unnumbered (h : Twin twins c c') : c.unnumbered = c'.unnumbered := by
  unfold Caller.unnumbered
  rw [h.name, h.key, h.role, h.supplied]

theorem Twin.cons (h : Twin twins c c') (t : Nat × Nat) : Twin (t :: twins) c c' :=
  ⟨List.mem_cons_of_mem t h.call, h.name, h.key, h.role, h.supplied⟩

theorem map_unnumbered_of_twins (h : List.Forall₂ (Twin twins) l l') :
    l.map Caller.unnumbered = l'.map Caller.unnumbered := by
  induction h with
  | nil => rfl
  | cons ht _ ih => rw [List.map_cons, List.map_cons, ht.unnumbered, ih]

theorem Paired.resultFor_eq (h : Paired key twins flights alone) (ht : Twin twins c c') :
    flights.resultFor c.key c.call = alone.resultFor c'.key c'.call := by
  unfold resultFor progressOf
  rw [h.progress _ ht.call, ht.key]

/-- What a poll does to twins: both stay, both share a result, or both settle their call. -/
theorem Paired.pollCaller_cases (h : Paired key twins flights alone) (ht : Twin twins c c') :
    (pollCaller flights c = (flights, some c, []) ∧
      pollCaller alone c' = (alone, some c', [])) ∨
    (∃ result, pollCaller flights c = (flights, none, [⟨c.name, c.role, result⟩]) ∧
      pollCaller alone c' = (alone, none, [⟨c'.name, c'.role, result⟩])) ∨
    c.role = .leader ∧ ∃ result,
      pollCaller flights c =
        (flights.close c.key c.call (.finished result), none, [⟨c.name, c.role, result⟩]) ∧
      pollCaller alone c' =
        (alone.close c'.key c'.call (.finished result), none, [⟨c'.name, c'.role, result⟩]) := by
  rcases hrole : c.role with _ | _
  · rcases hs : c.supplied with _ | result
    · left
      exact ⟨pollCaller_of_not_supplied hrole hs,
        pollCaller_of_not_supplied (ht.role.symm.trans hrole) (ht.supplied.symm.trans hs)⟩
    · refine Or.inr (Or.inr ⟨rfl, result, ?_, ?_⟩)
      · rw [← hrole]
        exact pollCaller_of_supplied hrole hs
      · exact pollCaller_of_supplied (ht.role.symm.trans hrole) (ht.supplied.symm.trans hs)
  · rcases hr : flights.resultFor c.key c.call with _ | result
    · left
      exact ⟨pollCaller_of_no_result hrole hr,
        pollCaller_of_no_result (ht.role.symm.trans hrole) ((h.resultFor_eq ht).symm.trans hr)⟩
    · refine Or.inr (Or.inl ⟨result, ?_, ?_⟩)
      · rw [← hrole]
        exact pollCaller_of_result hrole hr
      · exact pollCaller_of_result (ht.role.symm.trans hrole) ((h.resultFor_eq ht).symm.trans hr)

/-! ## Courses that mirror each other -/

/-- A course, and the one in which the callers of a key are alone. -/
structure Mirrors (key : String) (twins : List (Nat × Nat)) (s t : Course) : Prop where
  flights : Paired key twins s.callers.flights t.callers.flights
  waiting : List.Forall₂ (Twin twins) (s.callers.waiting.filter fun c => c.key == key)
    t.callers.waiting
  /-- The leaders of other keys lead no call that has a twin. -/
  apart : ∀ c ∈ s.callers.waiting, c.role = .leader → c.key ≠ key →
    c.call < s.callers.flights.next ∧ ∀ q ∈ twins, q.1 ≠ c.call
  told : (s.events.filter fun e => e.key == key).map Event.unnumbered =
    t.events.map Event.unnumbered

variable {s t : Course} {before after before' after' : List Caller} {e e' : Event}

theorem twins_rest
    (hbefore : List.Forall₂ (Twin twins) (before.filter fun c => c.key == key) before')
    (hafter : List.Forall₂ (Twin twins) (after.filter fun c => c.key == key) after') :
    List.Forall₂ (Twin twins) ((before ++ after).filter fun c => c.key == key)
      (before' ++ after') := by
  rw [List.filter_append]
  exact List.rel_append hbefore hafter

theorem twins_among
    (hbefore : List.Forall₂ (Twin twins) (before.filter fun c => c.key == key) before')
    (hc : Twin twins c c') (hkey : (c.key == key) = true)
    (hafter : List.Forall₂ (Twin twins) (after.filter fun c => c.key == key) after') :
    List.Forall₂ (Twin twins) ((before ++ c :: after).filter fun c => c.key == key)
      (before' ++ c' :: after') := by
  rw [List.filter_append, List.filter_cons_of_pos (p := fun c : Caller => c.key == key) hkey]
  exact List.rel_append hbefore (.cons hc hafter)

namespace Mirrors

theorem start (key : String) : Mirrors key [] {} {} where
  flights := by
    refine ⟨.nil, .nil, nofun, nofun, ?_, ?_⟩
    · intro n hn
      simp at hn
    · intro n hn
      simp at hn
  waiting := .nil
  apart := nofun
  told := rfl

theorem seesAlone (h : Mirrors key twins s t) : SeesAlone key s t where
  told := h.told
  waiting := map_unnumbered_of_twins h.waiting
  inFlight := h.flights.inFlight_eq

theorem keys (h : Mirrors key twins s t) : ∀ c ∈ t.callers.waiting, (c.key == key) = true := by
  intro c hc
  have hmem : c.unnumbered ∈ t.callers.waiting.map Caller.unnumbered := List.mem_map_of_mem hc
  rw [← map_unnumbered_of_twins h.waiting] at hmem
  obtain ⟨d, hd, heq⟩ := List.mem_map.mp hmem
  have hkey : d.unnumbered.key = c.unnumbered.key := congrArg Caller.key heq
  have hd : (d.unnumbered.key == key) = true := (List.mem_filter.mp hd).2
  rw [hkey] at hd
  exact hd

/-- The `i`-th callers of the key are twins, if there are that many. -/
theorem pick (h : Mirrors key twins s t) (i : Nat) :
    (s.pick? key i = none ∧ t.pick? key i = none) ∨
      ∃ before c after before' c' after', s.pick? key i = some (before, c, after) ∧
        t.pick? key i = some (before', c', after') ∧
        List.Forall₂ (Twin twins) (before.filter fun c => c.key == key) before' ∧
        Twin twins c c' ∧ List.Forall₂ (Twin twins) (after.filter fun c => c.key == key) after' :=
  Waiting.pick?_paired h.waiting h.keys i

theorem told_cons (h : Mirrors key twins s t) (he : (e.key == key) = true)
    (heq : e.unnumbered = e'.unnumbered) :
    ((e :: s.events).filter fun e => e.key == key).map Event.unnumbered =
      (e' :: t.events).map Event.unnumbered := by
  rw [List.filter_cons_of_pos (p := fun e : Event => e.key == key) he, List.map_cons, List.map_cons,
    heq, h.told]

theorem told_other (h : Mirrors key twins s t) (he : e.key ≠ key) :
    ((e :: s.events).filter fun e => e.key == key).map Event.unnumbered =
      t.events.map Event.unnumbered := by
  rw [List.filter_cons_of_neg (by rw [beq_iff_eq]; exact he), h.told]

/-! ### Steps of the key -/

theorem enter (h : Mirrors key twins s t) (name : String) (supplied : Option Outcome) :
    ∃ twins', Mirrors key twins' (s.enter name key supplied) (t.enter name key supplied) := by
  unfold Course.enter Callers.enter entrant
  rcases hk : s.callers.flights.current[key]? with _ | call
  · -- a new call on both sides, and so a new pair of twins
    have hk' := h.flights.free_iff.mp hk
    rw [enter_of_free hk, enter_of_free hk']
    have hnew : Twin ((s.callers.flights.next, t.callers.flights.next) :: twins)
        ⟨name, key, .leader, s.callers.flights.next, supplied⟩
        ⟨name, key, .leader, t.callers.flights.next, supplied⟩ :=
      ⟨List.mem_cons_self, rfl, rfl, rfl, rfl⟩
    refine ⟨_, h.flights.lead, ?_, ?_, h.told_cons (beq_self_eq_true key) rfl⟩
    · show List.Forall₂ _ ((s.callers.waiting ++ [_]).filter _) (t.callers.waiting ++ [_])
      exact twins_among (h.waiting.imp fun _ _ ht => ht.cons _) hnew (beq_self_eq_true key) .nil
    · intro c hc hrole hkey
      rcases List.mem_append.mp hc with hc | hc
      · obtain ⟨hlt, hne⟩ := h.apart c hc hrole hkey
        refine ⟨Nat.lt_succ_of_lt hlt, ?_⟩
        intro q hq
        rcases List.mem_cons.mp hq with rfl | hq
        · exact Nat.ne_of_gt hlt
        · exact hne q hq
      · exact absurd (by rw [List.mem_singleton.mp hc]) hkey
  · obtain ⟨call', hcall, hk'⟩ := h.flights.there call hk
    rw [enter_of_registered hk, enter_of_registered hk']
    have hnew : Twin twins ⟨name, key, .follower, call, supplied⟩
        ⟨name, key, .follower, call', supplied⟩ := ⟨hcall, rfl, rfl, rfl, rfl⟩
    refine ⟨twins, h.flights, ?_, ?_, h.told_cons (beq_self_eq_true key) rfl⟩
    · exact twins_among h.waiting hnew (beq_self_eq_true key) .nil
    · intro c hc hrole hkey
      rcases List.mem_append.mp hc with hc | hc
      · exact h.apart c hc hrole hkey
      · exact absurd (by rw [List.mem_singleton.mp hc]) hkey

theorem supply (h : Mirrors key twins s t) (i : Nat) (result : Outcome) :
    Mirrors key twins (s.supply key i result) (t.supply key i result) := by
  unfold Course.supply
  rcases h.pick i with
    ⟨hs, ht⟩ | ⟨before, c, after, before', c', after', hs, ht, hbefore, hc, hafter⟩
  · rw [hs, ht]
    exact h
  · have hw := Waiting.eq_append_of_pick? hs
    have hkey := Waiting.of_pick? hs
    rw [hs, ht]
    simp only [hc.supplied]
    split
    · refine ⟨h.flights, ?_, ?_, h.told⟩
      · have hgiven : Twin twins { c with supplied := some result }
            { c' with supplied := some result } := ⟨hc.call, hc.name, hc.key, hc.role, rfl⟩
        exact twins_among hbefore hgiven hkey hafter
      · intro d hd hrole hother
        rcases Waiting.eq_or_mem_rest hd with rfl | hd
        · exact absurd (beq_iff_eq.mp hkey) hother
        · exact h.apart d (Waiting.mem_of_mem_rest hw hd) hrole hother
    · exact h

/-- Twins leave, and settle their calls if they lead them. -/
theorem leave (h : Mirrors key twins s t) {i : Nat}
    (hs : s.pick? key i = some (before, c, after))
    (hbefore : List.Forall₂ (Twin twins) (before.filter fun c => c.key == key) before')
    (hafter : List.Forall₂ (Twin twins) (after.filter fun c => c.key == key) after')
    (hf : Paired key twins flights alone) (hnext : s.callers.flights.next ≤ flights.next)
    (he : (e.key == key) = true) (heq : e.unnumbered = e'.unnumbered) :
    Mirrors key twins
      { callers := { s.callers with flights, waiting := before ++ after }, events := e :: s.events }
      { callers := { t.callers with flights := alone, waiting := before' ++ after' }
        events := e' :: t.events } where
  flights := hf
  waiting := twins_rest hbefore hafter
  apart d hd hrole hother := by
    have hw := Waiting.eq_append_of_pick? hs
    obtain ⟨hlt, hne⟩ := h.apart d (Waiting.mem_of_mem_rest hw hd) hrole hother
    exact ⟨Nat.lt_of_lt_of_le hlt hnext, hne⟩
  told := h.told_cons he heq

theorem poll (h : Mirrors key twins s t) (i : Nat) :
    Mirrors key twins (s.poll key i) (t.poll key i) := by
  unfold Course.poll
  rcases h.pick i with
    ⟨hs, ht⟩ | ⟨before, c, after, before', c', after', hs, ht, hbefore, hc, hafter⟩
  · rw [hs, ht]
    exact h
  · have hkey := Waiting.of_pick? hs
    rw [hs, ht]
    rcases h.flights.pollCaller_cases hc with
      ⟨hp, hp'⟩ | ⟨result, hp, hp'⟩ | ⟨-, result, hp, hp'⟩
    · simp only [hp, hp', Option.toList_some, List.append_assoc, List.singleton_append,
        ← Waiting.eq_append_of_pick? hs, ← Waiting.eq_append_of_pick? ht]
      exact ⟨h.flights, h.waiting, h.apart,
        h.told_cons hkey (congrArg Event.stayed hc.unnumbered)⟩
    · simp only [hp, hp', Option.toList_none, List.append_nil]
      exact h.leave hs hbefore hafter h.flights (Nat.le_refl _) hkey
        (congrArg (Event.ended · result) hc.unnumbered)
    · simp only [hp, hp', Option.toList_none, List.append_nil]
      have hc₁ : c.key = key := beq_iff_eq.mp hkey
      have hc₂ : c'.key = key := hc.key.symm.trans hc₁
      rw [hc₁, hc₂]
      exact h.leave hs hbefore hafter (h.flights.close hc.call _)
        (Nat.le_of_eq (close_next _ _ _ _).symm) hkey
        (congrArg (Event.ended · result) hc.unnumbered)

theorem drop (h : Mirrors key twins s t) (i : Nat) :
    Mirrors key twins (s.drop key i) (t.drop key i) := by
  unfold Course.drop
  rcases h.pick i with
    ⟨hs, ht⟩ | ⟨before, c, after, before', c', after', hs, ht, hbefore, hc, hafter⟩
  · rw [hs, ht]
    exact h
  · have hkey := Waiting.of_pick? hs
    have heq : (Event.dropped c).unnumbered = (Event.dropped c').unnumbered :=
      congrArg Event.dropped hc.unnumbered
    rw [hs, ht]
    unfold release
    rcases hrole : c.role with _ | _
    · have hc₁ : c.key = key := beq_iff_eq.mp hkey
      have hc₂ : c'.key = key := hc.key.symm.trans hc₁
      simp only [hrole, hc.role.symm.trans hrole, hc₁, hc₂]
      exact h.leave hs hbefore hafter (h.flights.close hc.call .abandoned)
        (Nat.le_of_eq (close_next _ _ _ _).symm) hkey heq
    · simp only [hrole, hc.role.symm.trans hrole]
      exact h.leave hs hbefore hafter h.flights (Nat.le_refl _) hkey heq

theorem forget (h : Mirrors key twins s t) :
    Mirrors key twins (s.forget key) (t.forget key) :=
  ⟨h.flights.forget, h.waiting, h.apart, h.told_cons (beq_self_eq_true key) rfl⟩

theorem same (h : Mirrors key twins s t) {action : Action} (hk : action.key = key) :
    ∃ twins', Mirrors key twins' (s.act action) (t.act action) := by
  subst hk
  cases action with
  | enter name key supplied => exact h.enter name supplied
  | supply key i result => exact ⟨twins, h.supply i result⟩
  | poll key i => exact ⟨twins, h.poll i⟩
  | drop key i => exact ⟨twins, h.drop i⟩
  | forget key => exact ⟨twins, h.forget⟩

/-! ### Steps of other keys -/

variable {k : String}

/-- A step of another key: the callers of the key wait as before. -/
theorem aside (h : Mirrors key twins s t) {waiting : List Caller}
    (hf : Paired key twins flights t.callers.flights)
    (hnext : s.callers.flights.next ≤ flights.next)
    (hw : (waiting.filter fun c => c.key == key) = s.callers.waiting.filter fun c => c.key == key)
    (ha : ∀ c ∈ waiting, c.role = .leader → c.key ≠ key →
      (∃ d ∈ s.callers.waiting, d.role = .leader ∧ d.key ≠ key ∧ d.call = c.call) ∨
        c.call = s.callers.flights.next ∧ c.call < flights.next)
    {events : List Event}
    (he : (events.filter fun e => e.key == key).map Event.unnumbered =
      t.events.map Event.unnumbered) (runs : Nat) :
    Mirrors key twins { callers := { flights, waiting, runs }, events } t where
  flights := hf
  waiting := by rw [hw]; exact h.waiting
  apart c hc hrole hkey := by
    rcases ha c hc hrole hkey with ⟨d, hd, hdrole, hdkey, hcall⟩ | ⟨hcall, hlt⟩
    · obtain ⟨hlt, hne⟩ := h.apart d hd hdrole hdkey
      rw [← hcall]
      exact ⟨Nat.lt_of_lt_of_le hlt hnext, hne⟩
    · refine ⟨hlt, ?_⟩
      intro q hq
      rw [hcall]
      exact Nat.ne_of_lt (h.flights.numbered q hq).1
  told := he

theorem enter_other (h : Mirrors key twins s t) (hk : k ≠ key) (name : String)
    (supplied : Option Outcome) : Mirrors key twins (s.enter name k supplied) t := by
  have hfilter : ∀ c : Caller, c.key = k →
      ((s.callers.waiting ++ [c]).filter fun c => c.key == key) =
        s.callers.waiting.filter fun c => c.key == key := by
    intro c hc
    rw [List.filter_append, List.filter_cons_of_neg (by rw [hc, beq_iff_eq]; exact hk),
      List.filter_nil, List.append_nil]
  unfold Course.enter Callers.enter entrant
  rcases hc : s.callers.flights.current[k]? with _ | call
  · rw [enter_of_free hc]
    refine h.aside (h.flights.lead_other hk) (Nat.le_succ _) (hfilter _ rfl) ?_
      (h.told_other (e := .entered ⟨name, k, .leader, s.callers.flights.next, supplied⟩) hk) _
    intro d hd hrole hkey
    rcases List.mem_append.mp hd with hd | hd
    · exact Or.inl ⟨d, hd, hrole, hkey, rfl⟩
    · rw [List.mem_singleton.mp hd]
      exact Or.inr ⟨rfl, Nat.lt_succ_self _⟩
  · rw [enter_of_registered hc]
    refine h.aside h.flights (Nat.le_refl _) (hfilter _ rfl) ?_
      (h.told_other (e := .entered ⟨name, k, .follower, call, supplied⟩) hk) _
    intro d hd hrole hkey
    rcases List.mem_append.mp hd with hd | hd
    · exact Or.inl ⟨d, hd, hrole, hkey, rfl⟩
    · rw [List.mem_singleton.mp hd] at hrole
      cases hrole

/-- Whoever waits for another key can go, stay or change. -/
theorem filter_other (hw : s.callers.waiting = before ++ c :: after) (hc : c.key ≠ key)
    (stays : List Caller) (hstays : ∀ d ∈ stays, d.key ≠ key) :
    ((before ++ stays ++ after).filter fun c => c.key == key) =
      s.callers.waiting.filter fun c => c.key == key := by
  have hnone : (stays.filter fun c => c.key == key) = [] := by
    rw [List.filter_eq_nil_iff]
    intro d hd
    rw [beq_iff_eq]
    exact hstays d hd
  rw [hw, List.filter_append, List.filter_append, hnone, List.append_nil, List.filter_append,
    List.filter_cons_of_neg (p := fun c : Caller => c.key == key) (by rw [beq_iff_eq]; exact hc)]

theorem key_of_pick {i : Nat} (hs : s.pick? k i = some (before, c, after)) : c.key = k := by
  have htest := Waiting.of_pick? hs
  exact beq_iff_eq.mp htest

/-- A leader of another key leaves, and its call is settled. -/
theorem close_other (h : Mirrors key twins s t) (hk : k ≠ key)
    (hmem : c ∈ s.callers.waiting) (hrole : c.role = .leader) (hkey : c.key = k)
    (p : Progress Outcome) :
    Paired key twins (s.callers.flights.close c.key c.call p) t.callers.flights := by
  have hne : c.key ≠ key := by rw [hkey]; exact hk
  exact h.flights.close_other hne (h.apart c hmem hrole hne).2 p

theorem supply_other (h : Mirrors key twins s t) (hk : k ≠ key) (i : Nat)
    (result : Outcome) : Mirrors key twins (s.supply k i result) t := by
  unfold Course.supply
  rcases hs : s.pick? k i with _ | ⟨before, c, after⟩
  · exact h
  · have hw := Waiting.eq_append_of_pick? hs
    have hkey := key_of_pick hs
    have hne : c.key ≠ key := by rw [hkey]; exact hk
    simp only
    split
    · refine h.aside h.flights (Nat.le_refl _) ?_ ?_ h.told _
      · rw [← filter_other hw hne [{ c with supplied := some result }] ?_,
          List.append_assoc, List.singleton_append]
        intro d hd
        rw [List.mem_singleton.mp hd]
        exact hne
      · intro d hd hrole hdkey
        rcases Waiting.eq_or_mem_rest hd with rfl | hd
        · exact Or.inl ⟨c, Waiting.mem_of_split hw, hrole, hdkey, rfl⟩
        · exact Or.inl ⟨d, Waiting.mem_of_mem_rest hw hd, hrole, hdkey, rfl⟩
    · exact h

theorem leave_other (h : Mirrors key twins s t) (hk : k ≠ key) {i : Nat}
    (hs : s.pick? k i = some (before, c, after))
    (hf : Paired key twins flights t.callers.flights)
    (hnext : s.callers.flights.next ≤ flights.next) (he : e.key = k) (runs : Nat) :
    Mirrors key twins
      { callers := { flights, waiting := before ++ after, runs }, events := e :: s.events } t := by
  have hw := Waiting.eq_append_of_pick? hs
  have hne : c.key ≠ key := by rw [key_of_pick hs]; exact hk
  refine h.aside hf hnext ?_ ?_ (h.told_other (by rw [he]; exact hk)) runs
  · rw [← filter_other hw hne [] nofun, List.append_nil]
  · intro d hd hrole hdkey
    exact Or.inl ⟨d, Waiting.mem_of_mem_rest hw hd, hrole, hdkey, rfl⟩

theorem poll_other (h : Mirrors key twins s t) (hk : k ≠ key) (i : Nat) :
    Mirrors key twins (s.poll k i) t := by
  unfold Course.poll
  rcases hs : s.pick? k i with _ | ⟨before, c, after⟩
  · exact h
  · have hw := Waiting.eq_append_of_pick? hs
    have hkey := key_of_pick hs
    have hstay : Mirrors key twins { s with events := .stayed c :: s.events } t :=
      ⟨h.flights, h.waiting, h.apart,
        h.told_other (e := .stayed c) (fun he => hk (hkey.symm.trans he))⟩
    rcases hrole : c.role with _ | _
    · rcases hsup : c.supplied with _ | result
      · simp only [pollCaller_of_not_supplied hrole hsup, Option.toList_some, List.append_assoc,
          List.singleton_append, ← hw]
        exact hstay
      · simp only [pollCaller_of_supplied hrole hsup, Option.toList_none, List.append_nil]
        exact h.leave_other (e := .ended c result) hk hs
          (h.close_other hk (Waiting.mem_of_split hw) hrole hkey _)
          (Nat.le_of_eq (close_next _ _ _ _).symm) hkey _
    · rcases hr : s.callers.flights.resultFor c.key c.call with _ | result
      · simp only [pollCaller_of_no_result hrole hr, Option.toList_some, List.append_assoc,
          List.singleton_append, ← hw]
        exact hstay
      · simp only [pollCaller_of_result hrole hr, Option.toList_none, List.append_nil]
        exact h.leave_other (e := .ended c result) hk hs h.flights (Nat.le_refl _) hkey _

theorem drop_other (h : Mirrors key twins s t) (hk : k ≠ key) (i : Nat) :
    Mirrors key twins (s.drop k i) t := by
  unfold Course.drop
  rcases hs : s.pick? k i with _ | ⟨before, c, after⟩
  · exact h
  · have hw := Waiting.eq_append_of_pick? hs
    have hkey := key_of_pick hs
    unfold release
    rcases hrole : c.role with _ | _
    · simp only [hrole]
      exact h.leave_other (e := .dropped c) hk hs
        (h.close_other hk (Waiting.mem_of_split hw) hrole hkey .abandoned)
        (Nat.le_of_eq (close_next _ _ _ _).symm) hkey _
    · simp only [hrole]
      exact h.leave_other (e := .dropped c) hk hs h.flights (Nat.le_refl _) hkey _

theorem forget_other (h : Mirrors key twins s t) (hk : k ≠ key) :
    Mirrors key twins (s.forget k) t :=
  ⟨h.flights.forget_other hk, h.waiting, h.apart, h.told_other (e := .forgot k) hk⟩

theorem other (h : Mirrors key twins s t) {action : Action} (hk : action.key ≠ key) :
    Mirrors key twins (s.act action) t := by
  cases action with
  | enter name k supplied => exact h.enter_other hk name supplied
  | supply k i result => exact h.supply_other hk i result
  | poll k i => exact h.poll_other hk i
  | drop k i => exact h.drop_other hk i
  | forget k => exact h.forget_other hk

/-! ### Every course -/

theorem run (h : Mirrors key twins s t) (actions : List Action) :
    ∃ twins', Mirrors key twins' (actions.foldl Course.act s)
      ((actions.filter fun a => a.key == key).foldl Course.act t) := by
  induction actions generalizing twins s t with
  | nil => exact ⟨twins, h⟩
  | cons action rest ih =>
    by_cases hk : action.key = key
    · obtain ⟨twins', h'⟩ := h.same hk
      rw [List.filter_cons_of_pos (p := fun a : Action => a.key == key) (beq_iff_eq.mpr hk)]
      exact ih h'
    · rw [List.filter_cons_of_neg (p := fun a : Action => a.key == key)
        (by rw [beq_iff_eq]; exact hk)]
      exact ih (h.other hk)

end Mirrors

/-- **Keys keep apart.** However far a course has gone, the callers of a key have seen in it what
they see if all steps of other keys are left out: they took the same parts, ended with the same
results and wait alike, and the key is in flight in both or in neither. -/
theorem course_keeps_apart (actions : List Action) (key : String) (n : Nat) :
    SeesAlone key (Course.run (actions.take n))
      (Course.run ((actions.take n).filter fun a => a.key == key)) := by
  obtain ⟨twins, h⟩ := (Mirrors.start key).run (actions.take n)
  exact h.seesAlone

/-- The second key leads a call of its own, which is the first one if its callers are alone. -/
example : ((Course.run [.enter "a" "x" none, .enter "b" "y" none]).callers.waiting.map
      fun c => (c.name, c.call)) = [("a", 0), ("b", 1)] ∧
    ((Course.run [.enter "b" "y" none]).callers.waiting.map
      fun c => (c.name, c.call)) = [("b", 0)] := by decide +kernel

end Callers

end SingleFlight

end GovernanceCache
