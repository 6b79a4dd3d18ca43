import GovernanceCache.Proofs.Chronicle
import GovernanceCache.Proofs.Flights
import GovernanceCache.SingleFlight.Callers

/-!
# The course of the callers of single flights

A course is any sequence of steps of callers over any keys: a caller enters, the work of a caller
ends, a caller is polled or dropped, a key is forgotten. Its chronicle tells what happened to whom,
and the law says what may happen given what did:

1. A caller leads exactly if its key has no registered call, and its call is a new one; otherwise it
   follows the registered call, whose leader is under way.
2. A leader ends with the result of its work, and no call ends twice.
3. A follower ends with the result of the leader of its call, or with the fault of an abandoned
   call once that leader was dropped; it stays only while its leader is under way.
-/

namespace GovernanceCache.SingleFlight

/-- The caller leads the call under the key. -/
def Caller.Leads (c : Caller) (key : String) (call : Nat) : Prop :=
  c.role = .leader ∧ c.key = key ∧ c.call = call

/-- The key and the call that the caller leads. -/
def Caller.lead? (c : Caller) : Option (String × Nat) :=
  match c.role with
  | .leader => some (c.key, c.call)
  | .follower => none

namespace Callers

/-- What happened to a caller. -/
inductive Event where
  | entered (c : Caller)
  /-- It was polled and waits on. -/
  | stayed (c : Caller)
  | ended (c : Caller) (result : Outcome)
  | dropped (c : Caller)
  | forgot (key : String)

/-- A step of the callers. Those who wait for one key are counted in the order of their entry. -/
inductive Action where
  | enter (name key : String) (supplied : Option Outcome)
  | supply (key : String) (i : Nat) (result : Outcome)
  | poll (key : String) (i : Nat)
  | drop (key : String) (i : Nat)
  | forget (key : String)

/-- The callers and what happened so far, the newest first. -/
structure Course where
  callers : Callers := {}
  events : List Event := []

/-- The caller that enters. -/
def entrant (flights : SingleFlight Outcome) (name key : String) (supplied : Option Outcome) :
    Caller :=
  { name, key, role := (flights.enter key).2.1, call := (flights.enter key).2.2, supplied }

/-- What a poll does to a caller, told by those whom it ended. -/
def Event.ofPoll (c : Caller) : List Ended → Event
  | [] => .stayed c
  | e :: _ => .ended c e.result

namespace Course

/-- The `i`-th caller that waits for a key. -/
def pick? (s : Course) (key : String) (i : Nat) : Option (List Caller × Caller × List Caller) :=
  Waiting.pick? (fun c => c.key == key) i s.callers.waiting

/-- A caller enters. -/
def enter (s : Course) (name key : String) (supplied : Option Outcome) : Course :=
  { callers := s.callers.enter name key supplied
    events := .entered (entrant s.callers.flights name key supplied) :: s.events }

/-- The work of a caller ends. -/
def supply (s : Course) (key : String) (i : Nat) (result : Outcome) : Course :=
  match s.pick? key i with
  | some (before, c, after) =>
    if c.supplied.isNone then
      { s with callers :=
          { s.callers with waiting := before ++ { c with supplied := some result } :: after } }
    else s
  | none => s

/-- A caller is polled. -/
def poll (s : Course) (key : String) (i : Nat) : Course :=
  match s.pick? key i with
  | some (before, c, after) =>
    let (flights, stays, ended) := pollCaller s.callers.flights c
    { callers := { s.callers with flights, waiting := before ++ stays.toList ++ after }
      events := .ofPoll c ended :: s.events }
  | none => s

/-- A caller is dropped. -/
def drop (s : Course) (key : String) (i : Nat) : Course :=
  match s.pick? key i with
  | some (before, c, after) =>
    { callers :=
        { s.callers with
          flights := release s.callers.flights c
          waiting := before ++ after }
      events := .dropped c :: s.events }
  | none => s

/-- A key is forgotten. -/
def forget (s : Course) (key : String) : Course :=
  { callers := s.callers.forget key, events := .forgot key :: s.events }

/-- The course after one more step; nothing happens if it means nobody. -/
def act (s : Course) : Action → Course
  | .enter name key supplied => s.enter name key supplied
  | .supply key i result => s.supply key i result
  | .poll key i => s.poll key i
  | .drop key i => s.drop key i
  | .forget key => s.forget key

/-- The course of the steps, from the beginning. -/
def run (actions : List Action) : Course := actions.foldl act {}

end Course

/-! ## The law -/

/-- The leader of the call ends or is dropped. -/
def Event.Ends (call : Nat) : Event → Prop
  | ended c _ | dropped c => c.role = .leader ∧ c.call = call
  | _ => False

/-- The call does not stay registered for its key: its leader is gone, a newer leader came, or the
key was forgotten. -/
def Event.TakesOff (key : String) (call : Nat) : Event → Prop
  | entered c => c.role = .leader ∧ c.key = key
  | forgot k => k = key
  | e => e.Ends call

/-- The leader of the call ended or was dropped. -/
def Over (events : List Event) (call : Nat) : Prop := ∃ e ∈ events, e.Ends call

/-- The latest leader of the key leads the call; it is under way and was not forgotten. -/
def Registered (events : List Event) (key : String) (call : Nat) : Prop :=
  ∃ later c earlier, events = later ++ .entered c :: earlier ∧ c.Leads key call ∧
    ∀ e ∈ later, ¬ e.TakesOff key call

/-- What may happen after the earlier events. -/
def Law (earlier : List Event) : Event → Prop
  | .entered c =>
    match c.role with
    | .leader => (∀ call, ¬ Registered earlier c.key call) ∧
        ∀ d, .entered d ∈ earlier → d.call ≠ c.call
    | .follower => Registered earlier c.key c.call ∧ ¬ Over earlier c.call
  | .stayed c => c.role = .follower → ¬ Over earlier c.call
  | .ended c result =>
    match c.role with
    | .leader => c.supplied = some result ∧ ¬ Over earlier c.call
    | .follower =>
      (∃ l : Caller, l.Leads c.key c.call ∧ .ended l result ∈ earlier) ∨
        (∃ l : Caller, l.Leads c.key c.call ∧ .dropped l ∈ earlier) ∧
          result = abandonedResult c.key
  | .dropped c => c.role = .leader → ¬ Over earlier c.call
  | .forgot _ => True

theorem law_entered_leader {earlier : List Event} {c : Caller} (hc : c.role = .leader) :
    Law earlier (.entered c) ↔ (∀ call, ¬ Registered earlier c.key call) ∧
      ∀ d, .entered d ∈ earlier → d.call ≠ c.call := by
  simp only [Law, hc]

theorem law_entered_follower {earlier : List Event} {c : Caller} (hc : c.role = .follower) :
    Law earlier (.entered c) ↔ Registered earlier c.key c.call ∧ ¬ Over earlier c.call := by
  simp only [Law, hc]

theorem law_ended_leader {earlier : List Event} {c : Caller} {result : Outcome}
    (hc : c.role = .leader) :
    Law earlier (.ended c result) ↔ c.supplied = some result ∧ ¬ Over earlier c.call := by
  simp only [Law, hc]

theorem law_ended_follower {earlier : List Event} {c : Caller} {result : Outcome}
    (hc : c.role = .follower) :
    Law earlier (.ended c result) ↔
      (∃ l : Caller, l.Leads c.key c.call ∧ .ended l result ∈ earlier) ∨
        (∃ l : Caller, l.Leads c.key c.call ∧ .dropped l ∈ earlier) ∧
          result = abandonedResult c.key := by
  simp only [Law, hc]

/-- A leader enters, so that its work is run. -/
def Event.isLead : Event → Bool
  | entered c => c.role == .leader
  | _ => false

/-! ## Chronicles that grow -/

variable {e : Event} {events earlier : List Event} {key k name : String} {call n i : Nat}
  {c d : Caller} {flights : SingleFlight Outcome} {result : Outcome} {p : Progress Outcome}

theorem over_cons : Over (e :: events) call ↔ e.Ends call ∨ Over events call := by
  simp only [Over, List.mem_cons, exists_eq_or_imp]

theorem registered_cons :
    Registered (e :: events) key call ↔
      (∃ c : Caller, e = .entered c ∧ c.Leads key call) ∨
        (Registered events key call ∧ ¬ e.TakesOff key call) := by
  constructor
  · rintro ⟨later, c, earlier, heq, hl, hk⟩
    cases later with
    | nil =>
      obtain ⟨rfl, rfl⟩ := List.cons.inj heq
      exact Or.inl ⟨c, rfl, hl⟩
    | cons d later =>
      obtain ⟨rfl, rfl⟩ := List.cons.inj heq
      refine Or.inr ⟨⟨later, c, earlier, rfl, hl, ?_⟩, hk _ List.mem_cons_self⟩
      exact fun x hx => hk x (List.mem_cons_of_mem _ hx)
  · rintro (⟨c, rfl, hl⟩ | ⟨⟨later, c, earlier, rfl, hl, hk⟩, he⟩)
    · exact ⟨[], c, events, rfl, hl, by simp⟩
    · refine ⟨e :: later, c, earlier, rfl, hl, ?_⟩
      intro x hx
      rcases List.mem_cons.mp hx with rfl | hx
      · exact he
      · exact hk x hx

/-- The event concerns no leader and no registration. -/
def Event.IsQuiet (e : Event) : Prop :=
  (∀ n, ¬ e.Ends n) ∧ (∀ k n, ¬ e.TakesOff k n) ∧ ∀ d, e ≠ .entered d

theorem Event.IsQuiet.over_iff (h : e.IsQuiet) : Over (e :: events) n ↔ Over events n := by
  rw [over_cons]
  exact or_iff_right (h.1 n)

theorem Event.IsQuiet.registered (h : e.IsQuiet) :
    Registered (e :: events) k n ↔ Registered events k n := by
  rw [registered_cons]
  constructor
  · rintro (⟨d, rfl, -⟩ | ⟨hr, -⟩)
    · exact absurd rfl (h.2.2 d)
    · exact hr
  · exact fun hr => Or.inr ⟨hr, h.2.1 k n⟩

theorem isQuiet_stayed (c : Caller) : (Event.stayed c).IsQuiet :=
  ⟨fun _ => id, fun _ _ => id, fun _ => nofun⟩

theorem isQuiet_ended (hc : c.role = .follower) (result : Outcome) :
    (Event.ended c result).IsQuiet := by
  refine ⟨?_, ?_, fun _ => nofun⟩
  · rintro n ⟨hl, -⟩
    rw [hc] at hl; cases hl
  · rintro k n ⟨hl, -⟩
    rw [hc] at hl; cases hl

theorem isQuiet_dropped (hc : c.role = .follower) : (Event.dropped c).IsQuiet := by
  refine ⟨?_, ?_, fun _ => nofun⟩
  · rintro n ⟨hl, -⟩
    rw [hc] at hl; cases hl
  · rintro k n ⟨hl, -⟩
    rw [hc] at hl; cases hl

/-- The event by which the leader of a call leaves, with what becomes of the call. -/
def Event.Settles (c : Caller) (p : Progress Outcome) (e : Event) : Prop :=
  (∃ result, p = .finished result ∧ e = .ended c result) ∨ (p = .abandoned ∧ e = .dropped c)

theorem Event.Settles.ne_running (h : e.Settles c p) : p ≠ .running := by
  rcases h with ⟨result, rfl, -⟩ | ⟨rfl, -⟩ <;> nofun

theorem Event.Settles.ends_iff (h : e.Settles c p) (hc : c.role = .leader) :
    e.Ends n ↔ n = c.call := by
  rcases h with ⟨result, -, rfl⟩ | ⟨-, rfl⟩ <;> exact ⟨fun h => h.2.symm, fun h => ⟨hc, h.symm⟩⟩

theorem Event.Settles.takesOff_iff (h : e.Settles c p) (hc : c.role = .leader) :
    e.TakesOff k n ↔ n = c.call := by
  rcases h with ⟨result, -, rfl⟩ | ⟨-, rfl⟩ <;> exact ⟨fun h => h.2.symm, fun h => ⟨hc, h.symm⟩⟩

theorem Event.Settles.ne_entered (h : e.Settles c p) : e ≠ .entered d := by
  rcases h with ⟨result, -, rfl⟩ | ⟨-, rfl⟩ <;> nofun

/-! ## Polling one caller -/

theorem pollCaller_of_supplied (hc : c.role = .leader) (hs : c.supplied = some result) :
    pollCaller flights c =
      (flights.close c.key c.call (.finished result), none, [⟨c.name, c.role, result⟩]) := by
  unfold pollCaller; rw [hc, hs]; rfl

theorem pollCaller_of_result (hc : c.role = .follower)
    (hr : flights.resultFor c.key c.call = some result) :
    pollCaller flights c = (flights, none, [⟨c.name, c.role, result⟩]) := by
  unfold pollCaller; rw [hc, hr]

theorem pollCaller_of_not_supplied (hc : c.role = .leader) (hs : c.supplied = none) :
    pollCaller flights c = (flights, some c, []) := by
  unfold pollCaller; rw [hc, hs]

theorem pollCaller_of_no_result (hc : c.role = .follower)
    (hr : flights.resultFor c.key c.call = none) :
    pollCaller flights c = (flights, some c, []) := by
  unfold pollCaller; rw [hc, hr]

theorem resultFor_of_running (h : flights.progress[call]? = some .running) :
    flights.resultFor key call = none := by
  unfold resultFor progressOf; rw [h]; rfl

theorem resultFor_of_finished (h : flights.progress[call]? = some (.finished result)) :
    flights.resultFor key call = some result := by
  unfold resultFor progressOf; rw [h]; rfl

theorem resultFor_of_abandoned (h : flights.progress[call]? = some .abandoned) :
    flights.resultFor key call = some (abandonedResult key) := by
  unfold resultFor progressOf; rw [h]; rfl

/-! ## The invariant -/

/-- How it stands with a call that someone follows: its leader is under way, or left its result. -/
def Fate (flights : SingleFlight Outcome) (leads : List (String × Nat)) (events : List Event)
    (key : String) (call : Nat) : Prop :=
  (key, call) ∈ leads ∨
    (∃ l : Caller, ∃ result, l.Leads key call ∧ .ended l result ∈ events ∧
      flights.progress[call]? = some (.finished result)) ∨
    ∃ l : Caller, l.Leads key call ∧ .dropped l ∈ events ∧
      flights.progress[call]? = some .abandoned

theorem Fate.note {leads : List (String × Nat)} (h : Fate flights leads events key call)
    (e : Event) : Fate flights leads (e :: events) key call := by
  rcases h with h | ⟨l, result, hl, hm, hp⟩ | ⟨l, hl, hm, hp⟩
  · exact Or.inl h
  · exact Or.inr (Or.inl ⟨l, result, hl, List.mem_cons_of_mem _ hm, hp⟩)
  · exact Or.inr (Or.inr ⟨l, hl, List.mem_cons_of_mem _ hm, hp⟩)

theorem Fate.lead {leads : List (String × Nat)} (h : Fate flights leads events key call)
    (hled : Led flights leads) (l : String × Nat) (e : Event) :
    Fate (flights.lead k) (leads ++ [l]) (e :: events) key call := by
  rcases h.note e with hl | ⟨l, result, hl, hm, hp⟩ | ⟨l, hl, hm, hp⟩
  · exact Or.inl (List.mem_append_left _ hl)
  · exact Or.inr (Or.inl ⟨l, result, hl, hm, hled.lead_keeps hp k⟩)
  · exact Or.inr (Or.inr ⟨l, hl, hm, hled.lead_keeps hp k⟩)

/-- A leader leaves, and those who follow it find its result. -/
theorem Fate.close {l₁ l₂ : List (String × Nat)}
    (h : Fate flights (l₁ ++ (c.key, c.call) :: l₂) events key call)
    (hrun : flights.progress[c.call]? = some .running) (hc : c.role = .leader)
    (he : e.Settles c p) :
    Fate (flights.close c.key c.call p) (l₁ ++ l₂) (e :: events) key call := by
  unfold Fate
  rw [close_progress]
  rcases h with hl | ⟨l, result, hl, hm, hp⟩ | ⟨l, hl, hm, hp⟩
  · rcases Waiting.eq_or_mem_rest hl with heq | hl
    · -- it is the leader of this very call
      obtain ⟨hkey, hcall⟩ := Prod.mk.inj heq
      rw [if_pos hcall.symm]
      rcases he with ⟨result, rfl, rfl⟩ | ⟨rfl, rfl⟩
      · exact Or.inr (Or.inl ⟨c, result, ⟨hc, hkey.symm, hcall.symm⟩, List.mem_cons_self, rfl⟩)
      · exact Or.inr (Or.inr ⟨c, ⟨hc, hkey.symm, hcall.symm⟩, List.mem_cons_self, rfl⟩)
    · exact Or.inl hl
  · have hne : c.call ≠ call := by
      rintro rfl
      rw [hrun] at hp; cases hp
    rw [if_neg hne]
    exact Or.inr (Or.inl ⟨l, result, hl, List.mem_cons_of_mem _ hm, hp⟩)
  · have hne : c.call ≠ call := by
      rintro rfl
      rw [hrun] at hp; cases hp
    rw [if_neg hne]
    exact Or.inr (Or.inr ⟨l, hl, List.mem_cons_of_mem _ hm, hp⟩)

/-- What holds of every course. -/
structure Sound (s : Course) : Prop where
  led : Led s.callers.flights (s.callers.waiting.filterMap Caller.lead?)
  fates : ∀ c ∈ s.callers.waiting, c.role = .follower →
    Fate s.callers.flights (s.callers.waiting.filterMap Caller.lead?) s.events c.key c.call
  registered : ∀ key call,
    s.callers.flights.current[key]? = some call ↔ Registered s.events key call
  ended : ∀ call, Over s.events call →
    ∃ p, s.callers.flights.progress[call]? = some p ∧ p ≠ .running
  numbered : ∀ c, .entered c ∈ s.events → c.call < s.callers.flights.next
  lawful : Chronicle Law s.events
  counted : s.callers.runs = s.events.countP Event.isLead

theorem lead?_of_leader (hc : c.role = .leader) : c.lead? = some (c.key, c.call) := by
  unfold Caller.lead?; rw [hc]

theorem lead?_of_follower (hc : c.role = .follower) : c.lead? = none := by
  unfold Caller.lead?; rw [hc]

theorem leads_of_leader (hc : c.role = .leader) (before after : List Caller) :
    (before ++ c :: after).filterMap Caller.lead? =
      before.filterMap Caller.lead? ++ (c.key, c.call) :: after.filterMap Caller.lead? := by
  rw [List.filterMap_append, List.filterMap_cons_some (lead?_of_leader hc)]

theorem leads_of_follower (hc : c.role = .follower) (before after : List Caller) :
    (before ++ c :: after).filterMap Caller.lead? = (before ++ after).filterMap Caller.lead? := by
  rw [List.filterMap_append, List.filterMap_append,
    List.filterMap_cons_none (lead?_of_follower hc)]

namespace Sound

variable {s : Course} {before after : List Caller}

theorem start : Sound {} where
  led := Led.empty
  fates c hc := by simp at hc
  registered key call := by simp [Registered]
  ended call h := by simp [Over] at h
  numbered c hc := by simp at hc
  lawful := trivial
  counted := rfl

theorem not_over_of_lead (h : Sound s)
    (hl : (key, call) ∈ s.callers.waiting.filterMap Caller.lead?) : ¬ Over s.events call := by
  intro ho
  obtain ⟨p, hp, hne⟩ := h.ended call ho
  rw [h.led.running _ hl] at hp
  exact hne (Option.some.inj hp).symm

/-- The callers who wait may change as long as they lead and follow the same calls. -/
theorem rewait (h : Sound s) (waiting : List Caller)
    (hl : waiting.filterMap Caller.lead? = s.callers.waiting.filterMap Caller.lead?)
    (hf : ∀ c ∈ waiting, c.role = .follower →
      ∃ d ∈ s.callers.waiting, d.role = .follower ∧ d.key = c.key ∧ d.call = c.call) :
    Sound { s with callers := { s.callers with waiting } } where
  led := by
    show Led s.callers.flights (waiting.filterMap Caller.lead?)
    rw [hl]; exact h.led
  fates c hc hrole := by
    obtain ⟨d, hd, hdrole, hkey, hcall⟩ := hf c hc hrole
    show Fate _ (waiting.filterMap Caller.lead?) _ _ _
    rw [hl, ← hkey, ← hcall]
    exact h.fates d hd hdrole
  registered := h.registered
  ended := h.ended
  numbered := h.numbered
  lawful := h.lawful
  counted := h.counted

theorem note (h : Sound s) (hq : e.IsQuiet) (hlaw : Law s.events e) :
    Sound { s with events := e :: s.events } where
  led := h.led
  fates c hc hrole := (h.fates c hc hrole).note e
  registered key call := (h.registered key call).trans hq.registered.symm
  ended call ho := h.ended call (hq.over_iff.mp ho)
  numbered c hc := by
    rcases List.mem_cons.mp hc with hc | hc
    · exact absurd hc.symm (hq.2.2 c)
    · exact h.numbered c hc
  lawful := ⟨hlaw, h.lawful⟩
  counted := by
    have he : e.isLead = false := by
      cases e with
      | entered c => exact absurd rfl (hq.2.2 c)
      | _ => rfl
    rw [List.countP_cons_of_neg (by rw [he]; nofun)]
    exact h.counted

theorem leave_follower (h : Sound s) (hw : s.callers.waiting = before ++ c :: after)
    (hc : c.role = .follower) (hq : e.IsQuiet) (hlaw : Law s.events e) :
    Sound
      { callers := { s.callers with waiting := before ++ after }
        events := e :: s.events } := by
  refine (h.rewait (before ++ after) ?_ ?_).note hq hlaw
  · rw [hw, leads_of_follower hc]
  · intro d hd hrole
    exact ⟨d, Waiting.mem_of_mem_rest hw hd, hrole, rfl, rfl⟩

/-- A leader leaves: its followers find its result, and its call is off the key. -/
theorem leave_leader (h : Sound s) (hw : s.callers.waiting = before ++ c :: after)
    (hc : c.role = .leader) (he : e.Settles c p) (hlaw : Law s.events e) :
    Sound
      { callers :=
          { s.callers with
            flights := s.callers.flights.close c.key c.call p
            waiting := before ++ after }
        events := e :: s.events } := by
  have hleads : s.callers.waiting.filterMap Caller.lead? =
      before.filterMap Caller.lead? ++ (c.key, c.call) :: after.filterMap Caller.lead? := by
    rw [hw, leads_of_leader hc]
  have hled := h.led
  rw [hleads] at hled
  have hmem : (c.key, c.call) ∈ s.callers.waiting.filterMap Caller.lead? := by
    rw [hleads]; simp
  have hrun := h.led.running _ hmem
  refine ⟨?_, ?_, ?_, ?_, ?_, ⟨hlaw, h.lawful⟩, ?_⟩
  · show Led _ ((before ++ after).filterMap Caller.lead?)
    rw [List.filterMap_append]
    exact hled.close p
  · intro d hd hrole
    have hfate := h.fates d (Waiting.mem_of_mem_rest hw hd) hrole
    rw [hleads] at hfate
    show Fate _ ((before ++ after).filterMap Caller.lead?) _ _ _
    rw [List.filterMap_append]
    exact hfate.close hrun hc he
  · intro k n
    rw [close_current_eq_some, registered_cons, he.takesOff_iff hc, ← h.registered k n]
    constructor
    · rintro ⟨hn, hnot⟩
      refine Or.inr ⟨hn, ?_⟩
      rintro rfl
      exact hnot ⟨h.led.key_unique (h.led.registered _ _ hn) hmem, rfl⟩
    · rintro (⟨d, hd, -⟩ | ⟨hn, hne⟩)
      · exact absurd hd he.ne_entered
      · exact ⟨hn, fun hkn => hne hkn.2⟩
  · intro n hn
    rw [over_cons, he.ends_iff hc] at hn
    show ∃ q, (s.callers.flights.close c.key c.call p).progress[n]? = some q ∧ q ≠ .running
    rw [close_progress]
    rcases hn with rfl | hn
    · exact ⟨p, if_pos rfl, he.ne_running⟩
    · split
      · exact ⟨p, rfl, he.ne_running⟩
      · exact h.ended n hn
  · intro d hd
    rcases List.mem_cons.mp hd with hd | hd
    · exact absurd hd.symm he.ne_entered
    · show d.call < (s.callers.flights.close c.key c.call p).next
      rw [close_next]
      exact h.numbered d hd
  · have hlead : e.isLead = false := by
      rcases he with ⟨result, -, rfl⟩ | ⟨-, rfl⟩ <;> rfl
    rw [List.countP_cons_of_neg (by rw [hlead]; nofun)]
    exact h.counted

/-! ### Entering -/

/-- A caller of a key with a registered call follows that call. -/
theorem enter_follower (h : Sound s) (hk : s.callers.flights.current[key]? = some call)
    (supplied : Option Outcome) : Sound (s.enter name key supplied) := by
  obtain ⟨c, hdef⟩ : ∃ c : Caller, c = { name, key, role := .follower, call, supplied } := ⟨_, rfl⟩
  have hrole : c.role = .follower := by rw [hdef]
  have hact : s.enter name key supplied =
      { callers := { s.callers with waiting := s.callers.waiting ++ [c] }
        events := .entered c :: s.events } := by
    unfold Course.enter Callers.enter entrant
    rw [enter_of_registered hk, hdef]
    rfl
  have hkey : c.key = key := by rw [hdef]
  have hcall : c.call = call := by rw [hdef]
  have hleads : (s.callers.waiting ++ [c]).filterMap Caller.lead? =
      s.callers.waiting.filterMap Caller.lead? := by
    rw [leads_of_follower hrole, List.append_nil]
  have hlead := h.led.registered key call hk
  have hlaw : Law s.events (.entered c) := by
    rw [law_entered_follower hrole, hkey, hcall]
    exact ⟨(h.registered key call).mp hk, h.not_over_of_lead hlead⟩
  rw [hact]
  refine ⟨?_, ?_, ?_, ?_, ?_, ⟨hlaw, h.lawful⟩, ?_⟩
  · show Led _ ((s.callers.waiting ++ [c]).filterMap Caller.lead?)
    rw [hleads]
    exact h.led
  · intro d hd hdrole
    show Fate _ ((s.callers.waiting ++ [c]).filterMap Caller.lead?) _ _ _
    rw [hleads]
    rcases List.mem_append.mp hd with hd | hd
    · exact (h.fates d hd hdrole).note _
    · obtain rfl := List.mem_singleton.mp hd
      rw [hkey, hcall]
      exact Or.inl hlead
  · intro k n
    rw [registered_cons, ← h.registered k n]
    constructor
    · exact fun hr => Or.inr ⟨hr, fun ht => by rw [ht.1] at hrole; cases hrole⟩
    · rintro (⟨d, hd, hl⟩ | ⟨hr, -⟩)
      · obtain rfl := Event.entered.inj hd
        rw [hl.1] at hrole; cases hrole
      · exact hr
  · intro n hn
    rw [over_cons] at hn
    exact h.ended n (hn.resolve_left id)
  · intro d hd
    rcases List.mem_cons.mp hd with hd | hd
    · obtain rfl := Event.entered.inj hd
      rw [hcall]
      exact h.led.call_lt hlead
    · exact h.numbered d hd
  · rw [List.countP_cons_of_neg (by simp [Event.isLead, hrole])]
    exact h.counted

/-- A caller of a key without a registered call leads a new one. -/
theorem enter_leader (h : Sound s) (hk : s.callers.flights.current[key]? = none)
    (supplied : Option Outcome) : Sound (s.enter name key supplied) := by
  obtain ⟨c, hdef⟩ : ∃ c : Caller,
      c = { name, key, role := .leader, call := s.callers.flights.next, supplied } := ⟨_, rfl⟩
  have hrole : c.role = .leader := by rw [hdef]
  have hact : s.enter name key supplied =
      { callers :=
          { flights := s.callers.flights.lead key
            waiting := s.callers.waiting ++ [c]
            runs := s.callers.runs + 1 }
        events := .entered c :: s.events } := by
    unfold Course.enter Callers.enter entrant
    rw [enter_of_free hk, hdef]
    rfl
  have hkey : c.key = key := by rw [hdef]
  have hcall : c.call = s.callers.flights.next := by rw [hdef]
  have hleads : (s.callers.waiting ++ [c]).filterMap Caller.lead? =
      s.callers.waiting.filterMap Caller.lead? ++ [(key, s.callers.flights.next)] := by
    rw [leads_of_leader hrole, hkey, hcall, List.filterMap_nil]
  have hlaw : Law s.events (.entered c) := by
    rw [law_entered_leader hrole, hkey, hcall]
    refine ⟨?_, ?_⟩
    · intro n hn
      rw [← h.registered key n, hk] at hn
      cases hn
    · intro d hd
      have := h.numbered d hd
      omega
  rw [hact]
  refine ⟨?_, ?_, ?_, ?_, ?_, ⟨hlaw, h.lawful⟩, ?_⟩
  · show Led _ ((s.callers.waiting ++ [c]).filterMap Caller.lead?)
    rw [hleads]
    exact (h.led.lead key).perm (List.perm_append_singleton _ _).symm
  · intro d hd hdrole
    show Fate (s.callers.flights.lead key) ((s.callers.waiting ++ [c]).filterMap Caller.lead?) _ _ _
    rw [hleads]
    rcases List.mem_append.mp hd with hd | hd
    · exact Fate.lead (h.fates d hd hdrole) h.led _ _
    · obtain rfl := List.mem_singleton.mp hd
      rw [hrole] at hdrole; cases hdrole
  · intro k n
    show (s.callers.flights.lead key).current[k]? = some n ↔ _
    rw [registered_cons, lead_current]
    by_cases hkk : key = k
    · subst hkk
      rw [if_pos rfl]
      constructor
      · rintro hn
        exact Or.inl ⟨c, rfl, hrole, hkey, hcall.trans (Option.some.inj hn)⟩
      · rintro (⟨d, hd, hl⟩ | ⟨hr, -⟩)
        · obtain rfl := Event.entered.inj hd
          rw [← hl.2.2, hcall]
        · rw [← h.registered key n, hk] at hr
          cases hr
    · rw [if_neg hkk, h.registered k n]
      constructor
      · exact fun hr => Or.inr ⟨hr, fun ht => hkk (hkey.symm.trans ht.2)⟩
      · rintro (⟨d, hd, hl⟩ | ⟨hr, -⟩)
        · obtain rfl := Event.entered.inj hd
          exact absurd (hkey.symm.trans hl.2.1) hkk
        · exact hr
  · intro n hn
    rw [over_cons] at hn
    obtain ⟨p, hp, hne⟩ := h.ended n (hn.resolve_left id)
    exact ⟨p, h.led.lead_keeps hp key, hne⟩
  · intro d hd
    show d.call < (s.callers.flights.lead key).next
    rw [lead_next]
    rcases List.mem_cons.mp hd with hd | hd
    · obtain rfl := Event.entered.inj hd
      omega
    · have := h.numbered d hd
      omega
  · show s.callers.runs + 1 = _
    rw [List.countP_cons_of_pos (by simp [Event.isLead, hrole]), h.counted]

/-! ### The other steps -/

theorem supply (h : Sound s) (key : String) (i : Nat) (result : Outcome) :
    Sound (s.supply key i result) := by
  unfold Course.supply
  split
  · rename_i before c after hpick
    have hw := Waiting.eq_append_of_pick? hpick
    split
    · refine h.rewait _ ?_ ?_
      · rw [hw, List.filterMap_append, List.filterMap_append, List.filterMap_cons,
          List.filterMap_cons]
        rfl
      · intro d hd hrole
        rcases Waiting.eq_or_mem_rest hd with rfl | hd
        · exact ⟨c, Waiting.mem_of_split hw, hrole, rfl, rfl⟩
        · exact ⟨d, Waiting.mem_of_mem_rest hw hd, hrole, rfl, rfl⟩
    · exact h
  · exact h

theorem poll (h : Sound s) (key : String) (i : Nat) : Sound (s.poll key i) := by
  unfold Course.poll
  split
  · rename_i before c after hpick
    have hw := Waiting.eq_append_of_pick? hpick
    rcases hrole : c.role with _ | _
    · rcases hs : c.supplied with _ | result
      · rw [pollCaller_of_not_supplied hrole hs]
        have hstay := h.note (isQuiet_stayed c) (fun hf => by rw [hrole] at hf; cases hf)
        simpa [Event.ofPoll, ← hw] using hstay
      · rw [pollCaller_of_supplied hrole hs]
        have hlead : (c.key, c.call) ∈ s.callers.waiting.filterMap Caller.lead? := by
          rw [hw, leads_of_leader hrole]; simp
        have hover := h.not_over_of_lead hlead
        have hleave := h.leave_leader hw hrole (Or.inl ⟨result, rfl, rfl⟩)
          ((law_ended_leader hrole).mpr ⟨hs, hover⟩)
        simpa [Event.ofPoll] using hleave
    · have hfate := h.fates c (Waiting.mem_of_split hw) hrole
      rcases hr : s.callers.flights.resultFor c.key c.call with _ | result
      · rw [pollCaller_of_no_result hrole hr]
        have hover : ¬ Over s.events c.call := by
          rcases hfate with hl | ⟨l, result, hl, hm, hp⟩ | ⟨l, hl, hm, hp⟩
          · exact h.not_over_of_lead hl
          · rw [resultFor_of_finished hp] at hr; cases hr
          · rw [resultFor_of_abandoned hp] at hr; cases hr
        have hstay := h.note (isQuiet_stayed c) (fun _ => hover)
        simpa [Event.ofPoll, ← hw] using hstay
      · rw [pollCaller_of_result hrole hr]
        have hlaw : Law s.events (.ended c result) := by
          rw [law_ended_follower hrole]
          rcases hfate with hl | ⟨l, result', hl, hm, hp⟩ | ⟨l, hl, hm, hp⟩
          · rw [resultFor_of_running (h.led.running _ hl)] at hr; cases hr
          · rw [resultFor_of_finished hp] at hr
            obtain rfl := Option.some.inj hr
            exact Or.inl ⟨l, hl, hm⟩
          · rw [resultFor_of_abandoned hp] at hr
            exact Or.inr ⟨⟨l, hl, hm⟩, (Option.some.inj hr).symm⟩
        have hleave := h.leave_follower hw hrole (isQuiet_ended hrole result) hlaw
        simpa [Event.ofPoll] using hleave
  · exact h

theorem drop (h : Sound s) (key : String) (i : Nat) : Sound (s.drop key i) := by
  unfold Course.drop
  split
  · rename_i before c after hpick
    have hw := Waiting.eq_append_of_pick? hpick
    unfold release
    rcases hrole : c.role with _ | _
    · have hlead : (c.key, c.call) ∈ s.callers.waiting.filterMap Caller.lead? := by
        rw [hw, leads_of_leader hrole]; simp
      have hover := h.not_over_of_lead hlead
      exact h.leave_leader hw hrole (Or.inr ⟨rfl, rfl⟩) (fun _ => hover)
    · exact h.leave_follower hw hrole (isQuiet_dropped hrole)
        (fun hl => by rw [hrole] at hl; cases hl)
  · exact h

theorem forget (h : Sound s) (key : String) : Sound (s.forget key) := by
  unfold Course.forget
  refine ⟨h.led.forget key, ?_, ?_, ?_, ?_, ⟨trivial, h.lawful⟩, ?_⟩
  · exact fun c hc hrole => (h.fates c hc hrole).note _
  · intro k n
    show (s.callers.flights.forget key).current[k]? = some n ↔ _
    rw [forget_current_eq_some, registered_cons, h.registered k n]
    constructor
    · exact fun hr => Or.inr ⟨hr.1, fun ht => hr.2 (Eq.symm ht)⟩
    · rintro (⟨d, hd, -⟩ | ⟨hr, hnot⟩)
      · cases hd
      · exact ⟨hr, fun hk => hnot hk.symm⟩
  · intro n hn
    rw [over_cons] at hn
    exact h.ended n (hn.resolve_left id)
  · intro d hd
    rcases List.mem_cons.mp hd with hd | hd
    · cases hd
    · exact h.numbered d hd
  · rw [List.countP_cons_of_neg (by simp [Event.isLead])]
    exact h.counted

theorem act (h : Sound s) (action : Action) : Sound (s.act action) := by
  cases action with
  | enter name key supplied =>
    rcases hk : s.callers.flights.current[key]? with _ | call
    · exact h.enter_leader hk supplied
    · exact h.enter_follower hk supplied
  | supply key i result => exact h.supply key i result
  | poll key i => exact h.poll key i
  | drop key i => exact h.drop key i
  | forget key => exact h.forget key

theorem run (actions : List Action) : Sound (Course.run actions) := by
  suffices ∀ s, Sound s → Sound (actions.foldl Course.act s) from this _ start
  induction actions with
  | nil => exact fun _ h => h
  | cons action rest ih => exact fun s h => ih _ (h.act action)

end Sound

/-- **Single flights.** In every course of callers over any keys each event obeys the law; a key is
in flight exactly if its latest leader is under way and was not forgotten; and work was begun once
for each caller that led. -/
theorem course_obeys_law (actions : List Action) :
    Chronicle Law (Course.run actions).events ∧
      (∀ key, (Course.run actions).callers.flights.inFlight key = true ↔
        ∃ call, Registered (Course.run actions).events key call) ∧
      (Course.run actions).callers.runs = (Course.run actions).events.countP Event.isLead := by
  have h := Sound.run actions
  refine ⟨h.lawful, ?_, h.counted⟩
  intro key
  unfold inFlight
  rw [Std.ExtTreeMap.contains_eq_isSome_getElem?, Option.isSome_iff_exists]
  exact exists_congr fun call => h.registered key call

end Callers

end GovernanceCache.SingleFlight
