import GovernanceCache.SingleFlight
import GovernanceCache.Waiting
import Mathlib.Data.List.Nodup
import Mathlib.Data.List.Perm.Basic

/-!
# The leaders of a single flight

`Led flights leads` says that `leads` are the leaders under way, each with its key and its call:
their calls are distinct and running, and whatever call a key has registered is led by one of them.
Every operation keeps this when `leads` follows it: entering a free key adds a leader, and finishing
or abandoning a call takes its leader away.
-/

namespace GovernanceCache.SingleFlight

variable {ρ : Type} {flights : SingleFlight ρ} {key k : String} {call n : Nat} {p : Progress ρ}

/-- The flights after the leader of a call is gone: the call is off its key, and settled. -/
def close (flights : SingleFlight ρ) (key : String) (call : Nat) (p : Progress ρ) :
    SingleFlight ρ :=
  { flights.unregister key call with
    progress := (flights.unregister key call).progress.insert call p }

/-- The flights after a new call of a key got its leader. -/
def lead (flights : SingleFlight ρ) (key : String) : SingleFlight ρ :=
  { current := flights.current.insert key flights.next
    progress := flights.progress.insert flights.next .running
    next := flights.next + 1 }

theorem finish_eq_close (flights : SingleFlight ρ) (key : String) (call : Nat) (result : ρ) :
    flights.finish key call result = flights.close key call (.finished result) := rfl

theorem enter_of_registered (h : flights.current[key]? = some call) :
    flights.enter key = (flights, .follower, call) := by
  unfold enter; rw [h]

theorem enter_of_free (h : flights.current[key]? = none) :
    flights.enter key = (flights.lead key, .leader, flights.next) := by
  unfold enter; rw [h]; rfl

theorem of_enter_leader {entered : SingleFlight ρ}
    (h : flights.enter key = (entered, .leader, call)) :
    flights.current[key]? = none ∧ entered = flights.lead key ∧ call = flights.next := by
  rcases hk : flights.current[key]? with _ | n
  · rw [enter_of_free hk] at h
    cases h
    exact ⟨rfl, rfl, rfl⟩
  · rw [enter_of_registered hk] at h
    cases h

theorem of_enter_follower {entered : SingleFlight ρ}
    (h : flights.enter key = (entered, .follower, call)) : flights.current[key]? = some call := by
  rcases hk : flights.current[key]? with _ | n
  · rw [enter_of_free hk] at h
    cases h
  · rw [enter_of_registered hk] at h
    cases h
    rfl

/-! ## What the operations do to a key and to a call -/

theorem lead_current (flights : SingleFlight ρ) (key k : String) :
    (flights.lead key).current[k]? =
      if key = k then some flights.next else flights.current[k]? := by
  simp only [lead, Std.ExtTreeMap.getElem?_insert, Std.compare_eq_iff_eq]

theorem lead_progress (flights : SingleFlight ρ) (key : String) (n : Nat) :
    (flights.lead key).progress[n]? =
      if flights.next = n then some .running else flights.progress[n]? := by
  simp only [lead, Std.ExtTreeMap.getElem?_insert, Std.compare_eq_iff_eq]

@[simp] theorem lead_next (flights : SingleFlight ρ) (key : String) :
    (flights.lead key).next = flights.next + 1 := rfl

theorem unregister_current_eq_some :
    (flights.unregister key call).current[k]? = some n ↔
      flights.current[k]? = some n ∧ ¬ (k = key ∧ n = call) := by
  unfold unregister
  split
  · rename_i h
    simp only [Std.ExtTreeMap.getElem?_erase, Std.compare_eq_iff_eq]
    by_cases hk : key = k
    · subst hk
      simp [h, eq_comm]
    · simp [hk, Ne.symm hk]
  · rename_i h
    constructor
    · intro hn
      refine ⟨hn, ?_⟩
      rintro ⟨rfl, rfl⟩
      exact h hn
    · exact And.left

theorem unregister_progress (flights : SingleFlight ρ) (key : String) (call : Nat) :
    (flights.unregister key call).progress = flights.progress := by
  unfold unregister; split <;> rfl

theorem unregister_next (flights : SingleFlight ρ) (key : String) (call : Nat) :
    (flights.unregister key call).next = flights.next := by
  unfold unregister; split <;> rfl

theorem close_current_eq_some :
    (flights.close key call p).current[k]? = some n ↔
      flights.current[k]? = some n ∧ ¬ (k = key ∧ n = call) := unregister_current_eq_some

theorem close_progress (flights : SingleFlight ρ) (key : String) (call n : Nat) (p : Progress ρ) :
    (flights.close key call p).progress[n]? =
      if call = n then some p else flights.progress[n]? := by
  simp only [close, unregister_progress, Std.ExtTreeMap.getElem?_insert, Std.compare_eq_iff_eq]

@[simp] theorem close_next (flights : SingleFlight ρ) (key : String) (call : Nat)
    (p : Progress ρ) : (flights.close key call p).next = flights.next :=
  flights.unregister_next key call

theorem forget_current_eq_some :
    (flights.forget key).current[k]? = some n ↔ flights.current[k]? = some n ∧ k ≠ key := by
  simp only [forget, Std.ExtTreeMap.getElem?_erase, Std.compare_eq_iff_eq]
  by_cases hk : key = k
  · simp [hk]
  · simp [hk, Ne.symm hk]

/-! ## Leaders under way -/

/-- The leaders under way are the given ones, each with its key and its call. -/
structure Led (flights : SingleFlight ρ) (leads : List (String × Nat)) : Prop where
  /-- No two of them lead one call. -/
  distinct : (leads.map Prod.snd).Nodup
  /-- Their calls run. -/
  running : ∀ l ∈ leads, flights.progress[l.2]? = some .running
  /-- The call that a key has registered is led under that key. -/
  registered : ∀ key call, flights.current[key]? = some call → (key, call) ∈ leads
  /-- Calls are numbered in turn. -/
  bounded : ∀ call, flights.progress[call]?.isSome → call < flights.next

namespace Led

variable {leads leads' l₁ l₂ : List (String × Nat)}

theorem empty : Led ({} : SingleFlight ρ) [] where
  distinct := List.nodup_nil
  running l h := by simp at h
  registered key call h := by simp at h
  bounded call h := by simp at h

theorem perm (h : Led flights leads) (hp : leads.Perm leads') : Led flights leads' where
  distinct := (hp.map Prod.snd).nodup_iff.mp h.distinct
  running l hl := h.running l (hp.mem_iff.mpr hl)
  registered key call hc := hp.mem_iff.mp (h.registered key call hc)
  bounded := h.bounded

theorem call_lt (h : Led flights leads) {l : String × Nat} (hl : l ∈ leads) :
    l.2 < flights.next := h.bounded _ (by rw [h.running l hl]; rfl)

theorem lead_keeps (h : Led flights leads) {n : Nat} {p : Progress ρ}
    (hp : flights.progress[n]? = some p) (key : String) :
    (flights.lead key).progress[n]? = some p := by
  have := h.bounded n (by rw [hp]; rfl)
  rw [lead_progress, if_neg (by omega), hp]

theorem key_unique (h : Led flights leads) {key₁ key₂ : String} (h₁ : (key₁, call) ∈ leads)
    (h₂ : (key₂, call) ∈ leads) : key₁ = key₂ := by
  have := List.inj_on_of_nodup_map h.distinct h₁ h₂ rfl
  exact congrArg Prod.fst this

theorem lead (h : Led flights leads) (key : String) :
    Led (flights.lead key) ((key, flights.next) :: leads) where
  distinct := by
    rw [List.map_cons, List.nodup_cons]
    refine ⟨?_, h.distinct⟩
    intro hmem
    obtain ⟨l, hl, heq⟩ := List.mem_map.mp hmem
    have := h.call_lt hl
    omega
  running l hl := by
    rw [lead_progress]
    rcases List.mem_cons.mp hl with rfl | hl
    · rw [if_pos rfl]
    · rw [← lead_progress]
      exact h.lead_keeps (h.running l hl) key
  registered k n hc := by
    rw [lead_current] at hc
    split at hc
    · rename_i hk
      obtain rfl := Option.some.inj hc
      rw [← hk]
      exact List.mem_cons_self
    · exact List.mem_cons_of_mem _ (h.registered k n hc)
  bounded n hn := by
    rw [lead_progress] at hn
    rw [lead_next]
    split at hn
    · omega
    · have := h.bounded n hn
      omega

theorem close (h : Led flights (l₁ ++ (key, call) :: l₂)) (p : Progress ρ) :
    Led (flights.close key call p) (l₁ ++ l₂) := by
  have hne : ∀ l ∈ l₁ ++ l₂, l.2 ≠ call := by
    have hd := h.distinct
    rw [List.map_append, List.map_cons, List.nodup_middle, List.nodup_cons, ← List.map_append] at hd
    rintro l hl rfl
    exact hd.1 (List.mem_map.mpr ⟨l, hl, rfl⟩)
  refine ⟨?_, ?_, ?_, ?_⟩
  · exact h.distinct.sublist ((List.sublist_cons_self _ _).append_left _ |>.map _)
  · intro l hl
    rw [close_progress, if_neg (hne l hl).symm]
    exact h.running l (Waiting.mem_of_mem_rest rfl hl)
  · intro k n hc
    rw [close_current_eq_some] at hc
    obtain ⟨hc, hnot⟩ := hc
    rcases Waiting.eq_or_mem_rest (h.registered k n hc) with heq | hl
    · exact absurd (Prod.mk.inj heq) hnot
    · exact hl
  · intro n hn
    rw [close_progress] at hn
    rw [close_next]
    split at hn
    · rename_i hcall
      subst hcall
      exact h.call_lt (l := (key, call)) (Waiting.mem_of_split rfl)
    · exact h.bounded n hn

theorem unregister (h : Led flights leads) (key : String) (call : Nat) :
    Led (flights.unregister key call) leads where
  distinct := h.distinct
  running := by
    rw [unregister_progress]
    exact h.running
  registered k n hc := h.registered k n (unregister_current_eq_some.mp hc).1
  bounded := by
    rw [unregister_progress, unregister_next]
    exact h.bounded

theorem close_head (h : Led flights ((key, call) :: leads)) (p : Progress ρ) :
    Led (flights.close key call p) leads := by
  rw [← List.nil_append ((key, call) :: leads)] at h
  exact h.close p

theorem forget (h : Led flights leads) (key : String) : Led (flights.forget key) leads where
  distinct := h.distinct
  running := h.running
  registered k n hc := h.registered k n (forget_current_eq_some.mp hc).1
  bounded := h.bounded

end Led

end GovernanceCache.SingleFlight
