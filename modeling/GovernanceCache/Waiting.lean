/-!
# Waiting lists

Lists of those who wait, in the order in which they came. What is meant for one of them goes to the
last one that it fits (`changeLast?`), or to the one of a given place among those that it fits
(`pick?`); polling goes through the list from the front and keeps those who wait on.
-/

namespace GovernanceCache.Waiting

variable {α : Type}

/-- The list with the last one that passes a test changed; absent if none passes it. -/
def changeLast? (test : α → Bool) (change : α → α) : List α → Option (List α)
  | [] => none
  | a :: rest =>
    match changeLast? test change rest with
    | some rest => some (a :: rest)
    | none => if test a then some (change a :: rest) else none

/-- The `i`-th one that passes a test, between those before and those after it. -/
def pick? (test : α → Bool) : Nat → List α → Option (List α × α × List α)
  | _, [] => none
  | i, a :: rest =>
    if test a then
      match i with
      | 0 => some ([], a, rest)
      | i + 1 => (pick? test i rest).map fun (before, b, after) => (a :: before, b, after)
    else (pick? test i rest).map fun (before, b, after) => (a :: before, b, after)

/-- Polls everyone in turn against a common state: the state, those who wait on, and what was told
on the way. -/
def pollAll {σ ε : Type} (poll : σ → α → σ × Option α × List ε) :
    σ → List α → σ × List α × List ε
  | s, [] => (s, [], [])
  | s, a :: rest =>
    let (s, stays, told) := poll s a
    let (s, waiting, later) := pollAll poll s rest
    (s, stays.toList ++ waiting, told ++ later)

/-! ## One of them and the others -/

theorem eq_append_of_pick? {test : α → Bool} {i : Nat} {l before after : List α} {a : α}
    (h : pick? test i l = some (before, a, after)) : l = before ++ a :: after := by
  induction l generalizing i before with
  | nil => simp [pick?] at h
  | cons b rest ih =>
    have tail : ∀ {j}, (pick? test j rest).map (fun (x, y, z) => (b :: x, y, z)) =
        some (before, a, after) → b :: rest = before ++ a :: after := by
      intro j hj
      obtain ⟨⟨x, y, z⟩, hpick, heq⟩ := Option.map_eq_some_iff.mp hj
      simp only [Prod.mk.injEq] at heq
      obtain ⟨rfl, rfl, rfl⟩ := heq
      rw [ih hpick, List.cons_append]
    unfold pick? at h
    split at h
    · cases i with
      | zero =>
        simp only [Option.some.injEq, Prod.mk.injEq] at h
        obtain ⟨rfl, rfl, rfl⟩ := h
        rfl
      | succ i => exact tail h
    · exact tail h

theorem of_pick? {test : α → Bool} {i : Nat} {l before after : List α} {a : α}
    (h : pick? test i l = some (before, a, after)) : test a = true := by
  induction l generalizing i before with
  | nil => simp [pick?] at h
  | cons b rest ih =>
    have tail : ∀ {j}, (pick? test j rest).map (fun (x, y, z) => (b :: x, y, z)) =
        some (before, a, after) → test a = true := by
      intro j hj
      obtain ⟨⟨x, y, z⟩, hpick, heq⟩ := Option.map_eq_some_iff.mp hj
      simp only [Prod.mk.injEq] at heq
      obtain ⟨rfl, rfl, rfl⟩ := heq
      exact ih hpick
    unfold pick? at h
    split at h
    · rename_i hb
      cases i with
      | zero =>
        simp only [Option.some.injEq, Prod.mk.injEq] at h
        obtain ⟨-, rfl, -⟩ := h
        exact hb
      | succ i => exact tail h
    · exact tail h

theorem eq_or_mem_rest {before after : List α} {a b : α} (h : a ∈ before ++ b :: after) :
    a = b ∨ a ∈ before ++ after := by
  rw [List.mem_append, List.mem_cons] at h
  rw [List.mem_append]
  rcases h with h | h | h
  · exact .inr (.inl h)
  · exact .inl h
  · exact .inr (.inr h)

theorem mem_of_split {l before after : List α} {a : α} (hw : l = before ++ a :: after) : a ∈ l := by
  rw [hw]
  exact List.mem_append_right _ List.mem_cons_self

/-- Those who wait on after one has left waited before. -/
theorem mem_of_mem_rest {l before after : List α} {a b : α} (hw : l = before ++ b :: after)
    (h : a ∈ before ++ after) : a ∈ l := by
  rw [hw]
  exact ((List.sublist_cons_self b after).append_left before).subset h

end GovernanceCache.Waiting
