/-!
# Chronicles

A chronicle is a list of events, the newest first. It obeys a law if each of its events does, given
the events before it.
-/

namespace GovernanceCache

/-- Every event obeys the law, which sees the events before it. -/
def Chronicle {ε : Type} (law : List ε → ε → Prop) : List ε → Prop
  | [] => True
  | e :: earlier => law earlier e ∧ Chronicle law earlier

namespace Chronicle

variable {ε : Type} {law : List ε → ε → Prop}

@[simp] theorem chronicle_cons {e : ε} {earlier : List ε} :
    Chronicle law (e :: earlier) ↔ law earlier e ∧ Chronicle law earlier := Iff.rfl

theorem of_append {later earlier : List ε} (h : Chronicle law (later ++ earlier)) :
    Chronicle law earlier := by
  induction later with
  | nil => exact h
  | cons _ later ih => exact ih h.2

/-- What the law says of an event, wherever in the chronicle it stands. -/
theorem law_of_split {later earlier : List ε} {e : ε}
    (h : Chronicle law (later ++ e :: earlier)) : law earlier e := (of_append h).1

end Chronicle

end GovernanceCache
