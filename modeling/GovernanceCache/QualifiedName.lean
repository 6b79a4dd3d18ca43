import Std.Data.ExtTreeMap

/-!
# Names within a namespace

A service is addressed by the name of its namespace and its own name in it. Such names are ordered
by namespace first.
-/

namespace GovernanceCache

/-- A name within a namespace. -/
structure QualifiedName where
  namespaceName : String
  name : String
deriving DecidableEq, Repr

namespace QualifiedName

instance : Ord QualifiedName :=
  ⟨compareLex (compareOn namespaceName) (compareOn name)⟩

instance : Std.TransOrd QualifiedName :=
  inferInstanceAs (Std.TransCmp (compareLex (compareOn namespaceName) (compareOn name)))

instance : Std.LawfulEqOrd QualifiedName where
  eq_of_compare {a b} h := by
    obtain ⟨s, t⟩ := a
    obtain ⟨u, v⟩ := b
    have h : (compare s u).then (compare t v) = .eq := h
    rw [Ordering.then_eq_eq] at h
    rw [Std.LawfulEqCmp.eq_of_compare h.1, Std.LawfulEqCmp.eq_of_compare h.2]

end QualifiedName

end GovernanceCache
