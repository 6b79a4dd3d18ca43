import GovernanceCache.Fault

/-!
# Pages of query results

Name filters, limits and the page cut out of sorted matches.
-/

namespace GovernanceCache

/-- The largest page that a query may ask for. -/
def maxQueryLimit : Nat := 100

/-- Refuses an empty page and one that is too large. -/
def checkLimit (limit : Nat) : Outcome :=
  if limit = 0 ∨ maxQueryLimit < limit then
    .error (.invalidArgument ("limit must be between 1 and " ++ toString maxQueryLimit ++
      ", got " ++ toString limit))
  else .ok ()

/-- A name filter: the exact name, or with a star at its end every name that starts so. -/
def matchesPattern (pattern name : String) : Bool :=
  match pattern.toList.getLast? with
  | some '*' => pattern.toList.dropLast.isPrefixOf name.toList
  | _ => pattern == name

/-- One page of results and the number of matches before paging. -/
structure Page (α : Type) where
  total : Nat
  items : List α
deriving DecidableEq, Repr

/-- The page of `limit` matches after the first `offset`. -/
def Page.slice {α : Type} (found : List α) (offset limit : Nat) : Page α :=
  ⟨found.length, (found.drop offset).take limit⟩

end GovernanceCache
