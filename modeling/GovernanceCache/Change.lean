/-!
# Changes

The classification of a merged record, and the event that carries it together with the value that
it replaced.
-/

namespace GovernanceCache

/-- What a merged record did to the entry of its key. -/
inductive ChangeKind where
  | created
  | updated
  | deleted
deriving DecidableEq, Repr

def ChangeKind.name : ChangeKind → String
  | created => "created"
  | updated => "updated"
  | deleted => "deleted"

/-- The event of one merged record. -/
structure Change (α : Type) where
  kind : ChangeKind
  /-- The replaced value; none for a created entry. -/
  old : Option α
  /-- The record as it was pulled. -/
  new : α
deriving DecidableEq, Repr

end GovernanceCache
