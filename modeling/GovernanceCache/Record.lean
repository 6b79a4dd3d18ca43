import GovernanceCache.Instant

/-!
# Records

What a cache and its store need to know of an entity: its key, whether it is live or a soft delete,
when it was last modified, its content revision, and why it may be malformed.
-/

namespace GovernanceCache

/-- An entity held by a cache. -/
class Record (R : Type) where
  /-- The key of the entity among those of its kind. -/
  key : R → String
  /-- The entity is live; otherwise it is a soft delete. -/
  valid : R → Bool
  /-- When the store last modified the entity. -/
  modified : R → Instant
  /-- The content revision of the entity. -/
  revision : R → String
  /-- The entity with another modification time. -/
  withModified : Instant → R → R
  /-- The entity made live or deleted. -/
  withValid : Bool → R → R
  /-- The entity with another revision. -/
  withRevision : String → R → R
  /-- Why the entity is malformed, if it is. -/
  defect? : R → Option String

namespace Record

variable {R : Type} [Record R]

/-- Records are ordered by modification time, then by key. -/
def before (a b : R) : Bool :=
  modified a < modified b || (modified a == modified b && decide (key a ≤ key b))

def sort (records : List R) : List R := records.mergeSort before

/-- Both are the same version of an entity. -/
def sameVersion (a b : R) : Bool := modified a == modified b && revision a == revision b

end Record

/-- The export target that means every namespace. -/
def exportAll : String := "*"

end GovernanceCache
