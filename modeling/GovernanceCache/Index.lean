import GovernanceCache.Change

/-!
# Secondary indexes

An index follows the entries of a cache by observing each change. The journal is the plainest one:
it keeps the changes themselves.
-/

namespace GovernanceCache

/-- A structure of type `ι` that follows changes of records of type `R`. -/
class Index (R : Type) (ι : Type) where
  /-- The index of a cache without entries. -/
  empty : ι
  /-- The index after a change. -/
  observe : ι → Change R → ι

namespace Index

variable {R ι : Type} [Index R ι]

/-- The index after changes in turn. -/
def observeAll (index : ι) (changes : List (Change R)) : ι := changes.foldl observe index

end Index

/-- Every change since the index was last empty, oldest first. -/
structure Journal (R : Type) where
  changes : List (Change R)

instance {R : Type} : Index R (Journal R) where
  empty := ⟨[]⟩
  observe journal change := ⟨journal.changes ++ [change]⟩

end GovernanceCache
