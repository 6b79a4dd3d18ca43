import GovernanceCache.ByKind
import GovernanceCache.Instances
import GovernanceCache.Namespaces
import GovernanceCache.Rules
import GovernanceCache.Services

/-!
# Catalog of kinds

What the records of each kind are, and the index that the replica of the kind keeps.
-/

namespace GovernanceCache.CacheKind

/-- The records of a kind. -/
@[reducible]
def Row : CacheKind → Type
  | namespaces => Namespace
  | services => Service
  | instances => Instance
  | rules _ => Rule

/-- The index of the replica of a kind. -/
@[reducible]
def Lookup : CacheKind → Type
  | namespaces => Exports
  | services => ServiceIndex
  | instances => InstanceIndex
  | rules _ => RuleIndex

instance : (k : CacheKind) → Record k.Row
  | namespaces => inferInstanceAs (Record Namespace)
  | services => inferInstanceAs (Record Service)
  | instances => inferInstanceAs (Record Instance)
  | rules _ => inferInstanceAs (Record Rule)

instance : (k : CacheKind) → Index k.Row k.Lookup
  | namespaces => inferInstanceAs (Index Namespace Exports)
  | services => inferInstanceAs (Index Service ServiceIndex)
  | instances => inferInstanceAs (Index Instance InstanceIndex)
  | rules _ => inferInstanceAs (Index Rule RuleIndex)

end GovernanceCache.CacheKind
