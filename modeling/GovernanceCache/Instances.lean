import GovernanceCache.Buckets
import GovernanceCache.Replica
import GovernanceCache.OpenRequest
import GovernanceCache.Record.Instance
import GovernanceCache.Revision

/-!
# Instances in memory

The replica of the instances finds them by the service that they run. Discovery leaves out isolated
instances if the cache was opened so.
-/

namespace GovernanceCache

/-- The instances of every service that has any. -/
structure InstanceIndex where
  byService : Buckets String

instance : Index Instance InstanceIndex where
  empty := ⟨∅⟩
  observe index change := ⟨index.byService.follow Instance.serviceId change⟩

/-- The replica of the instances. -/
abbrev Instances : Type := Replica Instance InstanceIndex

namespace Instances

/-- Instances are ordered by their ids. -/
def before (a b : Instance) : Bool := decide (a.id ≤ b.id)

/-- An instance of the service that discovery does not leave out. -/
def isDiscoverable (options : InstanceOptions) (serviceId : String) (r : Instance) : Bool :=
  r.serviceId == serviceId && !(options.excludeIsolated && r.isolated)

/-- The discoverable instances of a service, in order. -/
def ofService (m : Instances) (options : InstanceOptions) (serviceId : String) :
    Instances × List Instance :=
  let (m, found) := m.getAll (m.index.byService.members serviceId)
  (m, (found.filter (isDiscoverable options serviceId)).mergeSort before)

/-- The number of discoverable instances of a service. -/
def countOf (m : Instances) (options : InstanceOptions) (serviceId : String) : Instances × Nat :=
  let (m, found) := m.ofService options serviceId
  (m, found.length)

def revisionOver (instances : List Instance) : Revision :=
  .ofRecords (instances.map fun r => (r.id, r.revision))

/-- The revision of the discoverable instances of a service. -/
def revisionOf (m : Instances) (options : InstanceOptions) (serviceId : String) :
    Instances × Revision :=
  let (m, found) := m.ofService options serviceId
  (m, revisionOver found)

/-- The discoverable instances of a service, unless the client holds them already. -/
def discover (m : Instances) (options : InstanceOptions) (serviceId client : String) :
    Instances × Versioned Instance :=
  let (m, found) := m.ofService options serviceId
  (m, .resolve (revisionOver found) client fun _ => found)

end Instances

end GovernanceCache
