import GovernanceCache.Buckets
import GovernanceCache.Replica
import GovernanceCache.QualifiedName
import GovernanceCache.Record.Rule
import GovernanceCache.Revision

/-!
# Rules in memory

The replica of a family of rules finds them by the service that they target. A rule that targets the
wildcard applies to every service of its namespace.
-/

namespace GovernanceCache

/-- The service, possibly the wildcard, that a rule targets. -/
def Rule.target (r : Rule) : QualifiedName := ⟨r.namespaceName, r.service⟩

/-- The rules of every target that has any. -/
structure RuleIndex where
  byTarget : Buckets QualifiedName

instance : Index Rule RuleIndex where
  empty := ⟨∅⟩
  observe index change := ⟨index.byTarget.follow Rule.target change⟩

abbrev Rules : Type := Replica Rule RuleIndex

namespace Rules

/-- Rules are ordered by their ids. -/
def before (a b : Rule) : Bool := decide (a.id ≤ b.id)

/-- The ids of the rules that target a service or its whole namespace. -/
def targeting (m : Rules) (service : QualifiedName) : List String :=
  let wildcard : QualifiedName := { service with name := exportAll }
  ((Std.ExtTreeSet.ofList (m.index.byTarget.members service)).insertMany
    (m.index.byTarget.members wildcard)).toList

/-- The rule is enabled and applies to the service. -/
def applies (service : QualifiedName) (r : Rule) : Bool :=
  r.enabled && r.namespaceName == service.namespaceName &&
    (r.service == service.name || r.service == exportAll)

/-- The rules that apply to a service, in order. -/
def ofService (m : Rules) (service : QualifiedName) : Rules × List Rule :=
  let (m, found) := m.getAll (m.targeting service)
  (m, (found.filter (applies service)).mergeSort before)

def revisionOver (rules : List Rule) : Revision :=
  .ofRecords (rules.map fun r => (r.id, r.revision))

/-- The revision of the rules that apply to a service. -/
def revisionOf (m : Rules) (service : QualifiedName) : Rules × Revision :=
  let (m, found) := m.ofService service
  (m, revisionOver found)

/-- The rules that apply to a service, unless the client holds them already. -/
def fetch (m : Rules) (service : QualifiedName) (client : String) : Rules × Versioned Rule :=
  let (m, found) := m.ofService service
  (m, .resolve (revisionOver found) client fun _ => found)

end Rules

end GovernanceCache
