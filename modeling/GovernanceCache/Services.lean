import GovernanceCache.Buckets
import GovernanceCache.Namespaces
import GovernanceCache.QualifiedName
import GovernanceCache.Record.Service
import GovernanceCache.Revision

/-!
# Services in memory

The replica of the services finds them by namespace, and by namespace and name. A viewer sees the
services of its own namespace, those that export to it or to everyone themselves, and those of the
namespaces that it sees.
-/

namespace GovernanceCache

/-- The name of a service within its namespace. -/
def Service.qualifiedName (r : Service) : QualifiedName := ⟨r.namespaceName, r.name⟩

/-- Where the services are found. -/
structure ServiceIndex where
  /-- The last service to take each name. -/
  byName : Std.ExtTreeMap QualifiedName String
  byNamespace : Buckets String

namespace ServiceIndex

/-- The replaced service gives up its name, unless it keeps it or another service took it. -/
def releaseName (names : Std.ExtTreeMap QualifiedName String) (old new : Service) :
    Std.ExtTreeMap QualifiedName String :=
  if new.valid && new.qualifiedName == old.qualifiedName then names
  else if names[old.qualifiedName]? = some old.id then names.erase old.qualifiedName
  else names

/-- The names after a change of a service. -/
def followName (names : Std.ExtTreeMap QualifiedName String) (change : Change Service) :
    Std.ExtTreeMap QualifiedName String :=
  let names := match change.old with
    | some old => releaseName names old change.new
    | none => names
  if change.new.valid then names.insert change.new.qualifiedName change.new.id else names

instance : Index Service ServiceIndex where
  empty := ⟨∅, ∅⟩
  observe index change :=
    { byName := followName index.byName change
      byNamespace := index.byNamespace.follow Service.namespaceName change }

end ServiceIndex

abbrev Services : Type := Replica Service ServiceIndex

/-- What a query for services asks for. -/
structure ServiceQuery where
  namespaceName : Option String := none
  name : Option String := none
  offset : Nat := 0
  limit : Nat := maxQueryLimit
deriving DecidableEq, Repr

namespace Services

/-- Services are ordered by namespace, then by name. -/
def before (a b : Service) : Bool := (compare a.qualifiedName b.qualifiedName).isLE

def sort (services : List Service) : List Service := services.mergeSort before

def all (m : Services) : List Service := sort m.list

/-- Looks a service up by its namespace and name. -/
def named? (m : Services) (name : QualifiedName) : Services × Option Service :=
  match m.index.byName[name]? with
  | none => (m, none)
  | some id =>
    let (m, found) := m.get id
    (m, found.filter fun r => r.qualifiedName == name)

/-- The services of a namespace, in order of their names. -/
def ofNamespace (m : Services) (namespaceName : String) : Services × List Service :=
  let (m, found) := m.getAll (m.index.byNamespace.members namespaceName)
  (m, sort (found.filter fun r => r.namespaceName == namespaceName))

/-- The viewer sees the service. -/
def isVisibleTo (namespaces : Namespaces) (r : Service) (viewer : String) : Bool :=
  r.namespaceName == viewer || Exports.covers r.exports viewer ||
    namespaces.isVisible viewer r.namespaceName

def visible (m : Services) (namespaces : Namespaces) (viewer : String) : List Service :=
  sort (m.list.filter fun r => isVisibleTo namespaces r viewer)

/-- The revision of the services that a viewer sees. -/
def visibleRevision (m : Services) (namespaces : Namespaces) (viewer : String) : Revision :=
  .ofRecords ((m.visible namespaces viewer).map fun r => (r.id, r.revision))

/-- The services that pass the filters of a query, in order. -/
def found (m : Services) (q : ServiceQuery) : Services × List Service :=
  let (m, candidates) := match q.namespaceName with
    | some namespaceName => m.ofNamespace namespaceName
    | none => (m, m.list)
  (m, sort (candidates.filter fun r => q.name.all fun pattern => matchesPattern pattern r.name))

def query (m : Services) (q : ServiceQuery) : Services × Except Fault (Page Service) :=
  match checkLimit q.limit with
  | .error fault => (m, .error fault)
  | .ok _ =>
    let (m, found) := m.found q
    (m, .ok (.slice found q.offset q.limit))

end Services

end GovernanceCache
