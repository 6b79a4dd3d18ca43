import GovernanceCache.Replica
import GovernanceCache.Page
import GovernanceCache.Record.Namespace

/-!
# Namespaces in memory

The replica of the namespaces knows which namespaces export their services, and to whom. A viewer
sees its own namespace and those that export to it or to everyone.
-/

namespace GovernanceCache

/-- The export targets of every namespace that has any. -/
structure Exports where
  targets : Std.ExtTreeMap String (Std.ExtTreeSet String)

namespace Exports

/-- The exports after a change of a namespace. -/
def follow (e : Exports) (change : Change Namespace) : Exports :=
  let name := change.new.name
  match change.kind with
  | .deleted => ⟨e.targets.erase name⟩
  | .created | .updated =>
    if change.new.exports.isEmpty then ⟨e.targets.erase name⟩
    else ⟨e.targets.insert name change.new.exports⟩

instance : Index Namespace Exports where
  empty := ⟨∅⟩
  observe := follow

/-- A set of targets covers a viewer by name or by the target that means everyone. -/
def covers (targets : Std.ExtTreeSet String) (viewer : String) : Bool :=
  targets.contains viewer || targets.contains exportAll

end Exports

abbrev Namespaces : Type := Replica Namespace Exports

/-- What a query for namespaces asks for. -/
structure NamespaceQuery where
  name : Option String := none
  owner : Option String := none
  offset : Nat := 0
  limit : Nat := maxQueryLimit
deriving DecidableEq, Repr

/-- A namespace passes the filters of a query. -/
def NamespaceQuery.accepts (q : NamespaceQuery) (r : Namespace) : Bool :=
  q.name.all (fun pattern => matchesPattern pattern r.name) &&
    q.owner.all (fun owner => r.owners.contains owner)

namespace Namespaces

/-- The viewer sees the services that the exporter exports as a whole. -/
def isVisible (m : Namespaces) (viewer exporter : String) : Bool :=
  viewer == exporter ||
    match m.index.targets[exporter]? with
    | some targets => Exports.covers targets viewer
    | none => false

/-- The namespaces whose services the viewer sees, in order; its own is always one of them. -/
def visible (m : Namespaces) (viewer : String) : List String :=
  let exporting := m.index.targets.toList.filterMap fun e =>
    if Exports.covers e.2 viewer then some e.1 else none
  ((Std.ExtTreeSet.ofList exporting).insert viewer).toList

/-- Newer namespaces come first, equally new ones by name. -/
def before (a b : Namespace) : Bool :=
  b.modified < a.modified || (a.modified == b.modified && decide (a.name ≤ b.name))

/-- The namespaces that pass a query's filters, in order. -/
def found (m : Namespaces) (q : NamespaceQuery) : List Namespace :=
  (m.list.filter q.accepts).mergeSort before

def query (m : Namespaces) (q : NamespaceQuery) : Except Fault (Page Namespace) := do
  checkLimit q.limit
  return .slice (m.found q) q.offset q.limit

end Namespaces

end GovernanceCache
