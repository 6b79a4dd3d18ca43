import GovernanceCache.Fault
import GovernanceCache.Kind
import Std.Data.ExtTreeMap

/-!
# Roster of cache names

Names under which caches are opened, each standing for one kind. A name keeps the kind that it was
registered with first. The roster is complete when every kind has a name.
-/

namespace GovernanceCache

/-- Registered names and their kinds. -/
structure Roster where
  kinds : Std.ExtTreeMap String CacheKind

namespace Roster

def empty : Roster := ⟨∅⟩

/-- Registers a name, and tells whether it was new. -/
def register (roster : Roster) (name : String) (kind : CacheKind) : Roster × Bool :=
  if roster.kinds.contains name then (roster, false)
  else (⟨roster.kinds.insert name kind⟩, true)

/-- The names registered in turn. -/
def ofList (entries : List (String × CacheKind)) : Roster :=
  entries.foldl (fun roster entry => (roster.register entry.1 entry.2).1) empty

/-- Every kind under its own name. -/
def builtin : Roster := ofList (CacheKind.all.map fun kind => (kind.name, kind))

def get? (roster : Roster) (name : String) : Option CacheKind := roster.kinds[name]?

def contains (roster : Roster) (name : String) : Bool := roster.kinds.contains name

def names (roster : Roster) : List String := roster.kinds.keys

def size (roster : Roster) : Nat := roster.kinds.size

/-- The kinds without a name, by position. -/
def missing (roster : Roster) : List CacheKind :=
  CacheKind.all.filter fun kind => !roster.kinds.values.contains kind

/-- Succeeds if every kind has a name. -/
def check (roster : Roster) : Outcome :=
  match roster.missing with
  | [] => .ok ()
  | kinds =>
    .error (.configuration ("no cache registered for " ++ ", ".intercalate (kinds.map (·.name))))

end Roster

end GovernanceCache
