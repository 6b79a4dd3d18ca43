import GovernanceCache.Catalog
import GovernanceCache.Refresher
import GovernanceCache.Roster
import GovernanceCache.Settings

/-!
# The manager of the caches

A manager owns the cache of every kind. Those that were opened are scheduled: the others are never
refreshed by it. Clearing and closing reach every scheduled cache.
-/

namespace GovernanceCache

/-- The cache of a kind: its replica and the flights through which it is refreshed. -/
abbrev Cache (k : CacheKind) : Type := Refresher k.Row k.Lookup

/-- The caches of every kind and what was asked of them. -/
structure Manager where
  settings : Settings
  roster : Roster
  caches : ByKind Cache
  /-- The options that the instance cache was opened with. -/
  instanceOptions : InstanceOptions := {}
  /-- The kinds that were opened. -/
  opened : ByKind fun _ => Bool := .tabulate fun _ => false
  /-- A start has succeeded or has not ended. -/
  started : Bool := false

namespace Manager

/-- A manager of empty caches; fails if the skew of the settings is out of range. -/
def create? (settings : Settings) (roster : Roster) : Option Manager :=
  settings.skew?.map fun skew =>
    { settings, roster
      caches := .tabulate fun k => ⟨{}, .create k skew settings.eventBuffer.toNat⟩ }

/-- Succeeds if the settings have no flaw and every kind has a name. -/
def check (m : Manager) : Outcome := do
  m.settings.check
  m.roster.check

def cache (m : Manager) (k : CacheKind) : Cache k := m.caches.get k

def replica (m : Manager) (k : CacheKind) : Replica k.Row k.Lookup := (m.cache k).replica

def withCache (m : Manager) (k : CacheKind) (cache : Cache k) : Manager :=
  { m with caches := m.caches.set k cache }

def withReplica (m : Manager) (k : CacheKind) (replica : Replica k.Row k.Lookup) : Manager :=
  m.withCache k { m.cache k with replica }

/-- A read of the replica of a kind. -/
def read {α : Type} (m : Manager) (k : CacheKind)
    (f : Replica k.Row k.Lookup → Replica k.Row k.Lookup × α) : Manager × α :=
  let (replica, answer) := f (m.replica k)
  (m.withReplica k replica, answer)

/-! ## Opening -/

def isScheduled (m : Manager) (k : CacheKind) : Bool := m.opened.get k

/-- The kinds that were opened, in order. -/
def scheduled (m : Manager) : List CacheKind := CacheKind.all.filter m.isScheduled

/-- Gives the cache of a kind its options. -/
def configure (m : Manager) (k : CacheKind) (options : Options) : Except Fault Manager :=
  match k with
  | .instances => (InstanceOptions.ofOptions? options).map fun o => { m with instanceOptions := o }
  | _ => .ok m

def openKind (m : Manager) (k : CacheKind) (options : Options) : Except Fault Manager :=
  (m.configure k options).map fun m => { m with opened := m.opened.set k true }

/-- Opens the requested caches in turn, passing over unknown names, up to the first that refuses its
options. -/
def openAll (m : Manager) : List OpenRequest → Manager × Outcome
  | [] => (m, .ok ())
  | request :: rest =>
    match m.roster.get? request.name with
    | none => m.openAll rest
    | some k =>
      match m.openKind k request.options with
      | .ok m => m.openAll rest
      | .error fault => (m, .error fault)

/-! ## Clearing and closing -/

def clearKind (m : Manager) (k : CacheKind) : Manager := m.withCache k (m.cache k).clear

def closeKind (m : Manager) (k : CacheKind) : Manager := m.withReplica k (m.replica k).close

/-- Clears every scheduled cache. -/
def clear (m : Manager) : Manager := m.scheduled.foldl clearKind m

/-- Closes every scheduled cache. -/
def close (m : Manager) : Manager := m.scheduled.foldl closeKind m

/-! ## Discovery -/

/-- The part of a discovery revision that stands for a visible service. -/
def servicePart (r : Service) : String := "service:" ++ r.id ++ ":" ++ r.revision

/-- The revision of what a client of the named service discovers: its instances and every service
that its namespace sees. -/
def discoveryRevision (m : Manager) (name : QualifiedName) : Manager × Option Revision :=
  match m.read .services fun s => Services.named? s name with
  | (m, none) => (m, none)
  | (m, some service) =>
    let (m, own) := m.read .instances fun i => Instances.revisionOf i m.instanceOptions service.id
    let seen := Services.visible (m.replica .services) (m.replica .namespaces) name.namespaceName
    (m, some (.compose (("instances:" ++ own.text) :: seen.map servicePart)))

end Manager

end GovernanceCache
