import GovernanceCache.Document.Form
import GovernanceCache.Fault
import GovernanceCache.Kind

/-!
# Requests to open a cache

A request names a cache and carries its options. Only the instance cache knows an option; the other
caches accept any.
-/

namespace GovernanceCache

/-- The options of a cache: the members of an object, in the order of their names. -/
abbrev Options : Type := List (String × Document)

/-- The options with one added or replaced. -/
def Options.insert (options : Options) (name : String) (value : Document) : Options :=
  options.filter (fun o => decide (o.1 < name)) ++ (name, value) ::
    options.filter (fun o => decide (name < o.1))

/-- A request to open the cache registered under a name. -/
structure OpenRequest where
  name : String := ""
  options : Options := []
deriving Repr, BEq

namespace OpenRequest

/-- The request that names nothing and has no options. -/
def isDefault (request : OpenRequest) : Bool := request.name.isEmpty && request.options.isEmpty

/-- The fields of a request in a document. -/
def form : Form OpenRequest :=
  (mk <$> Form.required "name" Reader.text) |>.seq (.optional "options" .members [])

def ofDocument? : Reader OpenRequest := form.reader "CacheEntry"

def toDocument (request : OpenRequest) : Document :=
  .ofFields [("name", .text request.name), ("options", .object request.options)]

end OpenRequest

structure InstanceOptions where
  /-- Isolated instances are left out of discovery. -/
  excludeIsolated : Bool := false
deriving DecidableEq, Repr

namespace InstanceOptions

/-- The fields of the options. -/
def form : Form InstanceOptions := mk <$> Form.optional "exclude_isolated" Reader.boolean false

/-- Reads the options; others than the known ones are refused. -/
def ofOptions? (options : Options) : Except Fault InstanceOptions :=
  (form.readStrict options).mapError fun fault =>
    .configuration ("invalid options for cache " ++ CacheKind.instances.name ++ ": " ++
      fault.message)

end InstanceOptions

end GovernanceCache
