import GovernanceCache.Document.Form
import GovernanceCache.Record

/-!
# Namespaces

A namespace owns services and may export all of them to other namespaces.
-/

namespace GovernanceCache

structure Namespace where
  name : String
  comment : String := ""
  owners : Std.ExtTreeSet String := ∅
  /-- The namespaces that see its services. -/
  exports : Std.ExtTreeSet String := ∅
  revision : String := ""
  valid : Bool := true
  modified : Instant := .epoch

namespace Namespace

instance : Record Namespace where
  key := name
  valid := valid
  modified := modified
  revision := revision
  withModified t r := { r with modified := t }
  withValid v r := { r with valid := v }
  withRevision s r := { r with revision := s }
  defect? r := if r.name.isEmpty then some "empty key" else none

/-- The namespace exporting its services to the given targets. -/
def withExports (targets : List String) (r : Namespace) : Namespace :=
  { r with exports := .ofList targets }

/-- The namespace with one more owner. -/
def withOwner (owner : String) (r : Namespace) : Namespace :=
  { r with owners := r.owners.insert owner }

def form : Form Namespace :=
  ((((((mk <$> Form.required "name" Reader.text)
    |>.seq (.optional "comment" .text ""))
    |>.seq (.optional "owners" .textSet ∅))
    |>.seq (.optional "service_export_to" .textSet ∅))
    |>.seq (.optional "revision" .text ""))
    |>.seq (.required "valid" .boolean))
    |>.seq (.required "modify_time" .instant)

def ofDocument? : Reader Namespace := form.reader "Namespace"

/-- A namespace as a document with all its fields. -/
def toDocument (r : Namespace) : Document :=
  .ofFields [("name", .text r.name), ("comment", .text r.comment),
    ("owners", .texts r.owners.toList), ("service_export_to", .texts r.exports.toList),
    ("revision", .text r.revision), ("valid", .boolean r.valid),
    ("modify_time", .text r.modified.toText)]

end Namespace

end GovernanceCache
