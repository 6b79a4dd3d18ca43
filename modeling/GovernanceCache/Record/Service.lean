import GovernanceCache.Document.Form
import GovernanceCache.Record

/-!
# Services

A service belongs to a namespace, where its name is meant to be unique, and may be exported to other
namespaces on its own.
-/

namespace GovernanceCache

structure Service where
  id : String
  name : String
  /-- The name of the owning namespace. -/
  namespaceName : String
  /-- The namespaces that see the service. -/
  exports : Std.ExtTreeSet String := ∅
  metadata : Std.ExtTreeMap String String := ∅
  revision : String := ""
  valid : Bool := true
  modified : Instant := .epoch

namespace Service

instance : Record Service where
  key := id
  valid := valid
  modified := modified
  revision := revision
  withModified t r := { r with modified := t }
  withValid v r := { r with valid := v }
  withRevision s r := { r with revision := s }
  defect? r :=
    if r.id.isEmpty then some "empty key"
    else if r.valid && (r.name.isEmpty || r.namespaceName.isEmpty) then
      some "service without name or namespace"
    else none

/-- The service exported to the given targets. -/
def withExports (targets : List String) (r : Service) : Service :=
  { r with exports := .ofList targets }

def form : Form Service :=
  (((((((mk <$> Form.required "id" Reader.text)
    |>.seq (.required "name" .text))
    |>.seq (.required "namespace" .text))
    |>.seq (.optional "export_to" .textSet ∅))
    |>.seq (.optional "metadata" .textMap ∅))
    |>.seq (.optional "revision" .text ""))
    |>.seq (.required "valid" .boolean))
    |>.seq (.required "modify_time" .instant)

def ofDocument? : Reader Service := form.reader "Service"

/-- A service as a document with all its fields. -/
def toDocument (r : Service) : Document :=
  .ofFields [("id", .text r.id), ("name", .text r.name), ("namespace", .text r.namespaceName),
    ("export_to", .texts r.exports.toList), ("metadata", .textMap r.metadata.toList),
    ("revision", .text r.revision), ("valid", .boolean r.valid),
    ("modify_time", .text r.modified.toText)]

end Service

end GovernanceCache
