import GovernanceCache.Document.Form
import GovernanceCache.Record

/-!
# Service instances

A running endpoint of a service.
-/

namespace GovernanceCache

structure Instance where
  id : String
  serviceId : String
  host : String
  tcpPort : UInt16
  weight : UInt32 := 100
  healthy : Bool := true
  isolated : Bool := false
  metadata : Std.ExtTreeMap String String := ∅
  revision : String := ""
  valid : Bool := true
  modified : Instant := .epoch

namespace Instance

instance : Record Instance where
  key := id
  valid := valid
  modified := modified
  revision := revision
  withModified t r := { r with modified := t }
  withValid v r := { r with valid := v }
  withRevision s r := { r with revision := s }
  defect? r :=
    if r.id.isEmpty then some "empty key"
    else if r.valid && r.serviceId.isEmpty then some "instance without service"
    else none

/-- The instance marked as isolated. -/
def isolate (r : Instance) : Instance := { r with isolated := true }

def form : Form Instance :=
  ((((((((((mk <$> Form.required "id" Reader.text)
    |>.seq (.required "service_id" .text))
    |>.seq (.required "host" .text))
    |>.seq (.required "port" .word16))
    |>.seq (.optional "weight" .word32 100))
    |>.seq (.optional "healthy" .boolean true))
    |>.seq (.optional "isolate" .boolean false))
    |>.seq (.optional "metadata" .textMap ∅))
    |>.seq (.optional "revision" .text ""))
    |>.seq (.required "valid" .boolean))
    |>.seq (.required "modify_time" .instant)

def ofDocument? : Reader Instance := form.reader "Instance"

/-- An instance as a document with all its fields. -/
def toDocument (r : Instance) : Document :=
  .ofFields [("id", .text r.id), ("service_id", .text r.serviceId), ("host", .text r.host),
    ("port", .integer r.tcpPort.toNat), ("weight", .integer r.weight.toNat),
    ("healthy", .boolean r.healthy), ("isolate", .boolean r.isolated),
    ("metadata", .textMap r.metadata.toList), ("revision", .text r.revision),
    ("valid", .boolean r.valid), ("modify_time", .text r.modified.toText)]

end Instance

end GovernanceCache
