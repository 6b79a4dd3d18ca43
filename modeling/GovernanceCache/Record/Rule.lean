import GovernanceCache.Document.Form
import GovernanceCache.Kind
import GovernanceCache.Record

/-!
# Governance rules

A rule is bound to one service of a namespace, or to all of them when its service is `*`. The caches
do not look into its body.
-/

namespace GovernanceCache

structure Rule where
  id : String
  kind : RuleKind
  name : String := ""
  namespaceName : String
  service : String
  enabled : Bool := true
  body : Document := .null
  revision : String := ""
  valid : Bool := true
  modified : Instant := .epoch

namespace Rule

instance : Record Rule where
  key := id
  valid := valid
  modified := modified
  revision := revision
  withModified t r := { r with modified := t }
  withValid v r := { r with valid := v }
  withRevision s r := { r with revision := s }
  defect? r :=
    if r.id.isEmpty then some "empty key"
    else if r.valid && r.namespaceName.isEmpty then some "rule without namespace"
    else none

def withBody (body : Document) (r : Rule) : Rule := { r with body := body }

/-- The rule switched off. -/
def disable (r : Rule) : Rule := { r with enabled := false }

def form : Form Rule :=
  (((((((((mk <$> Form.required "id" Reader.text)
    |>.seq (.required "kind" (.variant (RuleKind.all.map fun kind => (kind.name, kind)))))
    |>.seq (.optional "name" .text ""))
    |>.seq (.required "namespace" .text))
    |>.seq (.required "service" .text))
    |>.seq (.optional "enable" .boolean true))
    |>.seq (.optional "body" .any .null))
    |>.seq (.optional "revision" .text ""))
    |>.seq (.required "valid" .boolean))
    |>.seq (.required "modify_time" .instant)

def ofDocument? : Reader Rule := form.reader "Rule"

/-- A rule as a document with all its fields. -/
def toDocument (r : Rule) : Document :=
  .ofFields [("id", .text r.id), ("kind", .text r.kind.name), ("name", .text r.name),
    ("namespace", .text r.namespaceName), ("service", .text r.service),
    ("enable", .boolean r.enabled), ("body", r.body), ("revision", .text r.revision),
    ("valid", .boolean r.valid), ("modify_time", .text r.modified.toText)]

end Rule

end GovernanceCache
