import GovernanceCache.Document
import GovernanceCache.Instant.Text
import GovernanceCache.Text.Quoted

/-!
# Faults of a document

Why a document does not describe the value that is read from it, and the wording of each fault.
-/

namespace GovernanceCache

/-- What a fault tells of a document that was found: scalars in full, containers by their kind. -/
inductive Outline where
  | null
  | boolean (value : Bool)
  | integer (value : Int)
  | double (bits : UInt64)
  | text (value : String)
  | list
  | object
deriving DecidableEq, Repr

def Document.outline : Document → Outline
  | .null => .null
  | .boolean b => .boolean b
  | .number (.integer n) => .integer n
  | .number (.double bits) => .double bits
  | .text s => .text s
  | .list _ => .list
  | .object _ => .object

def Outline.message : Outline → String
  | .null => "null"
  | .boolean b => "boolean `" ++ (if b then "true" else "false") ++ "`"
  | .integer n => "integer `" ++ toString n ++ "`"
  | .double bits => "floating point `" ++ Number.doubleText bits ++ "`"
  | .text s => "string " ++ Text.quoted s
  | .list => "sequence"
  | .object => "map"

/-- Why a document does not describe a value. -/
inductive DocumentFault where
  /-- A required member is absent. -/
  | missingField (name : String)
  /-- The document is of another kind than the expected one. -/
  | wrongKind (found : Outline) (expected : String)
  /-- The integer does not fit into the expected type. -/
  | integerOutOfRange (value : Int) (expected : String)
  /-- The text is none of the names of an enumeration. -/
  | unknownVariant (found : String) (known : List String)
  /-- The member is none of the admitted ones. -/
  | unknownField (found : String) (known : List String)
  /-- A list that stands for a structure ends before a required member. -/
  | listTooShort (length : Nat) (name : String) (fields : Nat)
  /-- A list that stands for a structure goes on after its last member. -/
  | listTooLong (length : Nat)
  /-- An object that stands for a variant has no or several members. -/
  | notOneMember
  /-- The text is no instant. -/
  | unreadableInstant (fault : Instant.TextFault)
deriving DecidableEq, Repr

namespace DocumentFault

/-- A name in backticks. -/
def ticked (name : String) : String := "`" ++ name ++ "`"

/-- The wording of the names that would have been accepted. -/
def choices : List String → String
  | [] => "there are no choices"
  | [a] => "expected " ++ ticked a
  | [a, b] => "expected " ++ ticked a ++ " or " ++ ticked b
  | names => "expected one of " ++ ", ".intercalate (names.map ticked)

def message : DocumentFault → String
  | missingField name => "missing field " ++ ticked name
  | wrongKind found expected => "invalid type: " ++ found.message ++ ", expected " ++ expected
  | integerOutOfRange value expected =>
    "invalid value: integer " ++ ticked (toString value) ++ ", expected " ++ expected
  | unknownVariant found known => "unknown variant " ++ ticked found ++ ", " ++ choices known
  | unknownField found known => "unknown field " ++ ticked found ++ ", " ++ choices known
  | listTooShort length name fields =>
    "invalid length " ++ toString length ++ ", expected struct " ++ name ++ " with " ++
      toString fields ++ " elements"
  | listTooLong length =>
    "invalid length " ++ toString length ++ ", expected fewer elements in array"
  | notOneMember => "invalid value: map, expected map with a single key"
  | unreadableInstant fault => fault.message

end DocumentFault

end GovernanceCache
