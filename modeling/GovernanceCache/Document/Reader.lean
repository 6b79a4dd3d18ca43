import GovernanceCache.Document.Fault
import Std.Data.ExtTreeMap
import Std.Data.ExtTreeSet

/-!
# Reading scalars and collections

Readers take a document to a value or to the fault that they meet first.
-/

namespace GovernanceCache

/-- Reads a value from a document. -/
abbrev Reader (α : Type) : Type := Document → Except DocumentFault α

namespace Reader

/-- The fault of a document of the wrong kind. -/
def refuse {α : Type} (document : Document) (expected : String) : Except DocumentFault α :=
  .error (.wrongKind document.outline expected)

def any : Reader Document := .ok

def text : Reader String
  | .text s => .ok s
  | d => refuse d "a string"

def boolean : Reader Bool
  | .boolean b => .ok b
  | d => refuse d "a boolean"

/-- An integer between `low` and `high`, of the type called `name`. -/
def integer (name : String) (low high : Int) : Reader Int
  | .number (.integer n) =>
    if low ≤ n ∧ n ≤ high then .ok n else .error (.integerOutOfRange n name)
  | d => refuse d name

def word16 : Reader UInt16 := fun d =>
  (integer "u16" 0 (UInt16.size - 1) d).map fun n => .ofNat n.toNat

def word32 : Reader UInt32 := fun d =>
  (integer "u32" 0 (UInt32.size - 1) d).map fun n => .ofNat n.toNat

/-- A word of 64 bits of the type called `name`. -/
def word64 (name : String) : Reader UInt64 := fun d =>
  (integer name 0 (UInt64.size - 1) d).map fun n => .ofNat n.toNat

def signed64 : Reader Int64 := fun d =>
  (integer "i64" Int64.minValue.toInt Int64.maxValue.toInt d).map Int64.ofInt

def instant : Reader Instant
  | .text s => (Instant.ofText? s).mapError .unreadableInstant
  | d => refuse d "an RFC 3339 formatted date and time string"

def textList : Reader (List String)
  | .list items => items.mapM text
  | d => refuse d "a sequence"

/-- A list of texts as a set. -/
def textSet : Reader (Std.ExtTreeSet String) := fun d =>
  (textList d).map (Std.ExtTreeSet.ofList ·)

def members : Reader (List (String × Document))
  | .object members => .ok members
  | d => refuse d "a map"

def textMap : Reader (Std.ExtTreeMap String String) := fun d => do
  let read ← (← members d).mapM fun (name, d) => do
    let s ← text d
    return (name, s)
  return Std.ExtTreeMap.ofList read

def nothing : Reader Unit
  | .null => .ok ()
  | d => refuse d "unit"

/-- A value of an enumeration by its name: a text, or an object with the name as its only member
and null in it. -/
def variant {α : Type} (names : List (String × α)) : Reader α := fun d =>
  let named (name : String) : Except DocumentFault α :=
    match names.lookup name with
    | some a => .ok a
    | none => .error (.unknownVariant name (names.map (·.1)))
  match d with
  | .text name => named name
  | .object [(name, content)] => do
    let a ← named name
    nothing content
    return a
  | .object _ => .error .notOneMember
  | d => refuse d "string or map"

end Reader

end GovernanceCache
