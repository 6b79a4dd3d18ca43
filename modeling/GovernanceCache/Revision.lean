/-!
# Revisions

Fingerprints of resources and resource sets. A composite revision hashes its parts in order, each
closed by a null byte, so it does not depend on the order in which the parts are given. Reads that
know the client's revision leave out what the client already holds.
-/

namespace GovernanceCache

/-- The fingerprint of a resource; the empty one stands for no known revision. -/
structure Revision where
  text : String
deriving DecidableEq, Repr, Inhabited

namespace Revision

/-- The revision that stands for none. -/
def empty : Revision := ⟨""⟩

def sortParts (parts : List String) : List String :=
  parts.mergeSort fun a b => decide (a ≤ b)

/-- The bytes of a text and a null byte that closes them. -/
def closedBytes (part : String) : List UInt8 := part.toUTF8.toList ++ [0]

/-- The bytes that a composite revision hashes. -/
def hashedBytes (parts : List String) : List UInt8 := (sortParts parts).flatMap closedBytes

/-- The 64-bit FNV-1a hash. -/
def fnv1a (bytes : List UInt8) : UInt64 :=
  bytes.foldl (fun hash byte => (hash ^^^ byte.toUInt64) * 0x100000001b3) 0xcbf29ce484222325

/-- Sixteen lower-case hexadecimal digits. -/
def hex16 (n : UInt64) : String :=
  let digits := Nat.toDigits 16 n.toNat
  String.ofList (List.replicate (16 - digits.length) '0' ++ digits)

/-- The revision composed of the given parts. -/
def compose (parts : List String) : Revision := ⟨hex16 (fnv1a (hashedBytes parts))⟩

/-- The part that binds a revision to the key it belongs to. -/
def boundPart (key revision : String) : String := key ++ ":" ++ revision

/-- The revision of a set of keys, each with its own revision. -/
def ofRecords (records : List (String × String)) : Revision :=
  compose (records.map fun r => boundPart r.1 r.2)

/-- No revision is known. -/
def isEmpty (r : Revision) : Bool := r.text.isEmpty

/-- The client's revision is this one; the empty revision never is. -/
def isHeldBy (r : Revision) (client : String) : Bool := !r.isEmpty && r.text == client

end Revision

/-- The answer of a read that leaves out what the client already holds. -/
inductive Versioned (α : Type) where
  | unchanged (revision : Revision)
  | changed (revision : Revision) (items : List α)
deriving DecidableEq, Repr

namespace Versioned

variable {α : Type}

/-- The answer for a client that holds `client`. -/
def resolve (revision : Revision) (client : String) (items : Unit → List α) : Versioned α :=
  if revision.isHeldBy client then .unchanged revision else .changed revision (items ())

def revision : Versioned α → Revision
  | unchanged r => r
  | changed r _ => r

/-- The client's revision was current. -/
def isUnchanged : Versioned α → Bool
  | unchanged _ => true
  | changed _ _ => false

/-- The items, unless the client holds them already. -/
def items? : Versioned α → Option (List α)
  | unchanged _ => none
  | changed _ items => some items

end Versioned

end GovernanceCache
