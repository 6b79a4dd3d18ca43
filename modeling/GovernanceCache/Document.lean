import GovernanceCache.Decimal.Shortest
import GovernanceCache.Text.Digits

/-!
# Documents

The value of a structured document: null, booleans, numbers, texts, lists, and objects whose
members are in the order of their names. A number without fraction and exponent that fits into 64
bits is an integer; every other number is a double, kept by its bits.
-/

namespace GovernanceCache

inductive Number where
  | integer (value : Int)
  | double (bits : UInt64)
deriving DecidableEq, Repr

namespace Number

/-- A double by its shortest decimal: with a point and at least one place from 1e-5 up to 1e16, and
with an exponent outside. -/
def doubleText (bits : UInt64) : String :=
  let sign := if UInt64.size / 2 ≤ bits.toNat then ['-'] else []
  let ⟨digits, exponent⟩ := Decimal.shortest bits
  let text := Nat.toDigits 10 digits
  let count : Int := text.length
  let lead := exponent + count - 1
  let body :=
    if digits = 0 then ['0', '.', '0']
    else if 0 ≤ exponent ∧ lead ≤ 15 then
      text ++ List.replicate exponent.toNat '0' ++ ['.', '0']
    else if 0 ≤ lead ∧ lead ≤ 15 then
      text.take (lead + 1).toNat ++ '.' :: text.drop (lead + 1).toNat
    else if -5 ≤ lead ∧ lead < 0 then
      '0' :: '.' :: List.replicate (-lead - 1).toNat '0' ++ text
    else
      let mark := if lead < 0 then '-' else '+'
      let tail := 'e' :: mark :: Nat.toDigits 10 lead.natAbs
      match text with
      | [d] => d :: tail
      | d :: rest => d :: '.' :: rest ++ tail
      | [] => tail
  String.ofList (sign ++ body)

end Number

/-- A structured document. -/
inductive Document where
  | null
  | boolean (value : Bool)
  | number (value : Number)
  | text (value : String)
  | list (items : List Document)
  | object (members : List (String × Document))
deriving Repr, Inhabited, BEq

namespace Document

def integer (value : Int) : Document := .number (.integer value)

def texts (values : List String) : Document := .list (values.map .text)

def textMap (entries : List (String × String)) : Document :=
  .object (entries.map fun e => (e.1, .text e.2))

/-- An object whose members are the given ones in the order of their names. -/
def ofFields (fields : List (String × Document)) : Document :=
  .object (fields.mergeSort fun a b => decide (a.1 ≤ b.1))

def member? (name : String) (members : List (String × Document)) : Option Document :=
  (members.find? fun m => m.1 == name).map (·.2)

end Document

end GovernanceCache
