/-!
# Decimal digits

Numbers written with a least count of digits, and numbers read from the digits in front of a text.
-/

namespace GovernanceCache.Text

/-- The decimal digits of `n`, with zeros in front up to `width` digits. -/
def padded (width n : Nat) : List Char :=
  let digits := Nat.toDigits 10 n
  List.replicate (width - digits.length) '0' ++ digits

/-- The number that a list of digits stands for. -/
def digitsValue (digits : List Char) : Nat :=
  digits.foldl (fun n c => 10 * n + (c.toNat - '0'.toNat)) 0

/-- The digits in front of a text, at most `limit` of them if there is a limit, and the rest. -/
def spanDigits (limit : Option Nat) (text : List Char) : List Char × List Char :=
  let digits := text.takeWhile Char.isDigit
  let digits := match limit with
    | some n => digits.take n
    | none => digits
  (digits, text.drop digits.length)

end GovernanceCache.Text
