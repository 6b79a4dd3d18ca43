import GovernanceCache.Decimal.Shortest
import GovernanceCache.Text.Digits

/-!
# Fixed decimal places

The exact value of a finite double, rounded to a count of decimal places; a tie goes to the even
neighbour.
-/

namespace GovernanceCache.Decimal

/-- The quotient rounded to the nearest whole number, a tie to the even one. -/
def roundedDiv (a b : Nat) : Nat :=
  let q := a / b
  let r := a % b
  if b < 2 * r ∨ (2 * r = b ∧ q % 2 = 1) then q + 1 else q

/-- The magnitude of a finite double with `places` decimal places. -/
def fixed (places : Nat) (value : Float) : String :=
  let (mantissa, exponent) := magnitude value.toBits
  let unit := Nat.pow 10 places
  let units :=
    roundedDiv (mantissa * Nat.pow 2 exponent.toNat * unit) (Nat.pow 2 (-exponent).toNat)
  String.ofList (Text.padded 1 (units / unit) ++ '.' :: Text.padded places (units % unit))

end GovernanceCache.Decimal
