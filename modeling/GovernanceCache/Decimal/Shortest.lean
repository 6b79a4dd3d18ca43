/-!
# The shortest decimal of a binary number

A binary floating-point number stands for all reals that round to it. Among the decimals in that
interval the ones with the fewest digits are the shortest, and of these the one nearest to the
number is chosen, of two equally near ones the even one. The search tries one digit after the other,
and for each count the two neighbours of the number on the grid of decimals with that many digits.
-/

namespace GovernanceCache.Decimal

/-- A decimal `digits * 10 ^ exponent`. -/
structure Scaled where
  digits : Nat
  exponent : Int
deriving DecidableEq, Repr

/-- The magnitude of a double from its bits: a mantissa and a binary exponent. -/
def magnitude (bits : UInt64) : Nat × Int :=
  let hiddenBit : Nat := 1 <<< 52
  let fraction : Nat := bits.toNat % hiddenBit
  let biased : Nat := bits.toNat / hiddenBit % 2048
  if biased = 0 then (fraction, -1074) else (fraction + hiddenBit, (biased : Int) - 1075)

/-- `a / b ≤ c * 10 ^ e`, in natural numbers. -/
def ratioLe (a b c : Nat) (e : Int) : Bool :=
  if 0 ≤ e then a ≤ c * Nat.pow 10 e.toNat * b else a * Nat.pow 10 (-e).toNat ≤ c * b

/-- `c * 10 ^ e ≤ a / b`, in natural numbers. -/
def leRatio (a b c : Nat) (e : Int) : Bool :=
  if 0 ≤ e then c * Nat.pow 10 e.toNat * b ≤ a else c * b ≤ a * Nat.pow 10 (-e).toNat

/-- The whole part of `a / b / 10 ^ e`. -/
def floorScaled (a b : Nat) (e : Int) : Nat :=
  if 0 ≤ e then a / (b * Nat.pow 10 e.toNat) else a * Nat.pow 10 (-e).toNat / b

/-- The exponent of the leading digit of `a / b`, looked for from `e` downwards. -/
def leadingExponent (a b : Nat) : Nat → Int → Int
  | 0, e => e
  | fuel + 1, e => if leRatio a b 1 e then e else leadingExponent a b fuel (e - 1)

/-- The reals that round to a number: bounds over one denominator, and whether they belong. -/
structure Interval where
  low : Nat
  high : Nat
  denominator : Nat
  closed : Bool

/-- `digits * 10 ^ exponent` lies in the interval. -/
def Interval.holds (i : Interval) (digits : Nat) (exponent : Int) : Bool :=
  if i.closed then
    ratioLe i.low i.denominator digits exponent && leRatio i.high i.denominator digits exponent
  else
    !leRatio i.low i.denominator digits exponent && !ratioLe i.high i.denominator digits exponent

/-- The reals that round to `mantissa * 2 ^ exponent`, over a denominator of four: half a unit on
each side, and a quarter below a power of two. -/
def Interval.around (mantissa : Nat) (exponent : Int) : Interval :=
  let below := if mantissa = 1 <<< 52 ∧ -1074 < exponent then 1 else 2
  let scale := Nat.pow 2 exponent.toNat
  { low := (4 * mantissa - below) * scale
    high := (4 * mantissa + 2) * scale
    denominator := 4 * Nat.pow 2 (-exponent).toNat
    closed := mantissa % 2 == 0 }

/-- Of the neighbours `d` and `d + 1` of `a / b` on a grid, the nearer one; of two equally near ones
the even one. -/
def nearer (a b d : Nat) (e : Int) : Nat :=
  let below := ratioLe (2 * a) b (2 * d + 1) e
  let above := leRatio (2 * a) b (2 * d + 1) e
  if below && (!above || d % 2 == 0) then d else d + 1

/-- Looks for the shortest decimal of `a / b`, trying grids from coarse to fine. -/
def searchGrids (a b : Nat) (i : Interval) : Nat → Int → Scaled
  | 0, e => ⟨floorScaled a b e, e⟩
  | fuel + 1, e =>
    let d := floorScaled a b e
    match i.holds d e, i.holds (d + 1) e with
    | true, true => ⟨nearer a b d e, e⟩
    | true, false => ⟨d, e⟩
    | false, true => ⟨d + 1, e⟩
    | false, false => searchGrids a b i fuel (e - 1)

/-- Drops trailing zeros of a positive count of digits. -/
def Scaled.trim : Nat → Scaled → Scaled
  | 0, s => s
  | fuel + 1, s =>
    if s.digits % 10 = 0 ∧ s.digits ≠ 0 then Scaled.trim fuel ⟨s.digits / 10, s.exponent + 1⟩ else s

/-- The shortest decimal of the magnitude of a finite double. -/
def shortest (bits : UInt64) : Scaled :=
  let (mantissa, exponent) := magnitude bits
  if mantissa = 0 then ⟨0, 0⟩
  else
    let a := mantissa * Nat.pow 2 exponent.toNat
    let b := Nat.pow 2 (-exponent).toNat
    let interval := Interval.around mantissa exponent
    (searchGrids a b interval 17 (leadingExponent a b 640 309)).trim 20

end GovernanceCache.Decimal
