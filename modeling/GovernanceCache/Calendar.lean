/-!
# Days of the calendar

Dates of the Gregorian calendar, extended without end in both directions, and their day numbers
counted from the first day of 1970. A day number is a closed formula in the year plus a walk over
the months; the way back picks the year by division and corrects it by at most one.
-/

namespace GovernanceCache

/-- A year, a month counted from one, and a day of that month counted from one. -/
structure Date where
  year : Int
  month : Nat
  day : Nat
deriving DecidableEq, Repr

namespace Date

/-- Every fourth year is a leap year, except the hundreds that are not a multiple of 400. -/
def isLeapYear (year : Int) : Bool :=
  year % 4 == 0 && (year % 100 != 0 || year % 400 == 0)

/-- The lengths of the twelve months. -/
def monthLengths (year : Int) : List Nat :=
  [31, if isLeapYear year then 29 else 28, 31, 30, 31, 30, 31, 31, 30, 31, 30, 31]

/-- Days from the first day of year zero to the first day of `year`. -/
def daysBeforeYear (year : Int) : Int :=
  365 * year + (year + 3) / 4 - (year + 99) / 100 + (year + 399) / 400

/-- Days from the first day of year zero to the first day of 1970. -/
def epochDay : Int := 719528

/-- The date exists in the calendar. -/
def Exists (date : Date) : Prop :=
  1 ≤ date.month ∧ date.month ≤ 12 ∧ 1 ≤ date.day ∧
    date.day ≤ ((monthLengths date.year)[date.month - 1]?).getD 0

instance (date : Date) : Decidable date.Exists := by
  unfold Exists
  infer_instance

/-- Days from the first day of 1970 to the date. -/
def dayNumber (date : Date) : Int :=
  let monthDays : Nat := ((monthLengths date.year).take (date.month - 1)).foldl (· + ·) 0
  daysBeforeYear date.year + monthDays + (date.day - 1) - epochDay

/-- The year that holds the day `day`, counted from the first day of year zero. -/
def yearOfDay (day : Int) : Int :=
  let guess := 400 * day / 146097
  if day < daysBeforeYear guess then guess - 1
  else if daysBeforeYear (guess + 1) ≤ day then guess + 1
  else guess

/-- Walks over months of the given lengths: how many are passed, and the days left over. -/
def splitDay : List Nat → Nat → Nat × Nat
  | [], day => (0, day)
  | length :: rest, day =>
    if day < length then (0, day)
    else
      let (months, left) := splitDay rest (day - length)
      (months + 1, left)

/-- The date of a day number. -/
def ofDayNumber (number : Int) : Date :=
  let day := number + epochDay
  let year := yearOfDay day
  let (months, left) := splitDay (monthLengths year) (day - daysBeforeYear year).toNat
  { year, month := months + 1, day := left + 1 }

end Date

end GovernanceCache
