import GovernanceCache.Calendar

/-!
# Day numbers and their dates

The date of a day number exists in the calendar, and its day number is the one it was made of: the
guess at the year is at most one off (`yearOfDay_spec`), and the walk over the months of that year
ends inside of it (`splitDay_spec`).
-/

namespace GovernanceCache.Date

/-- The days of months of the given lengths. -/
def daysOf (lengths : List Nat) : Nat := lengths.foldl (· + ·) 0

theorem daysOf_cons (length : Nat) (rest : List Nat) :
    daysOf (length :: rest) = length + daysOf rest := by
  have h : ∀ (l : List Nat) (n : Nat), l.foldl (· + ·) n = n + daysOf l := by
    intro l
    induction l with
    | nil => exact fun _ => rfl
    | cons m l ih =>
      intro n
      unfold daysOf
      rw [List.foldl_cons, List.foldl_cons, ih, ih (0 + m)]
      omega
  unfold daysOf
  rw [List.foldl_cons, h, Nat.zero_add]
  rfl

/-- The walk stops in a month that holds the days left over, and passes whole months before. -/
theorem splitDay_spec (lengths : List Nat) (day : Nat) (h : day < daysOf lengths) :
    (splitDay lengths day).2 < lengths[(splitDay lengths day).1]?.getD 0 ∧
      daysOf (lengths.take (splitDay lengths day).1) + (splitDay lengths day).2 = day := by
  induction lengths generalizing day with
  | nil => cases h
  | cons length rest ih =>
    rw [daysOf_cons] at h
    unfold splitDay
    split
    · rename_i hlt
      exact ⟨hlt, Nat.zero_add day⟩
    · rename_i hge
      obtain ⟨hleft, hdays⟩ := ih (day - length) (by omega)
      refine ⟨hleft, ?_⟩
      show daysOf (length :: rest.take _) + (splitDay rest (day - length)).2 = day
      rw [daysOf_cons]
      omega

/-- A year has the days of its months. -/
theorem daysOf_monthLengths (year : Int) :
    daysBeforeYear (year + 1) = daysBeforeYear year + daysOf (monthLengths year) := by
  have hleap : isLeapYear year = true ↔
      year % 4 = 0 ∧ (year % 100 ≠ 0 ∨ year % 400 = 0) := by
    simp [isLeapYear]
  unfold daysBeforeYear monthLengths
  by_cases h : isLeapYear year
  · have := hleap.mp h
    rw [if_pos h, show daysOf [31, 29, 31, 30, 31, 30, 31, 31, 30, 31, 30, 31] = 366 from rfl]
    omega
  · have := mt hleap.mpr h
    rw [if_neg h, show daysOf [31, 28, 31, 30, 31, 30, 31, 31, 30, 31, 30, 31] = 365 from rfl]
    omega

/-- Four centuries have 146097 days, so that the guess at a year is at most one off. -/
theorem guess_spec (day : Int) :
    daysBeforeYear (400 * day / 146097 - 1) ≤ day ∧
      day < daysBeforeYear (400 * day / 146097 + 1 + 1) := by
  unfold daysBeforeYear
  omega

/-- The year of a day holds it. -/
theorem yearOfDay_spec (day : Int) :
    daysBeforeYear (yearOfDay day) ≤ day ∧ day < daysBeforeYear (yearOfDay day + 1) := by
  obtain ⟨hlow, hhigh⟩ := guess_spec day
  unfold yearOfDay
  dsimp only
  generalize 400 * day / 146097 = guess at *
  split
  · rw [Int.sub_add_cancel]
    omega
  · split <;> omega

/-- The date of a day number exists, and has that day number. -/
theorem ofDayNumber_spec (number : Int) :
    (ofDayNumber number).Exists ∧ (ofDayNumber number).dayNumber = number := by
  obtain ⟨hfirst, hlast⟩ := yearOfDay_spec (number + epochDay)
  rw [daysOf_monthLengths] at hlast
  obtain ⟨hleft, hdays⟩ := splitDay_spec (monthLengths (yearOfDay (number + epochDay)))
    (number + epochDay - daysBeforeYear (yearOfDay (number + epochDay))).toNat (by omega)
  unfold ofDayNumber
  dsimp only
  generalize yearOfDay (number + epochDay) = year at *
  generalize splitDay (monthLengths year) _ = walked at *
  obtain ⟨months, left⟩ := walked
  dsimp only at hleft hdays ⊢
  have hmonths : months < 12 := by
    refine Nat.lt_of_not_le fun hge => ?_
    rw [List.getElem?_eq_none (show (monthLengths year).length ≤ months from hge)] at hleft
    cases hleft
  refine ⟨⟨?_, ?_, ?_, ?_⟩, ?_⟩
  · exact Nat.succ_pos _
  · exact hmonths
  · exact Nat.succ_pos _
  · exact hleft
  · show daysBeforeYear year + (daysOf ((monthLengths year).take months) : Nat) +
      (((left + 1 : Nat) : Int) - 1) - epochDay = number
    omega

theorem daysBeforeYear_mono {y z : Int} (h : y ≤ z) : daysBeforeYear y ≤ daysBeforeYear z := by
  rcases Int.le_iff_eq_or_lt.mp h with rfl | hlt
  · exact Int.le_refl _
  · unfold daysBeforeYear
    omega

/-- A year lies between others if its days do. -/
theorem year_ofDayNumber {number low high : Int} (hlow : daysBeforeYear low ≤ number + epochDay)
    (hhigh : number + epochDay < daysBeforeYear (high + 1)) :
    low ≤ (ofDayNumber number).year ∧ (ofDayNumber number).year ≤ high := by
  obtain ⟨hfirst, hlast⟩ := yearOfDay_spec (number + epochDay)
  show low ≤ yearOfDay (number + epochDay) ∧ yearOfDay (number + epochDay) ≤ high
  generalize yearOfDay (number + epochDay) = year at *
  constructor
  · refine Int.not_lt.mp fun hlt => ?_
    have := daysBeforeYear_mono (show year + 1 ≤ low from hlt)
    omega
  · refine Int.not_lt.mp fun hlt => ?_
    have := daysBeforeYear_mono (show high + 1 ≤ year from hlt)
    omega

theorem Exists.day_le {date : Date} (h : date.Exists) : date.day ≤ 31 := by
  obtain ⟨-, -, -, hday⟩ := h
  have hall : ∀ length ∈ monthLengths date.year, length ≤ 31 := by
    unfold monthLengths
    split <;> decide
  rcases hget : (monthLengths date.year)[date.month - 1]? with _ | length
  · rw [hget] at hday
    exact Nat.le_trans hday (by decide)
  · rw [hget] at hday
    exact Nat.le_trans hday (hall length (List.mem_of_getElem? hget))

end GovernanceCache.Date
