import GovernanceCache.Calendar
import GovernanceCache.Instant
import GovernanceCache.Text.Blank
import GovernanceCache.Text.Digits

/-!
# Instants as text

Instants are written as `2023-11-14T22:13:20.500Z`: always in universal time, with no fraction or
with the three, six or nine digits that are exact. The reader takes any offset and is lenient about
blanks: they may stand in front of each number and around the separators, and a blank may take the
place of the `T`.
-/

namespace GovernanceCache.Instant

open GovernanceCache.Text

/-- Why a text is no instant. -/
inductive TextFault where
  | tooShort
  | invalid
  | outOfRange
  | tooLong
  | impossible
deriving DecidableEq, Repr

def TextFault.message : TextFault → String
  | .tooShort => "premature end of input"
  | .invalid => "input contains invalid characters"
  | .outOfRange => "input is out of range"
  | .tooLong => "trailing input"
  | .impossible => "no possible date and time matching input"

/-! ## Writing -/

/-- Years from 0 to 9999 have four digits; the others carry a sign and at least four. -/
def yearText (year : Int) : List Char :=
  if 0 ≤ year ∧ year ≤ 9999 then padded 4 year.toNat
  else (if year < 0 then '-' else '+') :: padded 4 year.natAbs

/-- The fewest groups of three digits that are exact. -/
def fractionText (nanos : Nat) : List Char :=
  if nanos = 0 then []
  else if nanos % 1000000 = 0 then '.' :: padded 3 (nanos / 1000000)
  else if nanos % 1000 = 0 then '.' :: padded 6 (nanos / 1000)
  else '.' :: padded 9 nanos

/-- The written form of an instant. The second of a leap reading is one more than the clock's. -/
def toChars (t : Instant) : List Char :=
  let date := Date.ofDayNumber (t.second / 86400)
  let clock := (t.second % 86400).toNat
  let leap := nanosPerSecond ≤ t.fraction
  let second := if leap then clock % 60 + 1 else clock % 60
  let nanos := if leap then t.fraction - nanosPerSecond else t.fraction
  yearText date.year ++ '-' :: padded 2 date.month ++ '-' :: padded 2 date.day ++
    'T' :: padded 2 (clock / 3600) ++ ':' :: padded 2 (clock / 60 % 60) ++
    ':' :: padded 2 second ++ fractionText nanos ++ ['Z']

/-- The written form of an instant. -/
def toText (t : Instant) : String := String.ofList t.toChars

/-! ## Reading -/

/-- A number of at least one digit, after blanks. Numbers from 2^63 on are out of range. -/
def readNumber (limit : Option Nat) (text : List Char) : Except TextFault (Nat × List Char) :=
  match text with
  | [] => .error .tooShort
  | _ =>
    let (digits, rest) := spanDigits limit text
    if digits.isEmpty then .error .invalid
    else if digitsValue digits < UInt64.size / 2 then .ok (digitsValue digits, rest)
    else .error .outOfRange

/-- A year: four digits at most, or a sign and any number of digits. -/
def readYear (text : List Char) : Except TextFault (Int × List Char) :=
  match dropBlanks text with
  | '-' :: rest => do
    let (n, rest) ← readNumber none rest
    if n ≤ UInt32.size / 2 then .ok (-n, rest) else .error .outOfRange
  | '+' :: rest => do
    let (n, rest) ← readNumber none rest
    if n < UInt32.size / 2 then .ok (n, rest) else .error .outOfRange
  | rest => do
    let (n, rest) ← readNumber (some 4) rest
    .ok (n, rest)

/-- A number of two digits at most between `low` and `high`. -/
def readPart (low high : Nat) (text : List Char) : Except TextFault (Nat × List Char) := do
  let (n, rest) ← readNumber (some 2) (dropBlanks text)
  if low ≤ n ∧ n ≤ high then .ok (n, rest) else .error .outOfRange

/-- A separator, after blanks. -/
def readMark (mark : Char) (text : List Char) : Except TextFault (List Char) :=
  match dropBlanks text with
  | [] => .error .tooShort
  | c :: rest => if c = mark then .ok rest else .error .invalid

/-- The `T` or the blank between date and time. -/
def readDivider : List Char → Except TextFault (List Char)
  | [] => .error .tooShort
  | c :: rest => if c = 'T' ∨ c = 't' ∨ c = ' ' then .ok rest else .error .invalid

/-- A fraction of a second in nanoseconds: digits after the ninth are cut. -/
def readFraction : List Char → Except TextFault (Nat × List Char)
  | '.' :: text => do
    let (n, rest) ← readNumber (some 9) text
    let count := text.length - rest.length
    .ok (n * Nat.pow 10 (9 - count), rest.dropWhile Char.isDigit)
  | text => .ok (0, text)

/-- Two digits, as their values. A lone character of one byte is too short. -/
def readTwoDigits : List Char → Except TextFault (Nat × Nat × List Char)
  | a :: b :: rest =>
    if a.isDigit ∧ b.isDigit then .ok (a.toNat - '0'.toNat, b.toNat - '0'.toNat, rest)
    else .error .invalid
  | [c] => if c.toNat < 0x80 then .error .tooShort else .error .invalid
  | [] => .error .tooShort

/-- The hours and minutes of an offset in seconds; colons and blanks may stand between them. -/
def readOffsetClock (text : List Char) : Except TextFault (Nat × List Char) := do
  let (h1, h2, rest) ← readTwoDigits text
  let rest := rest.dropWhile fun c => c == ':' || isBlank c
  let (m1, m2, rest) ← readTwoDigits rest
  if m1 ≤ 5 then .ok ((10 * h1 + h2) * 3600 + (10 * m1 + m2) * 60, rest)
  else .error .outOfRange

/-- The offset from universal time in seconds: `Z`, `UTC`, or a sign with hours and minutes. -/
def readOffset (text : List Char) : Except TextFault (Int × List Char) :=
  if (text.take 3).map Char.toUpper = ['U', 'T', 'C'] then .ok (0, text.drop 3)
  else
    match text with
    | [] => .error .tooShort
    | c :: rest =>
      if c = 'Z' ∨ c = 'z' then .ok (0, rest)
      else if c = '+' then do
        let (n, rest) ← readOffsetClock rest
        .ok (n, rest)
      else if c = '-' ∨ c = '\u2212' then do
        let (n, rest) ← readOffsetClock rest
        .ok (-n, rest)
      else .error .invalid

/-- The instant with the given date, clock and offset. The sixtieth second is the leap second after
the fifty-ninth. -/
def ofParts (date : Date) (hour minute second nanos : Nat) (offset : Int) :
    Except TextFault Instant := do
  if ¬ (date.Exists ∧ -262143 ≤ date.year ∧ date.year ≤ 262142) then throw .outOfRange
  if ¬ (-86400 < offset ∧ offset < 86400) then throw .outOfRange
  let clock := hour * 3600 + minute * 60 + min second 59
  let fraction := if second = 60 then nanos + nanosPerSecond else nanos
  match ofReading? (date.dayNumber * 86400 + clock - offset) fraction with
  | some t => pure t
  | none => throw .impossible

/-- Reads an instant. The first part that cannot be read decides the fault. -/
def ofChars? (text : List Char) : Except TextFault Instant := do
  let (year, rest) ← readYear text
  let rest ← readMark '-' rest
  let (month, rest) ← readPart 1 12 rest
  let rest ← readMark '-' rest
  let (day, rest) ← readPart 1 31 rest
  let rest ← readDivider rest
  let (hour, rest) ← readPart 0 23 rest
  let rest ← readMark ':' rest
  let (minute, rest) ← readPart 0 59 rest
  let rest ← readMark ':' rest
  let (second, rest) ← readPart 0 60 rest
  let (nanos, rest) ← readFraction rest
  let (offset, rest) ← readOffset (dropBlanks rest)
  if ¬ (dropBlanks rest).isEmpty then throw .tooLong
  ofParts ⟨year, month, day⟩ hour minute second nanos offset

/-- Reads an instant. -/
def ofText? (text : String) : Except TextFault Instant := ofChars? text.toList

end GovernanceCache.Instant
