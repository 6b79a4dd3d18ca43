/-!
# Instants

A moment of universal time as it is written down: whole seconds since the first moment of 1970 and
the nanoseconds into that second. A fraction of a second or more is the reading of a leap second,
which comes after every other reading of its second and before the next one. The type holds exactly
the moments between the years -262143 and 262142.
-/

namespace GovernanceCache

abbrev nanosPerSecond : Nat := 1000000000

/-- A signed span of time in nanoseconds. -/
abbrev Span : Type := Int

def Span.seconds (count : Int) : Span := count * 1000000000

def Span.milliseconds (count : Int) : Span := count * 1000000

/-- A moment of universal time. -/
structure Instant where
  /-- Whole seconds since the first moment of 1970. -/
  second : Int
  /-- Nanoseconds into the second; from one second on, into the leap second that follows. -/
  fraction : Nat
  second_ge : -8334601228800 ≤ second
  second_le : second ≤ 8210266876799
  fraction_lt : fraction < 2000000000
deriving DecidableEq, Repr

namespace Instant

/-- The first moment of 1970. -/
def epoch : Instant := ⟨0, 0, by decide, by decide, by decide⟩

instance : Inhabited Instant := ⟨epoch⟩

/-- The moment with the given reading, if it is in range. -/
def ofReading? (second : Int) (fraction : Nat) : Option Instant :=
  if h : -8334601228800 ≤ second ∧ second ≤ 8210266876799 ∧ fraction < 2000000000 then
    some ⟨second, fraction, h.1, h.2.1, h.2.2⟩
  else none

/-- The moment `count` nanoseconds after the epoch, if it is in range. -/
def ofNanos? (count : Int) : Option Instant :=
  ofReading? (count / nanosPerSecond) (count % nanosPerSecond).toNat

/-- The reading is not inside a leap second. -/
def IsOrdinary (t : Instant) : Prop := t.fraction < nanosPerSecond

instance (t : Instant) : Decidable t.IsOrdinary := by
  unfold IsOrdinary
  infer_instance

/-- Nanoseconds since the epoch, a leap second counting as the second that follows it. -/
def nanos (t : Instant) : Int := t.second * 1000000000 + t.fraction

def micros (t : Instant) : Int := t.second * 1000000 + (t.fraction / 1000 : Nat)

instance : LT Instant :=
  ⟨fun s t => s.second < t.second ∨ (s.second = t.second ∧ s.fraction < t.fraction)⟩

instance : LE Instant :=
  ⟨fun s t => s.second < t.second ∨ (s.second = t.second ∧ s.fraction ≤ t.fraction)⟩

theorem lt_def {s t : Instant} :
    s < t ↔ s.second < t.second ∨ (s.second = t.second ∧ s.fraction < t.fraction) := Iff.rfl

theorem le_def {s t : Instant} :
    s ≤ t ↔ s.second < t.second ∨ (s.second = t.second ∧ s.fraction ≤ t.fraction) := Iff.rfl

instance (s t : Instant) : Decidable (s < t) := decidable_of_iff _ lt_def.symm

instance (s t : Instant) : Decidable (s ≤ t) := decidable_of_iff _ le_def.symm

/-- The later of two moments. -/
instance : Max Instant := ⟨fun s t => if s ≤ t then t else s⟩

theorem max_def (s t : Instant) : max s t = if s ≤ t then t else s := rfl

theorem le_refl (t : Instant) : t ≤ t := Or.inr ⟨rfl, Nat.le_refl _⟩

theorem le_trans {s t u : Instant} (h : s ≤ t) (h' : t ≤ u) : s ≤ u := by
  rw [le_def] at *
  omega

theorem not_lt {s t : Instant} : ¬ s < t ↔ t ≤ s := by
  rw [lt_def, le_def]
  omega

theorem le_of_lt {s t : Instant} (h : s < t) : s ≤ t := by
  rw [lt_def] at h
  rw [le_def]
  omega

theorem le_max_left (s t : Instant) : s ≤ max s t := by
  rw [max_def]
  split
  · assumption
  · exact le_refl s

theorem le_max_right (s t : Instant) : t ≤ max s t := by
  rw [max_def]
  split
  · exact le_refl t
  · rename_i h
    rw [le_def] at *
    omega

/-- The span added to a moment. From inside a leap second, a step forward out of it starts from the
second before, and a step back of a second or more from the second after; a smaller step stays at
the same second. The result is absent if it is out of range. -/
def add? (t : Instant) (span : Span) : Option Instant :=
  if t.fraction < nanosPerSecond then
    ofNanos? (t.nanos + span)
  else if 1000000000 ≤ span ∨ (0 < span ∧ 2000000000 ≤ t.fraction + span) then
    ofNanos? (t.nanos - 1000000000 + span)
  else if span ≤ -1000000000 then
    ofNanos? (t.nanos + span)
  else
    ofReading? t.second (t.fraction + span).toNat

end Instant

end GovernanceCache
