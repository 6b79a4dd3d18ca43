import GovernanceCache.Instant.Text
import GovernanceCache.Proofs.CalendarDays
import GovernanceCache.Proofs.DigitLaws

/-!
# Instants that are read back

An instant is read back from its own text if and only if it is legible: outside of every leap
second or in the one that ends a minute (`ofText?_toText_iff`). No other instant comes out of a
text.

1. Each part of a written instant is read as it was written, whatever follows it
   (`readYear_yearText`, `readPart_padded`, `readFraction_fractionText`), so that the text is read
   as its parts (`ofChars?_written`).
2. The parts make up the instant again, since the day number of a date is the one that the date was
   made of (`ofText?_toText`).
3. Fractions are below a second, and offsets are whole minutes (`legible_of_ofText?`).
-/

namespace GovernanceCache

open Text

/-! ## Blanks -/

namespace Text

theorem not_isBlank_of_isDigit {c : Char} (h : c.isDigit = true) : isBlank c = false := by
  have hc := toNat_of_isDigit h
  unfold isBlank
  simp
  omega

/-- A text that starts with digits starts with no blanks. -/
theorem dropBlanks_padded (width n : Nat) (rest : List Char) :
    dropBlanks (padded width n ++ rest) = padded width n ++ rest := by
  obtain ⟨c, cs, hc, hdigit⟩ := exists_padded width n
  unfold dropBlanks
  rw [hc, List.cons_append, List.dropWhile_cons_of_neg]
  simp [not_isBlank_of_isDigit hdigit]

end Text

namespace Instant

variable {limit : Option Nat} {width n : Nat} {rest : List Char}

/-! ## Reading parts -/

theorem readNumber_padded (hn : n < UInt64.size / 2) (hr : rest.takeWhile Char.isDigit = [])
    (hl : ∀ k ∈ limit, (padded width n).length ≤ k) :
    readNumber limit (padded width n ++ rest) = .ok (n, rest) := by
  have hne : padded width n ++ rest ≠ [] := by simp [padded_ne_nil]
  unfold readNumber
  split
  · rename_i hnil
    exact absurd hnil hne
  · rw [spanDigits_append (isDigit_padded width n) hr hl]
    simp [padded_ne_nil, digitsValue_padded, hn]

theorem readPart_padded {low high : Nat} (hlow : low ≤ n) (hhigh : n ≤ high) (h : high < 100)
    (hr : rest.takeWhile Char.isDigit = []) :
    readPart low high (padded 2 n ++ rest) = .ok (n, rest) := by
  have hlength : (padded 2 n).length = 2 := length_padded (by decide) (by omega)
  have hn : n < UInt64.size / 2 := Nat.lt_of_lt_of_le (show n < 100 by omega) (by decide)
  unfold readPart
  rw [dropBlanks_padded, readNumber_padded hn hr (by simp [hlength])]
  exact if_pos ⟨hlow, hhigh⟩

theorem readMark_cons {mark : Char} (hm : isBlank mark = false) (rest : List Char) :
    readMark mark (mark :: rest) = .ok rest := by
  unfold readMark dropBlanks
  rw [List.dropWhile_cons_of_neg (by simp [hm])]
  exact if_pos rfl

/-- Four digits make up a year without a sign, and more of them one with a sign. -/
theorem readYear_yearText {year : Int} (hlow : -262143 ≤ year) (hhigh : year ≤ 262142)
    (hr : rest.takeWhile Char.isDigit = []) :
    readYear (yearText year ++ rest) = .ok (year, rest) := by
  have hbound : 262144 ≤ UInt32.size / 2 ∧ 262144 ≤ UInt64.size / 2 := by decide
  unfold yearText
  split
  · rename_i hplain
    have hlength : (padded 4 year.toNat).length = 4 := length_padded (by decide) (by omega)
    have hread : readNumber (some 4) (padded 4 year.toNat ++ rest) = .ok (year.toNat, rest) :=
      readNumber_padded (by omega) hr (by simp [hlength])
    obtain ⟨c, cs, hc, hdigit⟩ := exists_padded 4 year.toNat
    unfold readYear
    rw [dropBlanks_padded]
    split
    · rename_i heq
      rw [hc] at heq
      exact absurd ((List.cons.inj heq).1 ▸ hdigit) (by decide)
    · rename_i heq
      rw [hc] at heq
      exact absurd ((List.cons.inj heq).1 ▸ hdigit) (by decide)
    · rw [hread]
      show Except.ok ((year.toNat : Int), rest) = _
      rw [Int.toNat_of_nonneg hplain.1]
  · rename_i hsigned
    have hread : readNumber none (padded 4 year.natAbs ++ rest) = .ok (year.natAbs, rest) :=
      readNumber_padded (by omega) hr (by simp)
    split
    · show (readNumber none (padded 4 year.natAbs ++ rest) >>= fun _ => _) = _
      rw [hread]
      show (if year.natAbs ≤ UInt32.size / 2 then Except.ok (-(year.natAbs : Int), rest) else _) = _
      rw [if_pos (by omega), show -(year.natAbs : Int) = year by omega]
    · show (readNumber none (padded 4 year.natAbs ++ rest) >>= fun _ => _) = _
      rw [hread]
      show (if year.natAbs < UInt32.size / 2 then Except.ok ((year.natAbs : Int), rest) else _) = _
      rw [if_pos (by omega), show (year.natAbs : Int) = year by omega]

theorem readFraction_padded {count : Nat} (hpos : 0 < count) (hcount : count ≤ 9)
    (hn : n < 10 ^ count) (hr : rest.takeWhile Char.isDigit = []) :
    readFraction ('.' :: padded count n ++ rest) = .ok (n * 10 ^ (9 - count), rest) := by
  have hlength := length_padded hpos hn
  have hlt : n < UInt64.size / 2 :=
    Nat.lt_of_lt_of_le (Nat.lt_of_lt_of_le hn (Nat.pow_le_pow_right (by decide) hcount)) (by decide)
  have hread : readNumber (some 9) (padded count n ++ rest) = .ok (n, rest) :=
    readNumber_padded hlt hr (by simp [hlength, hcount])
  show (readNumber (some 9) (padded count n ++ rest) >>= fun _ => _) = _
  rw [hread]
  show Except.ok (n * 10 ^ (9 - ((padded count n ++ rest).length - rest.length)), _) = _
  rw [List.length_append, hlength, Nat.add_sub_cancel, dropWhile_of_takeWhile hr]

/-- The digits that are left out are zeros. -/
theorem readFraction_fractionText (hn : n < nanosPerSecond) (hr : rest.takeWhile Char.isDigit = [])
    (hd : rest.head? ≠ some '.') :
    readFraction (fractionText n ++ rest) = .ok (n, rest) := by
  have hlt : n < 1000000000 := hn
  unfold fractionText
  split
  · rename_i hzero
    rw [hzero, List.nil_append]
    unfold readFraction
    split
    · exact absurd rfl hd
    · rfl
  · split
    · rw [readFraction_padded (by decide) (by decide) (by omega) hr,
        show n / 1000000 * 10 ^ (9 - 3) = n by omega]
    · split
      · rw [readFraction_padded (by decide) (by decide) (by omega) hr,
          show n / 1000 * 10 ^ (9 - 6) = n by omega]
      · rw [readFraction_padded (by decide) (by decide) (by omega) hr, Nat.sub_self, Nat.pow_zero,
          Nat.mul_one]

theorem takeWhile_fractionText (n : Nat) :
    (fractionText n ++ ['Z']).takeWhile Char.isDigit = [] := by
  unfold fractionText
  split
  · rfl
  · split
    · rfl
    · split <;> rfl

/-! ## Reading what is written -/

theorem ok_bind {α β : Type} {x : Except TextFault α} {a : α} (h : x = .ok a)
    (f : α → Except TextFault β) : (x >>= f) = f a := by
  rw [h]
  rfl

/-- A written date and clock are read part by part. -/
theorem ofChars?_written {date : Date} {hour minute second nanos : Nat} (hdate : date.Exists)
    (hlow : -262143 ≤ date.year) (hhigh : date.year ≤ 262142) (hhour : hour ≤ 23)
    (hminute : minute ≤ 59) (hsecond : second ≤ 60) (hnanos : nanos < nanosPerSecond) :
    ofChars? (yearText date.year ++ '-' :: (padded 2 date.month ++ '-' :: (padded 2 date.day ++
      'T' :: (padded 2 hour ++ ':' :: (padded 2 minute ++ ':' :: (padded 2 second ++
        (fractionText nanos ++ ['Z']))))))) =
      ofParts date hour minute second nanos 0 := by
  have hday' := hdate.day_le
  obtain ⟨hmonth, hmonth', hday, -⟩ := hdate
  refine (ok_bind (readYear_yearText hlow hhigh rfl) _).trans ?_
  refine (ok_bind (readMark_cons rfl _) _).trans ?_
  refine (ok_bind (readPart_padded hmonth hmonth' (by decide) rfl) _).trans ?_
  refine (ok_bind (readMark_cons rfl _) _).trans ?_
  refine (ok_bind (readPart_padded hday hday' (by decide) rfl) _).trans ?_
  refine (ok_bind (show readDivider ('T' :: _) = .ok _ from rfl) _).trans ?_
  refine (ok_bind (readPart_padded (Nat.zero_le _) hhour (by decide) rfl) _).trans ?_
  refine (ok_bind (readMark_cons rfl _) _).trans ?_
  refine (ok_bind (readPart_padded (Nat.zero_le _) hminute (by decide) rfl) _).trans ?_
  refine (ok_bind (readMark_cons rfl _) _).trans ?_
  refine (ok_bind (readPart_padded (Nat.zero_le _) hsecond (by decide)
    (takeWhile_fractionText nanos)) _).trans ?_
  refine (ok_bind (readFraction_fractionText hnanos rfl (by decide)) _).trans ?_
  rfl

/-- What is written of an instant names it: it is outside of every leap second, or inside of one
that ends a minute. -/
def IsLegible (t : Instant) : Prop := t.IsOrdinary ∨ t.second % 60 = 59

instance (t : Instant) : Decidable t.IsLegible := by
  unfold IsLegible
  infer_instance

theorem ofReading?_self (t : Instant) : ofReading? t.second t.fraction = some t :=
  dif_pos ⟨t.second_ge, t.second_le, t.fraction_lt⟩

theorem ofParts_eq {t : Instant} {date : Date} {hour minute second nanos : Nat}
    (hdate : date.Exists) (hlow : -262143 ≤ date.year) (hhigh : date.year ≤ 262142)
    (hs : date.dayNumber * 86400 + (hour * 3600 + minute * 60 + min second 59 : Nat) = t.second)
    (hf : (if second = 60 then nanos + nanosPerSecond else nanos) = t.fraction) :
    ofParts date hour minute second nanos 0 = .ok t := by
  unfold ofParts
  rw [if_neg (not_not_intro ⟨hdate, hlow, hhigh⟩), if_neg (by decide)]
  dsimp only
  rw [hf, Int.sub_zero, hs, ofReading?_self]
  rfl

theorem ofText?_toText {t : Instant} (h : t.IsLegible) : ofText? t.toText = .ok t := by
  have hlow := t.second_ge
  have hhigh := t.second_le
  have hfraction := t.fraction_lt
  have hnanos : nanosPerSecond = 1000000000 := rfl
  obtain ⟨hdate, hnumber⟩ := Date.ofDayNumber_spec (t.second / 86400)
  have hyear : -262143 ≤ (Date.ofDayNumber (t.second / 86400)).year ∧
      (Date.ofDayNumber (t.second / 86400)).year ≤ 262142 := by
    have hfirst : Date.daysBeforeYear (-262143) = -95745764 := by decide
    have hlast : Date.daysBeforeYear (262142 + 1) = 95745765 := by decide
    refine Date.year_ofDayNumber ?_ ?_ <;> unfold Date.epochDay <;> omega
  unfold ofText? toText toChars
  rw [String.toList_ofList]
  simp only [List.append_assoc, List.cons_append]
  rw [ofChars?_written hdate hyear.1 hyear.2 (by omega) (by omega) (by split <;> omega)
    (by split <;> omega)]
  refine ofParts_eq hdate hyear.1 hyear.2 ?_ ?_
  all_goals by_cases hleap : nanosPerSecond ≤ t.fraction
  all_goals simp only [hleap, if_true, if_false]
  · have hlast : t.second % 60 = 59 := h.resolve_left (Nat.not_lt.mpr hleap)
    rw [hnumber]
    omega
  · rw [hnumber]
    omega
  · have hlast : t.second % 60 = 59 := h.resolve_left (Nat.not_lt.mpr hleap)
    rw [if_pos (by omega)]
    omega
  · rw [if_neg (by omega)]

/-! ## What can be read -/

theorem of_bind_ok {α β : Type} {x : Except TextFault α} {f : α → Except TextFault β} {b : β}
    (h : (x >>= f) = .ok b) : ∃ a, x = .ok a ∧ f a = .ok b := by
  cases x with
  | error fault => cases h
  | ok a => exact ⟨a, rfl, h⟩

theorem readNumber_eq_ok {text : List Char} (h : readNumber limit text = .ok (n, rest)) :
    n = digitsValue (spanDigits limit text).1 ∧
      rest = text.drop (spanDigits limit text).1.length := by
  unfold readNumber at h
  split at h
  · cases h
  · dsimp only at h
    split at h
    · cases h
    · split at h
      · obtain ⟨rfl, rfl⟩ := Prod.mk.inj (Except.ok.inj h)
        exact ⟨rfl, rfl⟩
      · cases h

theorem readFraction_lt {text : List Char} (h : readFraction text = .ok (n, rest)) :
    n < nanosPerSecond := by
  unfold readFraction at h
  split at h
  · rename_i text
    obtain ⟨⟨value, left⟩, hnumber, h⟩ := of_bind_ok h
    obtain ⟨hvalue, hleft⟩ := readNumber_eq_ok hnumber
    obtain ⟨hnine, hlength⟩ := length_spanDigits_le 9 text
    have hlt := digitsValue_lt (isDigit_spanDigits (some 9) text)
    have hn : value * 10 ^ (9 - (text.length - left.length)) = n :=
      congrArg Prod.fst (Except.ok.inj h)
    rw [hleft, List.length_drop, Nat.sub_sub_self hlength] at hn
    rw [← hvalue] at hlt
    calc n = value * 10 ^ (9 - (spanDigits (some 9) text).1.length) := hn.symm
      _ < 10 ^ (spanDigits (some 9) text).1.length *
          10 ^ (9 - (spanDigits (some 9) text).1.length) :=
        Nat.mul_lt_mul_of_pos_right hlt (Nat.pow_pos (by decide))
      _ = nanosPerSecond := by rw [← Nat.pow_add, Nat.add_sub_cancel' hnine]
  · obtain ⟨rfl, -⟩ := Prod.mk.inj (Except.ok.inj h)
    decide

theorem readOffsetClock_minutes {text : List Char} (h : readOffsetClock text = .ok (n, rest)) :
    n % 60 = 0 := by
  unfold readOffsetClock at h
  obtain ⟨⟨h₁, h₂, _⟩, -, h⟩ := of_bind_ok h
  obtain ⟨⟨m₁, m₂, _⟩, -, h⟩ := of_bind_ok h
  dsimp only at h
  split at h
  · have hn : (10 * h₁ + h₂) * 3600 + (10 * m₁ + m₂) * 60 = n :=
      congrArg Prod.fst (Except.ok.inj h)
    omega
  · cases h

/-- Offsets are whole minutes. -/
theorem readOffset_minutes {text : List Char} {offset : Int}
    (h : readOffset text = .ok (offset, rest)) : offset % 60 = 0 := by
  unfold readOffset at h
  split at h
  · obtain ⟨rfl, -⟩ := Prod.mk.inj (Except.ok.inj h)
    rfl
  · split at h
    · cases h
    · split at h
      · obtain ⟨rfl, -⟩ := Prod.mk.inj (Except.ok.inj h)
        rfl
      · split at h
        · obtain ⟨⟨clock, _⟩, hclock, h⟩ := of_bind_ok h
          have := readOffsetClock_minutes hclock
          obtain ⟨rfl, -⟩ := Prod.mk.inj (Except.ok.inj h)
          omega
        · split at h
          · obtain ⟨⟨clock, _⟩, hclock, h⟩ := of_bind_ok h
            have := readOffsetClock_minutes hclock
            obtain ⟨rfl, -⟩ := Prod.mk.inj (Except.ok.inj h)
            omega
          · cases h

theorem ofReading?_eq_some {second : Int} {fraction : Nat} {t : Instant}
    (h : ofReading? second fraction = some t) : t.second = second ∧ t.fraction = fraction := by
  unfold ofReading? at h
  split at h
  · obtain rfl := Option.some.inj h
    exact ⟨rfl, rfl⟩
  · cases h

/-- A leap second is read at the end of a minute only. -/
theorem ofParts_legible {t : Instant} {date : Date} {hour minute second nanos : Nat} {offset : Int}
    (hnanos : nanos < nanosPerSecond) (hoffset : offset % 60 = 0)
    (h : ofParts date hour minute second nanos offset = .ok t) : t.IsLegible := by
  unfold ofParts at h
  by_cases hdate : date.Exists ∧ -262143 ≤ date.year ∧ date.year ≤ 262142
  · rw [if_neg (not_not_intro hdate)] at h
    by_cases hrange : -86400 < offset ∧ offset < 86400
    · rw [if_neg (not_not_intro hrange)] at h
      dsimp only at h
      generalize hf : (if second = 60 then nanos + nanosPerSecond else nanos) = fraction at h
      split at h
      · rename_i heq
        obtain rfl := Except.ok.inj h
        obtain ⟨hsecond, hfraction⟩ := ofReading?_eq_some heq
        by_cases hleap : second = 60
        · refine .inr ?_
          rw [hsecond, hleap]
          omega
        · refine .inl ?_
          rw [if_neg hleap] at hf
          show _ < nanosPerSecond
          rwa [hfraction, ← hf]
      · cases h
    · rw [if_pos hrange] at h
      cases h
  · rw [if_pos hdate] at h
    cases h

/-- Every instant that is read is written legibly: leap seconds end minutes, and offsets are whole
minutes. -/
theorem legible_of_ofText? {text : String} {t : Instant} (h : ofText? text = .ok t) :
    t.IsLegible := by
  unfold ofText? ofChars? at h
  obtain ⟨⟨year, _⟩, -, h⟩ := of_bind_ok h
  obtain ⟨_, -, h⟩ := of_bind_ok h
  obtain ⟨⟨month, _⟩, -, h⟩ := of_bind_ok h
  obtain ⟨_, -, h⟩ := of_bind_ok h
  obtain ⟨⟨day, _⟩, -, h⟩ := of_bind_ok h
  obtain ⟨_, -, h⟩ := of_bind_ok h
  obtain ⟨⟨hour, _⟩, -, h⟩ := of_bind_ok h
  obtain ⟨_, -, h⟩ := of_bind_ok h
  obtain ⟨⟨minute, _⟩, -, h⟩ := of_bind_ok h
  obtain ⟨_, -, h⟩ := of_bind_ok h
  obtain ⟨⟨second, _⟩, -, h⟩ := of_bind_ok h
  obtain ⟨⟨nanos, _⟩, hfraction, h⟩ := of_bind_ok h
  obtain ⟨⟨offset, _⟩, hoffset, h⟩ := of_bind_ok h
  dsimp only at h
  split at h
  · cases h
  · exact ofParts_legible (readFraction_lt hfraction) (readOffset_minutes hoffset) h

theorem ofText?_toText_iff (t : Instant) : ofText? t.toText = .ok t ↔ t.IsLegible :=
  ⟨legible_of_ofText?, ofText?_toText⟩

end Instant

end GovernanceCache
