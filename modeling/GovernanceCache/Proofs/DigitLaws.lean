import GovernanceCache.Text.Digits
import Mathlib.Algebra.Ring.Nat

/-!
# Digits that are written and read

The digits of a number stand for it, with or without zeros in front (`digitsValue_padded`), and are
taken off a text as they were written in front of it (`spanDigits_append`).
-/

namespace GovernanceCache.Text

variable {limit : Option Nat} {width n : Nat} {digits rest : List Char}

theorem isDigit_padded (width n : Nat) : ∀ c ∈ padded width n, c.isDigit = true := by
  intro c hc
  rcases List.mem_append.mp hc with hzero | hdigit
  · rw [List.eq_of_mem_replicate hzero]
    rfl
  · exact Nat.isDigit_of_mem_toDigits (by decide) (by decide) hdigit

theorem padded_ne_nil (width n : Nat) : padded width n ≠ [] := by
  unfold padded
  exact List.append_ne_nil_of_right_ne_nil _ Nat.toDigits_ne_nil

theorem exists_padded (width n : Nat) :
    ∃ c cs, padded width n = c :: cs ∧ c.isDigit = true := by
  obtain ⟨c, cs, h⟩ := List.exists_cons_of_ne_nil (padded_ne_nil width n)
  exact ⟨c, cs, h, isDigit_padded width n c (h ▸ List.mem_cons_self)⟩

theorem length_padded (hw : 0 < width) (hn : n < 10 ^ width) : (padded width n).length = width := by
  have := (Nat.length_toDigits_le_iff (by decide) hw).mpr hn
  unfold padded
  rw [List.length_append, List.length_replicate]
  omega

/-- The number that digits make after a word. -/
def digitsAfter (word : Nat) (digits : List Char) : Nat :=
  digits.foldl (fun n c => 10 * n + (c.toNat - '0'.toNat)) word

theorem digitsValue_padded (width n : Nat) : digitsValue (padded width n) = n := by
  have hvalue : ∀ ds, digitsValue ds = Nat.ofDigitChars 10 ds 0 :=
    fun _ => Nat.ofDigitChars_eq_foldl.symm
  unfold padded
  rw [hvalue, Nat.ofDigitChars_append, Nat.ofDigitChars_replicate_zero, Nat.mul_zero,
    Nat.ofDigitChars_ten_toDigits]

theorem toNat_of_isDigit {c : Char} (h : c.isDigit = true) : 48 ≤ c.toNat ∧ c.toNat ≤ 57 := by
  simp only [Char.isDigit, Bool.and_eq_true, decide_eq_true_eq] at h
  exact h

theorem digitsAfter_lt (word : Nat) (hd : ∀ c ∈ digits, c.isDigit = true) :
    digitsAfter word digits < (word + 1) * 10 ^ digits.length := by
  induction digits generalizing word with
  | nil => simp [digitsAfter]
  | cons c rest ih =>
    obtain ⟨-, hc⟩ := toNat_of_isDigit (hd c List.mem_cons_self)
    refine Nat.lt_of_lt_of_le (ih _ fun d hrest => hd d (List.mem_cons_of_mem c hrest)) ?_
    rw [List.length_cons, Nat.pow_succ', ← Nat.mul_assoc]
    refine Nat.mul_le_mul_right _ ?_
    show 10 * word + (c.toNat - 48) + 1 ≤ (word + 1) * 10
    omega

theorem digitsValue_lt (hd : ∀ c ∈ digits, c.isDigit = true) :
    digitsValue digits < 10 ^ digits.length := by
  have := digitsAfter_lt 0 hd
  rwa [Nat.zero_add, Nat.one_mul] at this

/-- Digits are the digits in front of a text if the rest starts with none. -/
theorem spanDigits_append (hd : ∀ c ∈ digits, c.isDigit = true)
    (hr : rest.takeWhile Char.isDigit = []) (hl : ∀ k ∈ limit, digits.length ≤ k) :
    spanDigits limit (digits ++ rest) = (digits, rest) := by
  unfold spanDigits
  rw [List.takeWhile_append_of_pos hd, hr, List.append_nil]
  cases limit with
  | none => simp
  | some k => simp [List.take_of_length_le (hl k rfl)]

theorem isDigit_spanDigits (limit : Option Nat) (text : List Char) :
    ∀ c ∈ (spanDigits limit text).1, c.isDigit = true := by
  intro c hc
  have hmem : c ∈ text.takeWhile Char.isDigit := by
    unfold spanDigits at hc
    cases limit with
    | none => exact hc
    | some k => exact List.mem_of_mem_take hc
  exact List.all_eq_true.mp List.all_takeWhile c hmem

theorem length_spanDigits_le (k : Nat) (text : List Char) :
    (spanDigits (some k) text).1.length ≤ k ∧
      (spanDigits (some k) text).1.length ≤ text.length := by
  have htake : (spanDigits (some k) text).1 = (text.takeWhile Char.isDigit).take k := rfl
  have hprefix := (text.takeWhile_prefix Char.isDigit).length_le
  rw [htake, List.length_take]
  omega

theorem dropWhile_of_takeWhile {p : Char → Bool} (h : rest.takeWhile p = []) :
    rest.dropWhile p = rest := by
  have happend := @List.takeWhile_append_dropWhile _ p rest
  rwa [h] at happend

end GovernanceCache.Text
