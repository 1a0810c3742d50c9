import Calculator.Proofs.Number.Denotation
import Mathlib

/-!
# Integers next to a decimal

The integers next to a decimal, downward and toward zero, and the integer that a decimal is. A value
below one is told by the exponent of its leading digit, and what remains is shifted by a power of ten.
Both ways agree as long as that exponent fits a machine word; where it wraps, a huge value passes for
one below one.
-/

namespace Calculator

/-- Rounding toward zero gives the integer whose magnitude is next below, with the same sign. -/
theorem truncated_bounds (q : ℚ) :
    |(truncated q : ℚ)| ≤ |q| ∧ |q| < |(truncated q : ℚ)| + 1 ∧
      (truncated q = 0 ∨ SignType.sign (truncated q) = SignType.sign q) := by
  have positive {p : ℚ} (nonneg : 0 ≤ p) : |(⌊p⌋ : ℚ)| ≤ |p| ∧ |p| < |(⌊p⌋ : ℚ)| + 1 ∧
      (⌊p⌋ = 0 ∨ SignType.sign ⌊p⌋ = SignType.sign p) := by
    have whole : (0 : ℤ) ≤ ⌊p⌋ := Int.floor_nonneg.mpr nonneg
    have cast : (0 : ℚ) ≤ ⌊p⌋ := Int.cast_nonneg whole
    rw [abs_of_nonneg nonneg, abs_of_nonneg cast]
    refine ⟨Int.floor_le p, Int.lt_floor_add_one p, ?_⟩
    rcases whole.eq_or_lt with zero | above
    · exact .inl zero.symm
    · have below := (Int.cast_pos (R := ℚ).mpr above).trans_le (Int.floor_le p)
      exact .inr (by rw [sign_pos above, sign_pos below])
  rcases le_or_gt 0 q with nonneg | negative
  · rw [truncated, if_pos nonneg]
    exact positive nonneg
  · obtain ⟨lower, upper, sign⟩ := positive (neg_nonneg.mpr negative.le)
    rw [truncated, if_neg negative.not_ge]
    rw [Int.floor_neg, Int.cast_neg, abs_neg, abs_neg] at lower upper
    rw [Int.floor_neg, neg_eq_zero, Left.sign_neg, Left.sign_neg, neg_inj] at sign
    exact ⟨lower, upper, sign⟩

namespace Decimal

variable {x : Decimal}

/-- Whether an integer is found next to a decimal: one below one, or one with a scale for which a power
of ten is formed. -/
def Usable (x : Decimal) : Prop := x.scale.toInt.natAbs ≤ integerDigits ∨ 0 < |x.rational| ∧ |x.rational| < 1

/-- The exponent tells between which powers of ten a decimal is exactly where it fits a machine word. -/
theorem exponent_bounds_iff (nonzero : x.mantissa ≠ 0) :
    10 ^ x.exponent.toInt ≤ |x.rational| ∧ |x.rational| < 10 ^ (x.exponent.toInt + 1) ↔
      x.ExponentFits := by
  constructor
  · rintro ⟨lower, upper⟩ -
    have bounds := rational_bounds nonzero
    have ten : (1 : ℚ) < 10 := by norm_num
    have above := (zpow_lt_zpow_iff_right₀ ten).mp (lower.trans_lt bounds.2)
    have below := (zpow_lt_zpow_iff_right₀ ten).mp (bounds.1.trans_lt upper)
    have least := x.exponent.le_toInt
    have limit := x.exponent.toInt_lt
    exact ⟨by omega, by omega⟩
  · intro fits
    exact exponent_bounds fits nonzero

/-- A decimal with a scale for which a power of ten is formed is found to be an integer, unless it is
small, if it is that integer. -/
theorem integer_eq_some_iff (large : ¬ x.isSmall = true) (short : x.scale.toInt.natAbs ≤ integerDigits)
    (n : ℤ) : x.integer? = some n ↔ x.rational = n := by
  have power : powerOfTen x.scale.toInt.natAbs = .ok (tenTo x.scale.toInt.natAbs : ℤ) := if_pos short
  have sign : x.scale ≤ 0 ↔ x.scale.toInt ≤ 0 := Int64.le_iff_toInt_le
  rw [integer?, if_neg large, power]
  simp only [sign]
  by_cases whole : x.scale.toInt ≤ 0
  · rw [if_pos whole, rational_eq_mul whole, Int.cast_inj, Option.some_inj]
  · have nonzero : (tenTo x.scale.toInt.natAbs : ℤ) ≠ 0 :=
      Int.natCast_ne_zero.mpr (Nat.pow_pos (by decide)).ne'
    rw [if_neg whole, rational_eq_div (not_le.mp whole),
      div_eq_iff (Int.cast_ne_zero.mpr nonzero), ← Int.cast_mul, Int.cast_inj]
    split_ifs with divides
    · rw [Option.some_inj, Int.tdiv_eq_iff_eq_mul_left nonzero (Int.dvd_of_tmod_eq_zero divides)]
    · refine iff_of_false nofun fun multiple => divides ?_
      rw [multiple]
      exact Int.mul_tmod_left _ _

/-- The integer that a decimal is found to be is the decimal. -/
theorem rational_of_integer {n : ℤ} (found : x.integer? = some n) : x.rational = n := by
  by_cases small : x.isSmall = true
  · rw [integer?, if_pos small] at found
    cases found
  · by_cases short : x.scale.toInt.natAbs ≤ integerDigits
    · exact (integer_eq_some_iff small short n).mp found
    · have power : powerOfTen x.scale.toInt.natAbs = .error .badArgumentValue := if_neg short
      rw [integer?, if_neg small, power] at found
      cases found

/-- What is small is told by its exponent, and the rest of what is usable has a usable scale. -/
theorem Usable.isSmall_or (usable : x.Usable) (fits : x.ExponentFits) :
    x.isSmall = true ∨ x.scale.toInt.natAbs ≤ integerDigits := by
  rcases usable with short | ⟨positive, below⟩
  · exact .inr short
  · exact .inl ((isSmall_iff fits).mpr
      ⟨(rational_eq_zero_iff x).not.mp (abs_pos.mp positive), below⟩)

/-- A usable decimal is not found to be an integer only if it is none. -/
theorem integer_eq_none_iff (fits : x.ExponentFits) (usable : x.Usable) :
    x.integer? = none ↔ ∀ n : ℤ, x.rational ≠ n := by
  by_cases small : x.isSmall = true
  · obtain ⟨nonzero, below⟩ := (isSmall_iff fits).mp small
    rw [integer?, if_pos small]
    refine iff_of_true rfl fun n same => nonzero ?_
    rw [same, ← Int.cast_abs, ← Int.cast_one, Int.cast_lt, Int.abs_lt_one_iff] at below
    rwa [below, Int.cast_zero, rational_eq_zero_iff] at same
  · have short := (usable.isSmall_or fits).resolve_left small
    simp only [Option.eq_none_iff_forall_ne_some, ne_eq, integer_eq_some_iff small short]

/-- Integers are extracted correctly from decimals. An integer that a decimal is found to be is the
decimal. Let the exponent of the leading digit fit a machine word, which is exactly where it tells
between which powers of ten the decimal is. Then an integer that is found downward is the next one
below, and one that is found toward zero is the next one in magnitude and has the sign of the decimal or
is zero; and if the scale is within the range for which powers of ten are formed, or the decimal is
strictly between minus one and one without being zero, both are found, and the decimal is found to be an
integer if it is one. -/
theorem integral_extraction (x : Decimal) :
    (∀ n, x.integer? = some n → x.rational = n) ∧
    (x.mantissa ≠ 0 →
      (10 ^ x.exponent.toInt ≤ |x.rational| ∧ |x.rational| < 10 ^ (x.exponent.toInt + 1) ↔
        x.ExponentFits)) ∧
    (x.ExponentFits →
      (∀ n, x.floor = .ok n → n ≤ x.rational ∧ x.rational < n + 1) ∧
      (∀ n, x.truncate = .ok n → |(n : ℚ)| ≤ |x.rational| ∧ |x.rational| < |(n : ℚ)| + 1 ∧
        (n = 0 ∨ SignType.sign n = SignType.sign x.rational)) ∧
      (x.Usable → (∃ n, x.floor = .ok n) ∧ (∃ n, x.truncate = .ok n) ∧
        (x.integer? = none → ∀ n : ℤ, x.rational ≠ n))) := by
  refine ⟨fun n => rational_of_integer, exponent_bounds_iff, fun fits => ⟨?_, ?_, fun usable => ?_⟩⟩
  · intro n found
    rw [(eq_of_floor_truncate fits).1 found]
    exact ⟨Int.floor_le _, Int.lt_floor_add_one _⟩
  · intro n found
    rw [(eq_of_floor_truncate fits).2 found]
    exact truncated_bounds x.rational
  · obtain ⟨floor, truncate⟩ := floor_truncate_eq fits (usable.isSmall_or fits)
    exact ⟨⟨_, floor⟩, ⟨_, truncate⟩, (integer_eq_none_iff fits usable).mp⟩

/-- Seven halves below zero are between minus four and minus three, and are no integer. -/
theorem integral_extraction_halves :
    let x : Decimal := ⟨-350, 2⟩
    x.ExponentFits ∧ x.Usable ∧ (10 ^ x.exponent.toInt ≤ |x.rational|) ∧
      x.floor = .ok (-4) ∧ ((-4 : ℤ) : ℚ) ≤ x.rational ∧
      x.truncate = .ok (-3) ∧ |x.rational| < |((-3 : ℤ) : ℚ)| + 1 ∧
      x.integer? = none ∧ ∀ n : ℤ, x.rational ≠ n := by
  intro x
  have digits : x.digits = 3 := by decide +kernel
  have fits : x.ExponentFits := by
    intro _
    rw [digits]
    decide
  have usable : x.Usable := .inl (by decide)
  have floor : x.floor = .ok (-4) := by decide +kernel
  have truncate : x.truncate = .ok (-3) := by decide +kernel
  have integer : x.integer? = none := by decide +kernel
  obtain ⟨-, bounds, extracted⟩ := integral_extraction x
  obtain ⟨below, toward, found⟩ := extracted fits
  exact ⟨fits, usable, ((bounds (by decide)).mpr fits).1, floor, (below _ floor).1, truncate,
    (toward _ truncate).2.1, integer, (found usable).2.2 integer⟩

/-- Where the exponent wraps, a huge decimal passes for one below one. -/
theorem floor_wraps :
    let x : Decimal := ⟨10, -9223372036854775807⟩
    x.floor = .ok 0 ∧ x.truncate = .ok 0 ∧ 10 ≤ x.rational := by
  intro x
  refine ⟨by decide +kernel, by decide +kernel, ?_⟩
  have power : (1 : ℚ) ≤ 10 ^ (-x.scale.toInt) := one_le_zpow₀ (by norm_num) (by decide)
  rw [rational]
  change (10 : ℚ) ≤ ((10 : ℤ) : ℚ) * _
  push_cast
  linarith

end Decimal

end Calculator
