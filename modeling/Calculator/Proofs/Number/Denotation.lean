import Calculator.Number.Decimal
import Calculator.Proofs.Number.Rational
import Calculator.Proofs.Number.Rounding
import Calculator.Proofs.Outcome
import Mathlib

/-!
# Decimals as rational numbers

A decimal denotes its mantissa times a power of ten. Sums, differences and the order are those of
what is denoted, whatever the scales are. Products, the form without trailing zeros and the integers
next to a decimal are so too as long as no scale wraps; the number of digits and the scale tell
between which powers of ten a decimal is.
-/

namespace Calculator

/-- A difference of machine words that fits a machine word. -/
theorem toInt_sub_of_fits {a b : Int64} (lower : -2 ^ 63 ≤ a.toInt - b.toInt)
    (upper : a.toInt - b.toInt < 2 ^ 63) : (a - b).toInt = a.toInt - b.toInt := by
  rw [Int64.toInt_sub]
  exact Int.bmod_eq_of_le (by omega) (by omega)

/-- A sum of machine words that fits a machine word. -/
theorem toInt_add_of_fits {a b : Int64} (lower : -2 ^ 63 ≤ a.toInt + b.toInt)
    (upper : a.toInt + b.toInt < 2 ^ 63) : (a + b).toInt = a.toInt + b.toInt := by
  rw [Int64.toInt_add]
  exact Int.bmod_eq_of_le (by omega) (by omega)

/-- A natural number that is taken from a machine word, if the difference fits one. -/
theorem toInt_sub_ofNat_of_fits {a : Int64} {n : ℕ} (lower : -2 ^ 63 ≤ a.toInt - n) :
    (a - Int64.ofNat n).toInt = a.toInt - n := by
  have bound := a.toInt_lt
  rw [Int64.toInt_sub, Int64.toInt_ofNat', Int.sub_bmod_bmod, Int64.size]
  exact Int.bmod_eq_of_le (by omega) (by omega)

/-- A natural number that is added to a machine word, if the sum fits one. -/
theorem toInt_add_ofNat_of_fits {a : Int64} {n : ℕ} (upper : a.toInt + n < 2 ^ 63) :
    (a + Int64.ofNat n).toInt = a.toInt + n := by
  have bound := a.le_toInt
  rw [Int64.toInt_add, Int64.toInt_ofNat', Int.add_bmod_bmod, Int64.size]
  exact Int.bmod_eq_of_le (by omega) (by omega)

/-- An increasing map keeps the order of two elements. -/
theorem compare_map {α β : Type} [LinearOrder α] [LinearOrder β] {f : α → β}
    (increasing : StrictMono f) (a b : α) : compare (f a) (f b) = compare a b := by
  rw [← cmp_eq_compare, ← cmp_eq_compare, increasing.cmp_map_eq]

/-- A decreasing map turns the order of two elements around. -/
theorem compare_map_anti {α β : Type} [LinearOrder α] [LinearOrder β] {f : α → β}
    (decreasing : StrictAnti f) (a b : α) : compare (f a) (f b) = compare b a := by
  rw [← cmp_eq_compare, ← cmp_eq_compare, decreasing.cmp_map_eq]

/-- Powers of ten are positive. -/
theorem ten_zpow_pos (exponent : ℤ) : (0 : ℚ) < 10 ^ exponent := zpow_pos (by norm_num) exponent

/-- Powers of ten are in the order of their exponents. -/
theorem ten_zpow_le {a b : ℤ} (below : a ≤ b) : (10 : ℚ) ^ a ≤ 10 ^ b :=
  zpow_le_zpow_right₀ (by norm_num) below

/-- The product of two powers of ten. -/
theorem ten_zpow_mul (a b : ℤ) : (10 : ℚ) ^ a * 10 ^ b = 10 ^ (a + b) :=
  (zpow_add₀ (by norm_num) a b).symm

/-- A multiple of a power of ten is one of every smaller power. -/
theorem exists_multiple (multiple : ℤ) {place position : ℤ} (finer : place ≤ position) :
    ∃ other : ℤ, (multiple : ℚ) * 10 ^ position = other * 10 ^ place := by
  obtain ⟨further, rfl⟩ : ∃ further : ℕ, position = further + place :=
    ⟨(position - place).toNat, by omega⟩
  refine ⟨multiple * 10 ^ further, ?_⟩
  rw [← ten_zpow_mul, zpow_natCast]
  push_cast
  ring

/-- A power of ten with a natural exponent. -/
theorem cast_tenTo (exponent : ℕ) : (tenTo exponent : ℚ) = 10 ^ (exponent : ℤ) := by
  rw [tenTo, Nat.pow_eq, Nat.cast_pow, zpow_natCast]
  rfl

namespace Decimal

variable {x y : Decimal}

/-- The rational number that a decimal denotes. -/
def rational (x : Decimal) : ℚ := x.mantissa * 10 ^ (-x.scale.toInt)

/-- An integer denotes itself. -/
@[simp]
theorem rational_ofInt (value : ℤ) : (ofInt value).rational = value := by
  simp [rational, ofInt]

/-- A natural number denotes itself. -/
@[simp]
theorem rational_ofNat (value : ℕ) : (ofNat value).rational = value := by
  simp [rational, ofNat]

/-- Zero denotes zero. -/
@[simp]
theorem rational_zero : zero.rational = 0 := by
  simp [rational, zero]

/-- One denotes one. -/
@[simp]
theorem rational_one : one.rational = 1 := by
  simp [rational, one]

/-- One half denotes one half. -/
@[simp]
theorem rational_half : half.rational = 1 / 2 := by
  have one : (1 : Int64).toInt = 1 := rfl
  rw [rational, half, one]
  norm_num

/-- The opposite denotes the opposite. -/
@[simp]
theorem rational_negated (x : Decimal) : x.negated.rational = -x.rational := by
  simp [rational, negated]

/-- What is denoted is zero if the mantissa is. -/
theorem rational_eq_zero_iff (x : Decimal) : x.rational = 0 ↔ x.mantissa = 0 := by
  rw [rational, mul_eq_zero_iff_right (ten_zpow_pos _).ne', Int.cast_eq_zero]

/-- What is denoted is positive if the mantissa is. -/
theorem rational_pos_iff (x : Decimal) : 0 < x.rational ↔ 0 < x.mantissa := by
  rw [rational, mul_pos_iff_of_pos_right (ten_zpow_pos _), Int.cast_pos]

/-- What is denoted is negative if the mantissa is. -/
theorem rational_neg_iff (x : Decimal) : x.rational < 0 ↔ x.mantissa < 0 := by
  rw [← not_le, ← not_le, rational, mul_nonneg_iff_of_pos_right (ten_zpow_pos _), Int.cast_nonneg_iff]

/-- The magnitude of what is denoted. -/
theorem abs_rational (x : Decimal) :
    |x.rational| = x.mantissa.natAbs * 10 ^ (-x.scale.toInt) := by
  rw [rational, abs_mul, abs_of_pos (ten_zpow_pos _), Nat.cast_natAbs, Int.cast_abs]

/-! ## Sums -/

/-- A common scale is not below the scales. -/
theorem le_commonScale (x y : Decimal) :
    x.scale.toInt ≤ (commonScale x y).toInt ∧ y.scale.toInt ≤ (commonScale x y).toInt := by
  unfold commonScale
  split
  · rename_i below
    exact ⟨(Int64.lt_iff_toInt_lt.mp below).le, le_rfl⟩
  · rename_i above
    exact ⟨le_rfl, not_lt.mp fun below => above (Int64.lt_iff_toInt_lt.mpr below)⟩

/-- A mantissa denotes the same with a scale to which it belongs. -/
theorem rational_mantissaAt {scale : Int64} (above : x.scale.toInt ≤ scale.toInt) :
    x.mantissaAt scale * 10 ^ (-scale.toInt) = x.rational := by
  rw [mantissaAt, Int.cast_mul, Int.cast_natCast, cast_tenTo, mul_assoc, ten_zpow_mul, rational]
  congr 2
  omega

/-- The sum denotes the sum. -/
@[simp]
theorem rational_add (x y : Decimal) : (x.add y).rational = x.rational + y.rational := by
  obtain ⟨left, right⟩ := le_commonScale x y
  rw [← rational_mantissaAt left, ← rational_mantissaAt right, ← add_mul, ← Int.cast_add]
  rfl

/-- The difference denotes the difference. -/
@[simp]
theorem rational_subtract (x y : Decimal) :
    (x.subtract y).rational = x.rational - y.rational := by
  rw [subtract, rational_add, rational_negated, sub_eq_add_neg]

/-! ## Digits -/

/-- Zero is written with one digit. -/
theorem digits_of_zero (zero : x.mantissa = 0) : x.digits = 1 := by
  simp [digits, zero, Digits.count]

/-- The number of digits and the scale tell between which powers of ten a decimal is. -/
theorem rational_bounds (nonzero : x.mantissa ≠ 0) :
    10 ^ ((x.digits : ℤ) - 1 - x.scale.toInt) ≤ |x.rational| ∧
      |x.rational| < 10 ^ ((x.digits : ℤ) - x.scale.toInt) := by
  obtain ⟨lower, upper⟩ := Digits.count_bounds x.mantissa.natAbs (Int.natAbs_pos.mpr nonzero)
  obtain ⟨further, counted⟩ := Digits.count_succ x.mantissa.natAbs
  rw [abs_rational, sub_eq_add_neg, sub_eq_add_neg _ x.scale.toInt, ← ten_zpow_mul, ← ten_zpow_mul,
    digits]
  constructor
  · refine mul_le_mul_of_nonneg_right ?_ (ten_zpow_pos _).le
    have exponent : (Digits.count x.mantissa.natAbs : ℤ) - 1 = further := by omega
    rw [counted, Nat.add_sub_cancel] at lower
    rw [exponent, zpow_natCast]
    exact_mod_cast lower
  · refine mul_lt_mul_of_pos_right ?_ (ten_zpow_pos _)
    rw [zpow_natCast]
    exact_mod_cast upper

/-- The leading digit of a decimal is not further to the left than that of a larger one. -/
theorem position_le (nonzero : x.mantissa ≠ 0) {exponent : ℤ} (below : |x.rational| < 10 ^ exponent) :
    (x.digits : ℤ) - x.scale.toInt ≤ exponent := by
  have powers := (rational_bounds nonzero).1.trans_lt below
  have exponents := (zpow_lt_zpow_iff_right₀ (by norm_num : (1 : ℚ) < 10)).mp powers
  omega

/-! ## Order -/

/-- Two magnitudes are in the order of what they denote. -/
theorem orderMagnitudes_eq (left : x.mantissa ≠ 0) (right : y.mantissa ≠ 0) :
    orderMagnitudes x y = compare |x.rational| |y.rational| := by
  obtain ⟨lowerLeft, upperLeft⟩ := rational_bounds left
  obtain ⟨lowerRight, upperRight⟩ := rational_bounds right
  unfold orderMagnitudes
  split
  · obtain ⟨commonLeft, commonRight⟩ := le_commonScale x y
    have magnitude {z : Decimal} (common : z.scale.toInt ≤ (commonScale x y).toInt) :
        |z.rational| = (z.mantissaAt (commonScale x y)).natAbs *
          10 ^ (-(commonScale x y).toInt) := by
      rw [← rational_mantissaAt common, abs_mul, abs_of_pos (ten_zpow_pos _), Nat.cast_natAbs,
        Int.cast_abs]
    rw [magnitude commonLeft, magnitude commonRight,
      compare_map (strictMono_mul_right_of_pos (ten_zpow_pos _)), compare_map Nat.strictMono_cast]
  · rename_i order apart
    rcases lt_trichotomy ((x.digits : ℤ) - x.scale.toInt) ((y.digits : ℤ) - y.scale.toInt)
      with below | same | above
    · rw [compare_lt_iff_lt.mpr below, compare_lt_iff_lt.mpr]
      exact upperLeft.trans_le ((ten_zpow_le (by omega)).trans lowerRight)
    · exact absurd (compare_eq_iff_eq.mpr same) apart
    · rw [compare_gt_iff_gt.mpr above, compare_gt_iff_gt.mpr]
      exact upperRight.trans_le ((ten_zpow_le (by omega)).trans lowerLeft)

/-- What has the smaller sign is below. -/
theorem rational_lt_of_sign_lt (less : x.mantissa.sign < y.mantissa.sign) :
    x.rational < y.rational := by
  rcases lt_trichotomy x.mantissa 0 with negative | zero | positive
  · have below := (rational_neg_iff x).mpr negative
    rcases lt_or_ge y.mantissa 0 with same | nonneg
    · simp [Int.sign_eq_neg_one_of_neg negative, Int.sign_eq_neg_one_of_neg same] at less
    · exact below.trans_le (not_lt.mp fun other => nonneg.not_gt ((rational_neg_iff y).mp other))
  · rw [zero, Int.sign_zero, Int.sign_pos_iff] at less
    rw [(rational_eq_zero_iff x).mpr zero]
    exact (rational_pos_iff y).mpr less
  · rw [Int.sign_eq_one_of_pos positive] at less
    rcases y.mantissa.sign_trichotomy with same | zero | negative <;> omega

/-- Decimals are in the order of what they denote, whatever their form. -/
theorem order_eq (x y : Decimal) : x.order y = compare x.rational y.rational := by
  unfold order isZero isNegative
  split
  · rename_i alike
    have alike : x.mantissa.sign = y.mantissa.sign := compare_eq_iff_eq.mp alike
    simp only [beq_iff_eq, decide_eq_true_eq]
    split_ifs with zero negative
    · have zeroToo : y.mantissa = 0 := by
        rw [zero, Int.sign_zero, eq_comm, Int.sign_eq_zero_iff_zero] at alike
        exact alike
      rw [(rational_eq_zero_iff x).mpr zero, (rational_eq_zero_iff y).mpr zeroToo,
        compare_eq_iff_eq.mpr rfl]
    · have negativeToo : y.mantissa < 0 := by
        rwa [← Int.sign_neg_iff, ← alike, Int.sign_neg_iff]
      -- Below zero the larger magnitude is the smaller number.
      rw [orderMagnitudes_eq negativeToo.ne negative.ne,
        abs_of_neg ((rational_neg_iff x).mpr negative),
        abs_of_neg ((rational_neg_iff y).mpr negativeToo),
        compare_map_anti (f := fun q : ℚ => -q) fun _ _ => neg_lt_neg]
    · have positive : 0 < x.mantissa := by omega
      have positiveToo : 0 < y.mantissa := by
        rwa [← Int.sign_pos_iff, ← alike, Int.sign_pos_iff]
      rw [orderMagnitudes_eq positive.ne' positiveToo.ne',
        abs_of_pos ((rational_pos_iff x).mpr positive),
        abs_of_pos ((rational_pos_iff y).mpr positiveToo)]
  · rename_i order apart
    rcases lt_trichotomy x.mantissa.sign y.mantissa.sign with less | same | greater
    · rw [compare_lt_iff_lt.mpr less, compare_lt_iff_lt.mpr (rational_lt_of_sign_lt less)]
    · exact absurd (compare_eq_iff_eq.mpr same) apart
    · rw [compare_gt_iff_gt.mpr greater, compare_gt_iff_gt.mpr (rational_lt_of_sign_lt greater)]

/-- A decimal is one if it denotes one. -/
theorem isOne_iff (x : Decimal) : x.isOne = true ↔ x.rational = 1 := by
  rw [isOne, isSame, beq_iff_eq, order_eq, compare_eq_iff_eq, rational_one]

/-! ## Products -/

/-- The product denotes the product, if the scale does not wrap. -/
theorem rational_multiply (lower : -2 ^ 63 ≤ x.scale.toInt + y.scale.toInt)
    (upper : x.scale.toInt + y.scale.toInt < 2 ^ 63) :
    (x.multiply y).rational = x.rational * y.rational := by
  unfold multiply
  split_ifs with single single
  · rw [(isOne_iff x).mp single, one_mul]
  · rw [(isOne_iff y).mp single, mul_one]
  · rw [rational, toInt_add_of_fits lower upper, neg_add, ← ten_zpow_mul, Int.cast_mul, rational,
      rational, mul_mul_mul_comm]

/-! ## Trailing zeros -/

/-- There are no more trailing zeros than digits. -/
theorem zeros_le_digits {rest zeros : ℕ} (factor : x.mantissa.natAbs = rest * 10 ^ zeros)
    (positive : 0 < rest) : zeros ≤ x.digits := by
  have single := (factor_bounds factor positive).2
  have below := (Digits.count_bounds x.mantissa.natAbs
    ((Nat.pow_pos (by decide)).trans_le single)).2
  exact ((Nat.pow_lt_pow_iff_right (by decide)).mp (single.trans_lt below)).le

/-- The form without trailing zeros denotes the same, if the scale does not wrap. -/
theorem rational_normalized (fits : -2 ^ 63 ≤ x.scale.toInt - x.digits) :
    x.normalized.rational = x.rational := by
  by_cases zero : x.mantissa = 0
  · rw [normalized, if_pos (by simpa [isZero] using zero), rational_zero,
      (rational_eq_zero_iff x).mpr zero]
  · obtain ⟨rest, zeros, factor, last⟩ := exists_factor x.mantissa.natAbs (Int.natAbs_pos.mpr zero)
    have few := zeros_le_digits factor (by omega)
    have mantissa : x.mantissa = x.mantissa.sign * rest * 10 ^ zeros := by
      rw [mul_assoc]
      calc x.mantissa
        _ = x.mantissa.sign * x.mantissa.natAbs := (Int.sign_mul_natAbs _).symm
        _ = x.mantissa.sign * (rest * 10 ^ zeros) := by
          rw [factor]
          push_cast
          rfl
    rw [normalized_factor x rest zeros factor last, rational,
      toInt_sub_ofNat_of_fits (by omega), rational, neg_sub, sub_eq_add_neg, ← ten_zpow_mul,
      zpow_natCast]
    conv_rhs => rw [mantissa]
    push_cast
    ring

/-! ## Integers -/

/-- Whether the number of digits and the scale of a decimal are no larger than a size. Sizes well
below that of a machine word leave room for the scales of what is computed from a decimal. -/
structure Moderate (x : Decimal) (size : ℤ) : Prop where
  digits_le : x.digits ≤ size
  le_scale : -size ≤ x.scale.toInt
  scale_le : x.scale.toInt ≤ size

/-- What is moderate is so for larger sizes. -/
theorem Moderate.mono {small large : ℤ} (moderate : x.Moderate small) (larger : small ≤ large) :
    x.Moderate large :=
  ⟨moderate.digits_le.trans larger, (neg_le_neg larger).trans moderate.le_scale,
    moderate.scale_le.trans larger⟩

/-- The magnitude and the scale of a decimal bound the number of digits. -/
theorem moderate_of_abs_lt {size : ℤ} (exponent : ℕ) (below : |x.rational| < 10 ^ (exponent : ℤ))
    (room : |x.scale.toInt| + exponent ≤ size) (some : 1 ≤ size) : x.Moderate size := by
  obtain ⟨lower, upper⟩ := abs_le.mp (le_refl |x.scale.toInt|)
  refine ⟨?_, by omega, by omega⟩
  by_cases zero : x.mantissa = 0
  · rw [digits_of_zero zero]
    exact some
  · have position := position_le zero below
    omega

/-- The exponent is that of the leading digit, as a machine word that may wrap. -/
theorem toInt_exponent_bmod (nonzero : x.mantissa ≠ 0) :
    x.exponent.toInt = ((x.digits : ℤ) - 1 - x.scale.toInt).bmod (2 ^ 64) := by
  have single : (1 : Int64).toInt = 1 := rfl
  have size : Int64.size = 2 ^ 64 := rfl
  rw [exponent, if_neg (by simpa [isZero] using nonzero), Int64.toInt_sub, Int64.toInt_sub, single,
    Int64.toInt_ofNat', size, Int.bmod_sub_bmod, sub_sub, Int.bmod_sub_bmod, ← sub_sub]

/-- The exponent is that of the leading digit, if it fits a machine word. -/
theorem toInt_exponent_of_fits (nonzero : x.mantissa ≠ 0)
    (lower : -2 ^ 63 ≤ (x.digits : ℤ) - 1 - x.scale.toInt)
    (upper : (x.digits : ℤ) - 1 - x.scale.toInt < 2 ^ 63) :
    x.exponent.toInt = x.digits - 1 - x.scale.toInt := by
  rw [toInt_exponent_bmod nonzero]
  exact Int.bmod_eq_of_le (by omega) (by omega)

/-- The exponent of a decimal fits a machine word, or the decimal is zero. -/
def ExponentFits (x : Decimal) : Prop :=
  x.mantissa ≠ 0 →
    -2 ^ 63 ≤ (x.digits : ℤ) - 1 - x.scale.toInt ∧ (x.digits : ℤ) - 1 - x.scale.toInt < 2 ^ 63

/-- The exponent of a moderate number fits. -/
theorem Moderate.exponentFits (moderate : x.Moderate (2 ^ 60)) : x.ExponentFits := by
  obtain ⟨few, lower, upper⟩ := moderate
  intro _
  omega

/-- An exponent that fits is that of the leading digit. -/
theorem toInt_exponent (fits : x.ExponentFits) (nonzero : x.mantissa ≠ 0) :
    x.exponent.toInt = x.digits - 1 - x.scale.toInt := by
  obtain ⟨lower, upper⟩ := fits nonzero
  exact toInt_exponent_of_fits nonzero lower upper

/-- The exponent tells between which powers of ten a decimal is. -/
theorem exponent_bounds (fits : x.ExponentFits) (nonzero : x.mantissa ≠ 0) :
    10 ^ x.exponent.toInt ≤ |x.rational| ∧ |x.rational| < 10 ^ (x.exponent.toInt + 1) := by
  have bounds := rational_bounds nonzero
  rw [toInt_exponent fits nonzero]
  have next : (x.digits : ℤ) - 1 - x.scale.toInt + 1 = x.digits - x.scale.toInt := by omega
  rwa [next]

/-- The small decimals are those between minus one and one without zero. -/
theorem isSmall_iff (fits : x.ExponentFits) :
    x.isSmall = true ↔ x.mantissa ≠ 0 ∧ |x.rational| < 1 := by
  by_cases zero : x.mantissa = 0
  · simp [isSmall, isZero, zero]
  · have exponent := toInt_exponent fits zero
    obtain ⟨lower, upper⟩ := rational_bounds zero
    have negative : x.exponent < 0 ↔ (x.digits : ℤ) - 1 - x.scale.toInt < 0 := by
      rw [Int64.lt_iff_toInt_lt, exponent]
      rfl
    simp only [isSmall, isZero, Bool.and_eq_true, decide_eq_true_eq, negative, zero,
      Bool.not_eq_true', beq_eq_false_iff_ne, ne_eq, not_false_eq_true, and_true, true_and]
    constructor
    · intro below
      calc |x.rational|
        _ < 10 ^ ((x.digits : ℤ) - x.scale.toInt) := upper
        _ ≤ 10 ^ (0 : ℤ) := ten_zpow_le (by omega)
        _ = 1 := zpow_zero _
    · intro below
      by_contra large
      refine below.not_ge (le_trans ?_ lower)
      calc (1 : ℚ)
        _ = 10 ^ (0 : ℤ) := (zpow_zero _).symm
        _ ≤ 10 ^ ((x.digits : ℤ) - 1 - x.scale.toInt) := ten_zpow_le (by omega)

/-- Rounding toward zero leaves nothing of what is between minus one and one. -/
theorem truncated_of_abs_lt_one {q : ℚ} (small : |q| < 1) : truncated q = 0 := by
  obtain ⟨lower, upper⟩ := abs_lt.mp small
  unfold truncated
  split
  · rename_i nonneg
    exact Int.floor_eq_zero_iff.mpr ⟨nonneg, upper⟩
  · rename_i negative
    refine Int.ceil_eq_iff.mpr ⟨?_, ?_⟩ <;> push_cast <;> linarith

/-- An integer is rounded to itself. -/
theorem truncated_intCast (n : ℤ) : truncated (n : ℚ) = n := by
  unfold truncated
  split
  · exact Int.floor_intCast n
  · exact Int.ceil_intCast n

/-- A decimal with a scale that is not positive is a multiple of a power of ten. -/
theorem rational_eq_mul (whole : x.scale.toInt ≤ 0) :
    x.rational = ((x.mantissa * tenTo x.scale.toInt.natAbs : ℤ) : ℚ) := by
  have exponent : ((x.scale.toInt.natAbs : ℕ) : ℤ) = -x.scale.toInt := by omega
  rw [Int.cast_mul, Int.cast_natCast, cast_tenTo, exponent, rational]

/-- A decimal with a positive scale is a share of a power of ten. -/
theorem rational_eq_div (part : 0 < x.scale.toInt) :
    x.rational = (x.mantissa : ℚ) / ((tenTo x.scale.toInt.natAbs : ℤ) : ℚ) := by
  have exponent : ((x.scale.toInt.natAbs : ℕ) : ℤ) = x.scale.toInt := by omega
  rw [Int.cast_natCast, cast_tenTo, exponent, rational, zpow_neg, div_eq_mul_inv]

/-- The integers next to a decimal, downward and toward zero, if it is small or has a scale for
which a power of ten is formed. -/
theorem floor_truncate_eq (fits : x.ExponentFits)
    (usable : x.isSmall = true ∨ x.scale.toInt.natAbs ≤ integerDigits) :
    x.floor = .ok ⌊x.rational⌋ ∧ x.truncate = .ok (truncated x.rational) := by
  by_cases small : x.isSmall = true
  · have ⟨nonzero, within⟩ := (isSmall_iff fits).mp small
    obtain ⟨lower, upper⟩ := abs_lt.mp within
    rw [floor, truncate, if_pos small, if_pos small, truncated_of_abs_lt_one within]
    refine ⟨congrArg Except.ok ?_, rfl⟩
    rw [eq_comm, isNegative]
    split_ifs with negative
    · have below := (rational_neg_iff x).mpr (of_decide_eq_true negative)
      refine Int.floor_eq_iff.mpr ⟨?_, ?_⟩ <;> push_cast <;> linarith
    · refine Int.floor_eq_zero_iff.mpr ⟨not_lt.mp fun below => negative ?_, upper⟩
      exact decide_eq_true ((rational_neg_iff x).mp below)
  · have power : powerOfTen x.scale.toInt.natAbs = .ok (tenTo x.scale.toInt.natAbs : ℤ) :=
      if_pos (usable.resolve_left small)
    rw [floor, truncate, if_neg small, if_neg small, power]
    have sign : x.scale ≤ 0 ↔ x.scale.toInt ≤ 0 := Int64.le_iff_toInt_le
    have magnitude := cast_tenTo x.scale.toInt.natAbs
    simp only [Outcome.ok_bind, sign]
    by_cases whole : x.scale.toInt ≤ 0
    · have exponent : ((x.scale.toInt.natAbs : ℕ) : ℤ) = -x.scale.toInt := by omega
      have value : x.rational = ((x.mantissa * tenTo x.scale.toInt.natAbs : ℤ) : ℚ) := by
        rw [Int.cast_mul, Int.cast_natCast, magnitude, exponent, rational]
      rw [if_pos whole, if_pos whole, value, Int.floor_intCast, truncated_intCast]
      exact ⟨rfl, rfl⟩
    · have exponent : ((x.scale.toInt.natAbs : ℕ) : ℤ) = x.scale.toInt := by omega
      have value : x.rational = (x.mantissa : ℚ) / ((tenTo x.scale.toInt.natAbs : ℤ) : ℚ) := by
        rw [Int.cast_natCast, magnitude, exponent, rational, zpow_neg, div_eq_mul_inv]
      have nonzero : (tenTo x.scale.toInt.natAbs : ℤ) ≠ 0 :=
        Int.natCast_ne_zero.mpr (Nat.pow_pos (by decide)).ne'
      rw [if_neg whole, if_neg whole, value, floor_div_eq_fdiv _ _ nonzero, truncated_div_eq_tdiv]
      exact ⟨rfl, rfl⟩

/-- Where neither holds, no integer is found. -/
theorem floor_truncate_error (large : ¬ x.isSmall = true)
    (long : ¬ x.scale.toInt.natAbs ≤ integerDigits) :
    x.floor = .error .badArgumentValue ∧ x.truncate = .error .badArgumentValue := by
  have power : powerOfTen x.scale.toInt.natAbs = .error .badArgumentValue := if_neg long
  rw [floor, truncate, if_neg large, if_neg large, power]
  exact ⟨rfl, rfl⟩

/-- An integer next to a decimal that is found is the next one, downward and toward zero. -/
theorem eq_of_floor_truncate (fits : x.ExponentFits) {n : ℤ} :
    (x.floor = .ok n → n = ⌊x.rational⌋) ∧ (x.truncate = .ok n → n = truncated x.rational) := by
  by_cases usable : x.isSmall = true ∨ x.scale.toInt.natAbs ≤ integerDigits
  · obtain ⟨floor, truncate⟩ := floor_truncate_eq fits usable
    rw [floor, truncate]
    exact ⟨fun found => (Except.ok.inj found).symm, fun found => (Except.ok.inj found).symm⟩
  · obtain ⟨large, long⟩ := not_or.mp usable
    obtain ⟨floor, truncate⟩ := floor_truncate_error large long
    rw [floor, truncate]
    exact ⟨fun found => (nomatch found), fun found => (nomatch found)⟩

end Decimal

end Calculator
