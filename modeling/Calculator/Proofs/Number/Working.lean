import Calculator.Number.Decimal.Series
import Calculator.Proofs.Number.Closeness
import Calculator.Proofs.Number.Nearest
import Calculator.Proofs.Number.Quotient
import Mathlib

/-!
# Working precision

The elementary functions compute with decimals of a working precision: sums and products are exact,
a quotient stops at a hundred digits, and the result of a step is taken to so many digits. Each step
therefore gives a number close to the exact one, if no scale wraps, and scales do not wrap because
the size of a number and its number of digits fix its scale.

A series is summed until a term is negligible, and an argument is reduced until it is near enough.
Such a loop is described by what holds after so many rounds; that it ends is said without the bound
within which it is computed.
-/

namespace Calculator.Decimal

variable {x y : Decimal}

/-! ## Decimals as real numbers -/

/-- The real number that a decimal denotes. -/
noncomputable def real (x : Decimal) : ℝ := x.rational

/-- A natural number denotes itself. -/
@[simp]
theorem real_ofNat (value : ℕ) : (ofNat value).real = value := by
  rw [real, rational_ofNat, Rat.cast_natCast]

/-- An integer denotes itself. -/
@[simp]
theorem real_ofInt (value : ℤ) : (ofInt value).real = value := by
  rw [real, rational_ofInt, Rat.cast_intCast]

/-- Zero denotes zero. -/
@[simp]
theorem real_zero : zero.real = 0 := by
  rw [real, rational_zero, Rat.cast_zero]

/-- One denotes one. -/
@[simp]
theorem real_one : one.real = 1 := by
  rw [real, rational_one, Rat.cast_one]

/-- The sum denotes the sum. -/
@[simp]
theorem real_add (x y : Decimal) : (x.add y).real = x.real + y.real := by
  rw [real, rational_add, Rat.cast_add]
  rfl

/-- The difference denotes the difference. -/
@[simp]
theorem real_subtract (x y : Decimal) : (x.subtract y).real = x.real - y.real := by
  rw [real, rational_subtract, Rat.cast_sub]
  rfl

/-- The opposite denotes the opposite. -/
@[simp]
theorem real_negated (x : Decimal) : x.negated.real = -x.real := by
  rw [real, rational_negated, Rat.cast_neg]
  rfl

/-- One half denotes one half. -/
@[simp]
theorem real_half : half.real = 1 / 2 := by
  rw [real, rational_half]
  norm_num

/-- The magnitude denotes the magnitude. -/
@[simp]
theorem real_absolute (x : Decimal) : x.absolute.real = |x.real| := by
  rw [real, real, ← Rat.cast_abs, abs_rational, rational]
  rfl

/-- Decimals are in the order of the real numbers that they denote. -/
theorem isLess_iff (x y : Decimal) : x.isLess y = true ↔ x.real < y.real := by
  rw [isLess, beq_iff_eq, order_eq, compare_lt_iff_lt, real, real, Rat.cast_lt]

/-- What is denoted is zero if the mantissa is. -/
theorem real_eq_zero_iff (x : Decimal) : x.real = 0 ↔ x.mantissa = 0 := by
  rw [real, Rat.cast_eq_zero, rational_eq_zero_iff]

/-- What is denoted is positive if the mantissa is. -/
theorem real_pos_iff (x : Decimal) : 0 < x.real ↔ 0 < x.mantissa := by
  rw [real, Rat.cast_pos, rational_pos_iff]

/-- One is denoted by the decimals that denote the rational number one. -/
theorem real_eq_one_iff (x : Decimal) : x.real = 1 ↔ x.rational = 1 := by
  rw [real]
  exact_mod_cast Iff.rfl

/-- There is always a digit. -/
theorem one_le_digits (x : Decimal) : 1 ≤ x.digits := by
  obtain ⟨further, counted⟩ := Digits.count_succ x.mantissa.natAbs
  rw [digits, counted]
  omega

/-- A natural number below a power of ten has no more digits. -/
theorem digits_ofNat_le {value count : ℕ} (positive : 0 < value) (below : value < 10 ^ count) :
    (ofNat value).digits ≤ count :=
  (Digits.count_le_iff _ _ positive).mpr below

/-- The position of the leading digit, counted from the point to the left. -/
def place (x : Decimal) : ℤ := x.digits - x.scale.toInt

/-- The position of the leading digit tells between which powers of ten a decimal is. -/
theorem real_bounds (nonzero : x.mantissa ≠ 0) :
    10 ^ (x.place - 1) ≤ |x.real| ∧ |x.real| < 10 ^ x.place := by
  obtain ⟨lower, upper⟩ := rational_bounds nonzero
  have shifted : (x.digits : ℤ) - 1 - x.scale.toInt = x.place - 1 := by
    rw [place]
    ring
  rw [shifted, ← Rat.cast_le (K := ℝ), Rat.cast_zpow, Rat.cast_abs, Rat.cast_ofNat] at lower
  rw [← Rat.cast_lt (K := ℝ), Rat.cast_zpow, Rat.cast_abs, Rat.cast_ofNat] at upper
  exact ⟨lower, upper⟩

/-- A decimal below a power of ten begins to its right. -/
theorem place_le_of_abs_lt (nonzero : x.mantissa ≠ 0) {exponent : ℤ}
    (below : |x.real| < 10 ^ exponent) : x.place ≤ exponent := by
  have powers := (real_bounds nonzero).1.trans_lt below
  have exponents := (zpow_lt_zpow_iff_right₀ (by norm_num : (1 : ℝ) < 10)).mp powers
  omega

/-- A decimal not below a power of ten begins to its left. -/
theorem lt_place_of_le_abs (nonzero : x.mantissa ≠ 0) {exponent : ℤ}
    (above : 10 ^ exponent ≤ |x.real|) : exponent < x.place :=
  (zpow_lt_zpow_iff_right₀ (by norm_num : (1 : ℝ) < 10)).mp
    (above.trans_lt (real_bounds nonzero).2)

/-- The logarithm of ten is above one. -/
theorem one_le_log_ten : 1 ≤ Real.log 10 := by
  rw [Real.le_log_iff_exp_le (by norm_num)]
  linarith [Real.exp_one_lt_d9]

/-- The logarithm of ten, from above. -/
theorem log_ten_le : Real.log 10 ≤ 12 / 5 := by
  have power : Real.log ((10 : ℝ) ^ 5) ≤ 12 := by
    have twelve : Real.exp 12 = Real.exp 1 ^ 12 := by
      rw [← Real.exp_nat_mul]
      norm_num
    rw [Real.log_le_iff_le_exp (by norm_num), twelve]
    have large : (2.7 : ℝ) ^ 12 ≤ Real.exp 1 ^ 12 :=
      pow_le_pow_left₀ (by norm_num) (by linarith [Real.exp_one_gt_d9]) 12
    linarith [show (10 : ℝ) ^ 5 ≤ 2.7 ^ 12 by norm_num]
  rw [Real.log_pow] at power
  push_cast at power
  linarith

/-- The size of a number below one that so many digits behind the point can write. -/
theorem mild_of_le_one {a : ℝ} (places : ℕ) (above : 10 ^ (-places : ℤ) ≤ |a|) (below : |a| ≤ 1) :
    Mild (3 * places) a := by
  have power : (0 : ℝ) < 10 ^ (-places : ℤ) := zpow_pos (by norm_num) _
  have positive := power.trans_le above
  have logarithm := Real.log_le_log power above
  rw [Real.log_zpow, Int.cast_neg, Int.cast_natCast] at logarithm
  have scaled := mul_le_mul_of_nonneg_left log_ten_le (places.cast_nonneg (α := ℝ))
  refine ⟨abs_pos.mp positive, ?_⟩
  rw [← Real.log_abs, abs_of_nonpos (Real.log_nonpos positive.le below)]
  linarith

/-- The scale bounds the size of a decimal below one. -/
theorem mild_of_scale {size : ℕ} (nonzero : x.real ≠ 0) (below : |x.real| ≤ 1)
    (scale : x.scale.toInt ≤ size) : Mild (3 * size) x.real := by
  have present := (real_eq_zero_iff x).not.mp nonzero
  have written := x.one_le_digits
  refine mild_of_le_one size (le_trans ?_ (real_bounds present).1) below
  refine zpow_le_zpow_right₀ (by norm_num) ?_
  rw [place]
  omega

/-- The size of a decimal bounds the position of its leading digit. -/
theorem abs_place_le {size : ℕ} (mild : Mild size x.real) : |x.place| ≤ size + 1 := by
  obtain ⟨nonzero, within⟩ := mild
  obtain ⟨lower, upper⟩ := real_bounds ((real_eq_zero_iff x).not.mp nonzero)
  obtain ⟨low, high⟩ := abs_le.mp within
  rw [← Real.log_abs] at low high
  have above := Real.log_le_log (zpow_pos (by norm_num) _) lower
  have below := Real.log_lt_log (abs_pos.mpr nonzero) upper
  rw [Real.log_zpow] at above below
  have unit := one_le_log_ten
  refine abs_le.mpr ⟨?_, ?_⟩
  · by_contra far
    have negative : (x.place : ℝ) < -(size + 1) := by exact_mod_cast not_le.mp far
    nlinarith
  · by_contra far
    have positive : (size + 1 : ℝ) < x.place := by exact_mod_cast not_le.mp far
    push_cast at above
    nlinarith

/-! ## Rounding to a working precision -/

/-- The unit of the last of so many digits, relative to the leading one. -/
noncomputable def grain (count : ℕ) : ℝ := 10 ^ (1 - (count : ℤ))

/-- Units are positive. -/
theorem grain_pos (count : ℕ) : 0 < grain count := zpow_pos (by norm_num) _

/-- More digits have a smaller unit. -/
theorem grain_le {fewer count : ℕ} (more : fewer ≤ count) : grain count ≤ grain fewer :=
  zpow_le_zpow_right₀ (by norm_num) (by omega)

/-- The unit of the last of more digits than a power of ten has zeros. -/
theorem grain_le_pow {zeros count : ℕ} (more : zeros < count) : grain count ≤ 1 / 10 ^ zeros := by
  rw [grain, one_div, ← zpow_natCast, ← zpow_neg]
  exact zpow_le_zpow_right₀ (by norm_num) (by omega)

/-- Each further digit makes the unit a tenth. -/
theorem grain_add (count more : ℕ) : grain (count + more) = grain count / 10 ^ more := by
  rw [grain, grain, ← zpow_natCast, ← zpow_sub₀ (by norm_num)]
  congr 1
  push_cast
  ring

/-- The unit of the last digit is a part of a number. -/
theorem lastUnit_le (nonzero : x.mantissa ≠ 0) (count : ℕ) :
    (x.lastUnit count : ℝ) ≤ grain count * |x.real| := by
  calc (x.lastUnit count : ℝ)
    _ = grain count * 10 ^ (x.place - 1) := by
      rw [lastUnit, grain, ← zpow_add₀ (by norm_num), place]
      push_cast
      congr 1
      ring
    _ ≤ grain count * |x.real| :=
      mul_le_mul_of_nonneg_left (real_bounds nonzero).1 (grain_pos count).le

/-- Taking so many digits moves a number by no more than the unit of the last one, and a number that
is not negative by no more than half of the unit, if no scale wraps. -/
theorem abs_withDigits_sub_le (x : Decimal) (count : ℕ) (lower : -2 ^ 63 ≤ count - x.place)
    (upper : count - x.place < 2 ^ 63) :
    |(x.withDigits count).real - x.real| ≤ grain count * |x.real| ∧
      (0 ≤ x.real → |(x.withDigits count).real - x.real| ≤ grain count / 2 * |x.real|) := by
  unfold place at lower upper
  have form : (x.withDigits count).rational =
      lopsided (x.rational / x.lastUnit count) * x.lastUnit count :=
    rational_withDigits (by omega) (by omega)
  rcases eq_or_ne x.mantissa 0 with zero | nonzero
  · rw [(rational_eq_zero_iff x).mpr zero, zero_div, lopsided_zero, Int.cast_zero, zero_mul] at form
    rw [real, form, (real_eq_zero_iff x).mpr zero]
    simp
  have unit := lastUnit_le nonzero count
  constructor
  · have moved := abs_rounded_sub_lt (x.lastUnit_pos count) x.rational
    rw [← form] at moved
    refine le_trans ?_ unit
    rw [real, real]
    exact_mod_cast moved.le
  · intro nonneg
    have moved := abs_rounded_sub_le_half (x.lastUnit_pos count)
      (by rwa [real, Rat.cast_nonneg] at nonneg : 0 ≤ x.rational)
    rw [← form, ← Rat.cast_le (K := ℝ)] at moved
    push_cast at moved
    rw [real, real] at *
    linarith

/-- A number that is taken to so many digits is close to what it was, and its scale has room. -/
theorem close_withDigits {size : ℕ} (mild : Mild size x.real) {count : ℕ} (counted : 2 ≤ count)
    (room : size + count + 1 < 2 ^ 63) :
    Close (2 * grain count) (x.withDigits count).real x.real ∧
      |(x.withDigits count).scale.toInt| ≤ size + count + 1 := by
  obtain ⟨low, high⟩ := abs_le.mp (abs_place_le mild)
  have near := (abs_withDigits_sub_le x count (by omega) (by omega)).1
  have small : grain count ≤ 1 / 10 ^ 1 := grain_le_pow counted
  have scale := toInt_scale_withDigits (x := x) count
    (by rw [place] at low high; omega) (by rw [place] at low high; omega)
  refine ⟨close_of_abs_sub_le (grain_pos count).le (by linarith) near, abs_le.mpr ?_⟩
  rw [scale]
  rw [place] at low high
  constructor <;> omega

/-- A positive number that is close to an exact one is not far from it after it is taken to so many
digits: the digits in between leave room for what the number already lacks. -/
theorem abs_withDigits_sub_le_of_close {size count : ℕ} {exact bound : ℝ} (positive : 0 < exact)
    (mild : Mild size exact) (close : Close bound x.real exact) (counted : 2 ≤ count)
    (fine : bound ≤ grain count / 10) (room : size + count + 2 < 2 ^ 63) :
    |(x.withDigits count).real - exact| ≤ grain count * exact := by
  have small : grain count ≤ 1 / 10 ^ 1 := grain_le_pow counted
  have above := close.pos positive
  have sized : Mild (size + 1 : ℕ) x.real := (mild.of_close close).mono (by push_cast; linarith)
  obtain ⟨low, high⟩ := abs_le.mp (abs_place_le sized)
  have rounded := (abs_withDigits_sub_le x count (by push_cast at *; omega)
    (by push_cast at *; omega)).2 above.le
  have lacking := close.abs_sub_le (by linarith)
  rw [abs_of_pos above] at rounded
  rw [abs_of_pos positive] at lacking
  have unit := grain_pos count
  have upper : x.real ≤ 11 / 10 * exact := by
    have factor : 2 * bound * exact ≤ 1 / 10 * exact := by
      gcongr
      linarith
    linarith [(abs_le.mp lacking).2]
  calc |(x.withDigits count).real - exact|
    _ ≤ |(x.withDigits count).real - x.real| + |x.real - exact| := abs_sub_le _ _ _
    _ ≤ grain count / 2 * (11 / 10 * exact) + 2 * (grain count / 10) * exact := by
      refine add_le_add (rounded.trans ?_) (lacking.trans ?_) <;> gcongr
    _ ≤ grain count * exact := by nlinarith

/-! ## Sums, products and quotients -/

/-- A sum has the scale of one of the summands. -/
theorem abs_scale_add_le {bound : ℤ} (left : |x.scale.toInt| ≤ bound)
    (right : |y.scale.toInt| ≤ bound) : |(x.add y).scale.toInt| ≤ bound := by
  unfold add commonScale
  dsimp only
  split_ifs <;> assumption

/-- The product denotes the product, and scales add, if the sum of the scales has room. -/
theorem real_multiply (fits : |x.scale.toInt| + |y.scale.toInt| < 2 ^ 63) :
    (x.multiply y).real = x.real * y.real ∧
      |(x.multiply y).scale.toInt| ≤ |x.scale.toInt| + |y.scale.toInt| := by
  have total := abs_add_le x.scale.toInt y.scale.toInt
  obtain ⟨low, high⟩ := abs_le.mp (total.trans fits.le)
  have below := lt_of_le_of_lt (le_abs_self _) (lt_of_le_of_lt total fits)
  constructor
  · rw [real, rational_multiply low below, Rat.cast_mul]
    rfl
  · unfold multiply
    split_ifs
    · exact le_add_of_nonneg_left (abs_nonneg _)
    · exact le_add_of_nonneg_right (abs_nonneg _)
    · rwa [toInt_add_of_fits low below]

/-- The product with an integer denotes the product, and the scale does not grow. -/
theorem real_multiply_ofInt (n : ℤ) (fits : |x.scale.toInt| < 2 ^ 63) :
    (x.multiply (ofInt n)).real = x.real * n ∧
      |(x.multiply (ofInt n)).scale.toInt| ≤ |x.scale.toInt| := by
  have plain : (ofInt n).scale.toInt = 0 := rfl
  have product := real_multiply (x := x) (y := ofInt n) (by rwa [plain, abs_zero, add_zero])
  rwa [real_ofInt, plain, abs_zero, add_zero] at product

/-- The quotient is close to the quotient, if the difference of the scales has room. -/
theorem close_divide (nonzero : y.mantissa ≠ 0)
    (fits : |x.scale.toInt| + |y.scale.toInt| + y.digits + quotientDigits < 2 ^ 63) :
    Close (grain 100) (x.divide y).real (x.real / y.real) := by
  obtain ⟨low, high⟩ := abs_le.mp (abs_sub x.scale.toInt y.scale.toInt)
  rcases rational_divide_of_fits (x := x) (y := y) (by omega) (by omega) nonzero with exact | rounds
  · rw [real, exact, Rat.cast_div]
    exact (Close.refl _).mono (grain_pos 100).le
  · have error := (Rat.cast_le (K := ℝ)).mpr rounds.error_le
    push_cast at error
    have small : (1 : ℝ) / (2 * 10 ^ 99) ≤ 1 / 2 := by norm_num
    have near : |x.real / y.real - (x.divide y).real| ≤ 1 / (2 * 10 ^ 99) * |(x.divide y).real| := by
      rw [abs_sub_comm, one_div_mul_eq_div]
      exact error
    refine (close_of_abs_sub_le (by positivity) small near).symm.mono ?_
    norm_num [grain]

/-- The product to a working precision. -/
theorem close_multiply_withDigits {size count : ℕ} (mild : Mild size (x.real * y.real))
    (fits : |x.scale.toInt| + |y.scale.toInt| < 2 ^ 63) (counted : 2 ≤ count)
    (room : size + count + 1 < 2 ^ 63) :
    Close (2 * grain count) ((x.multiply y).withDigits count).real (x.real * y.real) ∧
      |((x.multiply y).withDigits count).scale.toInt| ≤ size + count + 1 := by
  rw [← (real_multiply fits).1] at mild ⊢
  exact close_withDigits mild counted room

/-- The quotient to a working precision, of which no more than a hundred digits count. -/
theorem close_divide_withDigits_min {size count : ℕ} (mild : Mild size (x.real / y.real))
    (nonzero : y.mantissa ≠ 0)
    (fits : |x.scale.toInt| + |y.scale.toInt| + y.digits + quotientDigits < 2 ^ 63)
    (counted : 2 ≤ count) (room : size + count + 2 < 2 ^ 63) :
    Close (3 * grain (min count 100)) ((x.divide y).withDigits count).real (x.real / y.real) ∧
      |((x.divide y).withDigits count).scale.toInt| ≤ size + count + 2 := by
  have exact := close_divide nonzero fits
  have coarse : grain count ≤ grain (min count 100) := grain_le (min_le_left count 100)
  have coarseToo : grain 100 ≤ grain (min count 100) := grain_le (min_le_right count 100)
  have unit : grain 100 ≤ 1 / 10 ^ 0 := grain_le_pow (by norm_num)
  have sized : Mild ((size + 1 : ℕ) : ℝ) (x.divide y).real :=
    (mild.of_close exact).mono (by push_cast; linarith)
  obtain ⟨close, scale⟩ := close_withDigits sized counted (by omega)
  refine ⟨(close.trans exact).mono (by linarith), scale.trans (by push_cast; omega)⟩

/-- The quotient to a working precision. -/
theorem close_divide_withDigits {size count : ℕ} (mild : Mild size (x.real / y.real))
    (nonzero : y.mantissa ≠ 0)
    (fits : |x.scale.toInt| + |y.scale.toInt| + y.digits + quotientDigits < 2 ^ 63)
    (counted : 2 ≤ count) (few : count ≤ 100) (room : size + count + 2 < 2 ^ 63) :
    Close (3 * grain count) ((x.divide y).withDigits count).real (x.real / y.real) ∧
      |((x.divide y).withDigits count).scale.toInt| ≤ size + count + 2 := by
  simpa only [min_eq_left few] using close_divide_withDigits_min mild nonzero fits counted room

/-- The quotient by a number of two digits at most to a working precision. -/
theorem close_divide_ofNat_withDigits {size count n : ℕ} (mild : Mild size (x.real / n))
    (positive : 0 < n) (small : n < 100) (scale : |x.scale.toInt| ≤ 2 ^ 62 + 2 ^ 61)
    (counted : 2 ≤ count) (few : count ≤ 100) (room : size + count + 2 < 2 ^ 63) :
    Close (3 * grain count) ((x.divide (ofNat n)).withDigits count).real (x.real / n) ∧
      |((x.divide (ofNat n)).withDigits count).scale.toInt| ≤ size + count + 2 := by
  have digits : (ofNat n).digits ≤ 2 := digits_ofNat_le positive small
  have plain : (ofNat n).scale.toInt = 0 := rfl
  have hundred : quotientDigits = 100 := rfl
  rw [← real_ofNat n] at mild ⊢
  exact close_divide_withDigits mild (Int.natCast_ne_zero.mpr positive.ne')
    (by rw [plain, abs_zero]; omega) counted few room

/-! ## Zero -/

/-- Zero stays zero with so many digits. -/
theorem mantissa_withDigits_of_zero (zero : x.mantissa = 0) {count : ℕ} (counted : 0 < count) :
    (x.withDigits count).mantissa = 0 := by
  rw [withDigits, digits_of_zero zero, if_neg (by omega), zero]
  exact Int.zero_mul _

/-- The product of zero is zero. -/
theorem mantissa_multiply_of_zero (zero : x.mantissa = 0) (y : Decimal) :
    (x.multiply y).mantissa = 0 := by
  have plural : x.isOne = false := by
    rw [Bool.eq_false_iff, ne_eq, isOne_iff, (rational_eq_zero_iff x).mpr zero]
    norm_num
  rw [multiply, plural, if_neg (by decide)]
  split_ifs
  · exact zero
  · rw [zero, Int.zero_mul]

/-- The quotient of zero is zero. -/
theorem divide_of_zero (zero : x.mantissa = 0) (y : Decimal) : x.divide y = x := by
  rw [divide, show x.isZero = true by simpa [isZero] using zero, Bool.true_or, if_pos rfl]

/-! ## Negligible terms -/

/-- A term is negligible if it begins so many digits and more to the right of the sum. -/
theorem isNegligible_iff {term sum : Decimal} {digits : ℕ} (nonzero : term.mantissa ≠ 0)
    (nonzeroToo : sum.mantissa ≠ 0) (near : |term.place| ≤ 2 ^ 60) (nearToo : |sum.place| ≤ 2 ^ 60)
    (few : digits ≤ 2 ^ 60) :
    isNegligible term sum digits = true ↔ term.place + digits + 1 < sum.place := by
  obtain ⟨low, high⟩ := abs_le.mp near
  obtain ⟨lowToo, highToo⟩ := abs_le.mp nearToo
  unfold place at low high lowToo highToo
  have left := toInt_exponent_of_fits nonzero (by omega) (by omega)
  have right := toInt_exponent_of_fits nonzeroToo (by omega) (by omega)
  have word : (Int64.ofNat digits).toInt = digits := Int64.toInt_ofNat_of_lt (by omega)
  have single : (1 : Int64).toInt = 1 := rfl
  have shifted : (sum.exponent - Int64.ofNat digits - 1).toInt = sum.exponent.toInt - digits - 1 := by
    have first := toInt_sub_of_fits (a := sum.exponent) (b := Int64.ofNat digits) (by omega) (by omega)
    rw [toInt_sub_of_fits (by omega) (by omega), first, word, single]
  have present : term.isZero = false := by simpa [isZero] using nonzero
  have presentToo : sum.isZero = false := by simpa [isZero] using nonzeroToo
  rw [isNegligible, present, presentToo, Bool.false_or, Bool.not_false, Bool.true_and,
    decide_eq_true_iff, Int64.lt_iff_toInt_lt, shifted, left, right, place, place]
  omega

/-- A negligible term is small against the sum. -/
theorem abs_le_of_isNegligible {term sum : Decimal} {digits : ℕ} (nonzero : term.mantissa ≠ 0)
    (nonzeroToo : sum.mantissa ≠ 0) (near : |term.place| ≤ 2 ^ 60) (nearToo : |sum.place| ≤ 2 ^ 60)
    (few : digits ≤ 2 ^ 60) (negligible : isNegligible term sum digits = true) :
    |term.real| ≤ grain (digits + 2) * |sum.real| := by
  have apart := (isNegligible_iff nonzero nonzeroToo near nearToo few).mp negligible
  calc |term.real|
    _ ≤ 10 ^ term.place := (real_bounds nonzero).2.le
    _ ≤ 10 ^ (1 - ((digits + 2 : ℕ) : ℤ) + (sum.place - 1)) :=
      zpow_le_zpow_right₀ (by norm_num) (by push_cast; omega)
    _ = grain (digits + 2) * 10 ^ (sum.place - 1) := by rw [zpow_add₀ (by norm_num), grain]
    _ ≤ grain (digits + 2) * |sum.real| :=
      mul_le_mul_of_nonneg_left (real_bounds nonzeroToo).1 (grain_pos _).le

/-- A term that is small against the sum is negligible. -/
theorem isNegligible_of_abs_le {term sum : Decimal} {digits : ℕ} (nonzero : term.mantissa ≠ 0)
    (nonzeroToo : sum.mantissa ≠ 0) (near : |term.place| ≤ 2 ^ 60) (nearToo : |sum.place| ≤ 2 ^ 60)
    (few : digits ≤ 2 ^ 60) (small : |term.real| ≤ grain (digits + 4) * |sum.real|) :
    isNegligible term sum digits = true := by
  refine (isNegligible_iff nonzero nonzeroToo near nearToo few).mpr ?_
  have below : |term.real| < 10 ^ (1 - ((digits + 4 : ℕ) : ℤ) + sum.place) := by
    rw [zpow_add₀ (by norm_num), ← grain]
    exact small.trans_lt (mul_lt_mul_of_pos_left (real_bounds nonzeroToo).2 (grain_pos _))
  have bound := place_le_of_abs_lt nonzero below
  push_cast at bound
  omega

/-! ## Runs of a summation -/

/-- A step of a summation. -/
theorem sumSeries_succ {State : Type} (next : State → State × Decimal) (digits terms : ℕ)
    (state : State) (sum : Decimal) :
    sumSeries next digits (terms + 1) state sum =
      if isNegligible (next state).2 sum digits = true then sum
      else sumSeries next digits terms (next state).1 (sum.add (next state).2) := rfl

/-- What every term that is not negligible keeps holds of the result, however many terms are added. -/
theorem sumSeries_keeps {State : Type} (next : State → State × Decimal) (digits : ℕ)
    (invariant : State → Decimal → Prop)
    (step : ∀ {state sum}, invariant state sum → isNegligible (next state).2 sum digits = false →
      invariant (next state).1 (sum.add (next state).2)) (terms : ℕ) {state : State} {sum : Decimal}
    (start : invariant state sum) : ∃ final, invariant final (sumSeries next digits terms state sum) := by
  induction terms generalizing state sum with
  | zero => exact ⟨state, start⟩
  | succ terms inductionHypothesis =>
    rw [sumSeries_succ]
    cases negligible : isNegligible (next state).2 sum digits with
    | true => exact ⟨state, start⟩
    | false => exact inductionHypothesis (step start negligible)

/-- Whether a loop that goes on while a condition holds ends after so many rounds, and in which
state. -/
inductive Ends {State : Type} (goes : State → Bool) (round : State → State) :
    State → ℕ → State → Prop
  | done {state : State} (stopped : goes state = false) : Ends goes round state 0 state
  | again {state final : State} {rounds : ℕ} (on : goes state = true)
      (rest : Ends goes round (round state) rounds final) : Ends goes round state (rounds + 1) final

/-- A loop ends if it keeps an invariant until, after so many rounds, the condition fails at the
latest. -/
theorem exists_ends {State : Type} (goes : State → Bool) (round : State → State)
    (invariant : ℕ → State → Prop) (limit : ℕ)
    (step : ∀ {index state}, index < limit → invariant index state → goes state = true →
      invariant (index + 1) (round state))
    (last : ∀ {state}, invariant limit state → goes state = false)
    (state : State) (start : invariant 0 state) :
    ∃ rounds ≤ limit, ∃ final, invariant rounds final ∧ goes final = false ∧
      Ends goes round state rounds final := by
  -- The induction is on the number of rounds that are left.
  suffices run : ∀ left index state, index + left = limit → invariant index state →
      ∃ rounds ≤ left, ∃ final, invariant (index + rounds) final ∧ goes final = false ∧
        Ends goes round state rounds final by
    simpa only [Nat.zero_add] using run limit 0 state (Nat.zero_add limit) start
  intro left
  induction left with
  | zero =>
    intro index state reached holds
    obtain rfl : index = limit := reached
    exact ⟨0, le_rfl, state, holds, last holds, .done (last holds)⟩
  | succ left inductionHypothesis =>
    intro index state reached holds
    cases goal : goes state with
    | false => exact ⟨0, Nat.zero_le _, state, holds, goal, .done goal⟩
    | true =>
      obtain ⟨rounds, within, final, kept, stopped, ends⟩ := inductionHypothesis (index + 1)
        (round state) (by omega) (step (by omega) holds goal)
      rw [Nat.add_right_comm, Nat.add_assoc] at kept
      exact ⟨rounds + 1, by omega, final, kept, stopped, .again goal ends⟩

section Summation

variable {State : Type} (next : State → State × Decimal) (digits : ℕ)

/-- Whether the term that follows is added to a sum. -/
def counts (current : State × Decimal) : Bool := !isNegligible (next current.1).2 current.2 digits

/-- Adds the term that follows. -/
def addNext (current : State × Decimal) : State × Decimal :=
  ((next current.1).1, current.2.add (next current.1).2)

variable {next digits}

/-- A summation that ends is not affected by the number of terms after which it gives up. -/
theorem sumSeries_of_ends {current final : State × Decimal} {terms limit : ℕ}
    (ends : Ends (counts next digits) (addNext next) current terms final) (enough : terms ≤ limit) :
    sumSeries next digits limit current.1 current.2 = final.2 := by
  induction ends generalizing limit with
  | done stopped =>
    cases limit with
    | zero => rfl
    | succ limit => rw [sumSeries_succ, if_pos (by simpa [counts] using stopped)]
  | again on rest inductionHypothesis =>
    obtain ⟨limit, rfl⟩ : ∃ fewer, limit = fewer + 1 := ⟨limit - 1, by omega⟩
    rw [sumSeries_succ, if_neg (by simpa [counts] using on)]
    exact inductionHypothesis (by omega)

variable (next digits)

/-- Whether a summation ends after so many terms at the latest, and with which sum. -/
def SumsTo (limit : ℕ) (state : State) (sum total : Decimal) : Prop :=
  ∃ terms ≤ limit, ∃ final,
    Ends (counts next digits) (addNext next) (state, sum) terms (final, total)

variable {next digits}

/-- The sum is the one that is computed if so many terms are allowed. -/
theorem SumsTo.eq {limit enough : ℕ} {state : State} {sum total : Decimal}
    (sums : SumsTo next digits limit state sum total) (room : limit ≤ enough) :
    sumSeries next digits enough state sum = total := by
  obtain ⟨terms, within, final, ends⟩ := sums
  exact sumSeries_of_ends ends (within.trans room)

end Summation

/-- A summation ends if it keeps an invariant until, after so many terms, the next one is negligible
at the latest. It then ends with a sum for which the invariant holds and a negligible term, however
many terms more it may take. -/
theorem sumSeries_ends {State : Type} (next : State → State × Decimal) (digits : ℕ)
    (invariant : ℕ → State → Decimal → Prop) (terms : ℕ)
    (step : ∀ {index state sum}, index < terms → invariant index state sum →
      isNegligible (next state).2 sum digits = false →
      invariant (index + 1) (next state).1 (sum.add (next state).2))
    (last : ∀ {state sum}, invariant terms state sum →
      isNegligible (next state).2 sum digits = true)
    {state : State} {sum : Decimal} (start : invariant 0 state sum) :
    ∃ index ≤ terms, ∃ final total, invariant index final total ∧
      isNegligible (next final).2 total digits = true ∧
      ∀ limit, terms < limit → sumSeries next digits limit state sum = total := by
  obtain ⟨index, within, ⟨final, total⟩, kept, stopped, ends⟩ := exists_ends (counts next digits)
    (addNext next) (fun index current => invariant index current.1 current.2) terms
    (fun early holds on => step early holds (by simpa [counts] using on))
    (fun holds => by simpa [counts] using last holds) (state, sum) start
  exact ⟨index, within, final, total, kept, by simpa [counts] using stopped,
    fun limit more => sumSeries_of_ends ends (within.trans more.le)⟩

end Calculator.Decimal
