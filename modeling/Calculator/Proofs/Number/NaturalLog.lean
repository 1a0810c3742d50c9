import Calculator.Proofs.Number.Comparison
import Calculator.Proofs.Number.Logarithm
import Calculator.Proofs.Number.Ordinary
import Mathlib

/-!
# Natural logarithms

The natural logarithm of a real number is that of its decimal, taken to the working digits and then to
the digits of the tier. From one upward it is off by less than the unit of the last digit. Below one
the logarithms of the mantissa and of the power of ten cancel: the error is bounded by the unit of the
last digit of the result and, beside it, by a bound that does not shrink with the result, so that the
digits of the logarithm are lost as the number comes near one.
-/

namespace Calculator

open Decimal (grain grain_pos grain_le grain_add grain_le_pow)

/-! ## Rounding to a tier -/

/-- The digits of the tiers. -/
theorem Precision.digits_bounds (precision : Precision) :
    7 ≤ precision.digits ∧ precision.digits ≤ 34 := by
  cases precision <;> decide

/-- The unit of the last digit of a tier is small. -/
theorem Precision.grain_digits_le (precision : Precision) : grain precision.digits ≤ 1 / 10 ^ 6 :=
  grain_le_pow precision.digits_bounds.1

namespace Rounded

variable {value : Decimal} {precision : Precision}

/-- Rounding to a tier takes the value to the digits of the tier. -/
theorem real_make (place : |value.place| ≤ 2 ^ 61) :
    (make value precision).value.real = (value.withDigits precision.digits).real := by
  obtain ⟨-, few⟩ := precision.digits_bounds
  obtain ⟨low, high⟩ := abs_le.mp place
  unfold Decimal.place at low high
  have roomy : value.Roomy := by unfold Decimal.Roomy; omega
  rw [Decimal.real, Decimal.real, rational_make roomy,
    Decimal.rational_withDigits (by omega) (by omega)]

/-- A value that is taken to the working digits of a tier and then rounded to the tier moves by hardly
more than the unit of the last digit, and by hardly more than half of it if it is not negative. -/
theorem abs_make_withDigits_sub_le (place : |value.place| ≤ 2 ^ 60) (precision : Precision) :
    |(make (value.withDigits precision.workingDigits) precision).value.real - value.real| ≤
        (1 + 2 / 10 ^ 8) * grain precision.digits * |value.real| ∧
      (0 ≤ value.real →
        |(make (value.withDigits precision.workingDigits) precision).value.real - value.real| ≤
          (1 / 2 + 2 / 10 ^ 8) * grain precision.digits * |value.real|) := by
  obtain ⟨several, few⟩ := precision.digits_bounds
  have split : precision.workingDigits = precision.digits + 8 := rfl
  obtain ⟨low, high⟩ := abs_le.mp place
  have unit := grain_pos precision.digits
  have small := precision.grain_digits_le
  have working : grain precision.workingDigits = grain precision.digits / 10 ^ 8 := by
    rw [split, grain_add]
  obtain ⟨inner, -⟩ := Decimal.abs_withDigits_sub_le value precision.workingDigits (by omega)
    (by omega)
  have placeToo : |(value.withDigits precision.workingDigits).place| ≤ 2 ^ 61 := by
    have written := Decimal.digits_withDigits_le (x := value)
      (show 0 < precision.workingDigits by omega)
    have scale := Decimal.toInt_scale_withDigits (x := value) precision.workingDigits
      (by unfold Decimal.place at low high; omega) (by unfold Decimal.place at low high; omega)
    unfold Decimal.place at low high ⊢
    exact abs_le.mpr ⟨by omega, by omega⟩
  obtain ⟨lowToo, highToo⟩ := abs_le.mp placeToo
  obtain ⟨outer, half⟩ := Decimal.abs_withDigits_sub_le (value.withDigits precision.workingDigits)
    precision.digits (by omega) (by omega)
  rw [real_make placeToo]
  generalize ((value.withDigits precision.workingDigits).withDigits precision.digits).real = final at *
  generalize (value.withDigits precision.workingDigits).real = between at *
  rw [working] at inner
  have magnitude := abs_nonneg value.real
  have size : |between| ≤ (1 + 1 / 10 ^ 8) * |value.real| := by
    have triangle := abs_sub_abs_le_abs_sub between value.real
    have part : grain precision.digits / 10 ^ 8 * |value.real| ≤ 1 / 10 ^ 8 * |value.real| := by
      gcongr
      linarith
    linarith
  have triangle := abs_sub_le final between value.real
  have scaled : grain precision.digits * |between| ≤
      grain precision.digits * ((1 + 1 / 10 ^ 8) * |value.real|) := by gcongr
  refine ⟨by linarith, fun nonneg => ?_⟩
  have nonnegToo : 0 ≤ between := by
    rw [abs_of_nonneg nonneg] at inner
    nlinarith [(abs_le.mp inner).1]
  linarith [half nonnegToo]

end Rounded

/-! ## Logarithms of decimals -/

namespace Decimal

variable {x : Decimal}

/-- At a tier the logarithm is what the parts give, taken to the working digits and rounded. -/
theorem applyAt_naturalLog (positive : 0 < x.mantissa) (apart : x.rational ≠ 1)
    (manageable : x.Manageable) (precision : Precision) :
    ∃ result : Decimal, Parts x result (6 / 10 ^ 16 * grain precision.digits) ∧
      |result.place| ≤ 2 ^ 60 ∧
      x.applyAt .naturalLog precision =
        .ok (.decimal (.make (result.withDigits precision.workingDigits) precision)) := by
  obtain ⟨several, few⟩ := precision.digits_bounds
  have split : precision.workingDigits = precision.digits + 8 := rfl
  have unit := precision.grain_digits_le
  have fine : 600 * grain (precision.workingDigits + 10) = 6 / 10 ^ 16 * grain precision.digits := by
    rw [split, grain_add, grain_add]
    ring
  obtain ⟨result, done, parts⟩ := naturalLogarithm_parts positive apart manageable
    (by omega : 10 ≤ precision.workingDigits) (by omega)
  rw [fine] at parts
  refine ⟨result, parts, parts.abs_place_le (by linarith) manageable, ?_⟩
  rw [applyAt, apply, done]
  rfl

/-- The logarithm of one is zero. -/
theorem applyAt_naturalLog_one (one : x.real = 1) (precision : Precision) :
    x.applyAt .naturalLog precision = .ok (.decimal ⟨zero, precision⟩) := by
  have exact : x.rational = 1 := (real_eq_one_iff x).mp one
  have single : x.isOne = true := (isOne_iff x).mpr exact
  have positive : 0 < x.mantissa := by
    rw [← rational_pos_iff, exact]
    exact one_pos
  rw [applyAt, apply, naturalLogarithm, if_neg (by simpa [isPositive] using positive), if_pos single]
  rfl

/-- From one upward the error is little more than half of the unit of the last digit. -/
theorem applyAt_naturalLog_above (positive : 0 < x.mantissa) (above : 1 ≤ x.real)
    (manageable : x.Manageable) (precision : Precision) :
    ∃ result : Rounded, x.applyAt .naturalLog precision = .ok (.decimal result) ∧
      result.precision = precision ∧
      |result.value.real - Real.log x.real| ≤ 6 / 10 * grain precision.digits * Real.log x.real := by
  rcases above.eq_or_lt with one | above
  · refine ⟨_, applyAt_naturalLog_one one.symm precision, rfl, ?_⟩
    rw [← one, real_zero, Real.log_one, sub_zero, abs_zero, mul_zero]
  have apart : x.rational ≠ 1 := fun one => above.ne' ((real_eq_one_iff x).mpr one)
  have unit := precision.grain_digits_le
  have fine := grain_pos precision.digits
  obtain ⟨result, parts, place, done⟩ := applyAt_naturalLog positive apart manageable precision
  refine ⟨_, done, rfl, ?_⟩
  have logarithm := Real.log_pos above
  have close := parts.close positive above.le
  have near := close.abs_sub_le (by linarith)
  rw [abs_of_pos logarithm] at near
  have computed := close.pos logarithm
  have rounded := (Rounded.abs_make_withDigits_sub_le place precision).2 computed.le
  rw [abs_of_pos computed] at rounded
  have part : grain precision.digits * Real.log x.real ≤ 1 / 10 ^ 6 * Real.log x.real := by gcongr
  have size : result.real ≤ (1 + 1 / 10 ^ 10) * Real.log x.real := by linarith [(abs_le.mp near).2]
  have scaled : grain precision.digits * result.real ≤
      grain precision.digits * ((1 + 1 / 10 ^ 10) * Real.log x.real) := by gcongr
  have share := mul_pos fine logarithm
  have triangle := abs_sub_le (Rounded.make (result.withDigits precision.workingDigits)
    precision).value.real result.real (Real.log x.real)
  linarith

/-- Up to one it is a unit of the last digit, and what the parts are off by besides. -/
theorem applyAt_naturalLog_below (positive : 0 < x.mantissa) (below : x.real ≤ 1)
    (manageable : x.Manageable) (precision : Precision) :
    ∃ result : Rounded, x.applyAt .naturalLog precision = .ok (.decimal result) ∧
      result.precision = precision ∧
      |result.value.real - Real.log x.real| ≤
        grain precision.digits * ((1 + 3 / 10 ^ 8) * |Real.log x.real| + 7 / 10 ^ 15) ∧
      (grain precision.digits / 10 ^ 14 ≤ |Real.log x.real| → result.value.real < 0) := by
  have fine := grain_pos precision.digits
  rcases below.eq_or_lt with one | below
  · refine ⟨_, applyAt_naturalLog_one one precision, rfl, ?_⟩
    rw [one, real_zero, Real.log_one, sub_zero, abs_zero]
    exact ⟨by positivity, fun apart => absurd apart (not_le.mpr (by positivity))⟩
  have apart : x.rational ≠ 1 := fun one => below.ne ((real_eq_one_iff x).mpr one)
  have unit := precision.grain_digits_le
  obtain ⟨result, parts, place, done⟩ := applyAt_naturalLog positive apart manageable precision
  refine ⟨_, done, rfl, ?_⟩
  have near := parts.abs_sub_le positive below (by linarith)
  have rounded := (Rounded.abs_make_withDigits_sub_le place precision).1
  have value := x.real_pos_iff.mpr positive
  have negative := abs_of_neg (Real.log_neg value below)
  have triangle := abs_sub_le (Rounded.make (result.withDigits precision.workingDigits)
    precision).value.real result.real (Real.log x.real)
  generalize (Rounded.make (result.withDigits precision.workingDigits) precision).value.real = final at *
  have split := abs_sub_abs_le_abs_sub result.real (Real.log x.real)
  have nonneg := abs_nonneg (Real.log x.real)
  generalize |Real.log x.real| = size at *
  have part : grain precision.digits * size ≤ 1 / 10 ^ 6 * size := by gcongr
  constructor
  · have computed : |result.real| ≤ (1 + 1 / 10 ^ 20) * size + 1 / 10 ^ 20 := by linarith
    have scaled : grain precision.digits * |result.real| ≤
        grain precision.digits * ((1 + 1 / 10 ^ 20) * size + 1 / 10 ^ 20) := by gcongr
    have share := mul_nonneg fine.le nonneg
    linarith
  · intro apart
    have computed : result.real < 0 := by linarith [(abs_le.mp near).2]
    have scaled : grain precision.digits * |result.real| ≤ 1 / 10 ^ 6 * |result.real| := by gcongr
    rw [abs_of_neg computed] at rounded scaled
    linarith [(abs_le.mp rounded).2]

end Decimal

/-! ## Real numbers -/

namespace Real

variable {x : Real}

/-- As a decimal a number is close to itself. -/
theorem close_toDecimal (sized : x.Sized) : Close (grain 100) x.toDecimal.real x.denoted := by
  rcases rational_toDecimal sized with exact | ⟨-, rounds⟩
  · rw [Decimal.real, exact]
    exact (Close.refl _).mono (grain_pos 100).le
  · have near : |(x.denoted : ℝ) - x.toDecimal.real| ≤ 1 / (2 * 10 ^ 99) * |x.toDecimal.real| := by
      have error := rounds.error_le
      rw [abs_sub_comm, ← Rat.cast_le (K := ℝ)] at error
      push_cast at error
      rw [Decimal.real]
      linarith
    refine (close_of_abs_sub_le (by norm_num) (by norm_num) near).symm.mono ?_
    rw [grain]
    norm_num

/-- As a decimal a number is on the same side of one, or it is one. -/
theorem toDecimal_one (sized : x.Sized) :
    (1 ≤ x.denoted → 1 ≤ x.toDecimal.real) ∧ (x.denoted ≤ 1 → x.toDecimal.real ≤ 1) := by
  have short : Short 1 := by exact_mod_cast short_intCast (n := 1) (by norm_num)
  have sides : (1 ≤ x.denoted → 1 ≤ x.toDecimal.rational) ∧
      (x.denoted ≤ 1 → x.toDecimal.rational ≤ 1) := by
    rcases rational_toDecimal sized with exact | ⟨-, rounds⟩
    · rw [exact]
      exact ⟨id, id⟩
    · exact ⟨rounds.ge_of_ge short, rounds.le_of_le short⟩
  rw [Decimal.real]
  exact_mod_cast sides

/-- The integer one denotes one. -/
theorem denoted_of_isOne (single : x.isOne = true) : x.denoted = 1 := by
  cases x with
  | word value =>
    obtain ⟨plain, magnitude⟩ : value.negative = false ∧ value.magnitude = 1 := by
      simpa [isOne] using single
    simp [denoted, Word.toInt, plain, magnitude]
  | _ => cases single

/-- What is above zero is a decimal above zero, and has a real logarithm. -/
theorem toDecimal_pos (sized : x.Sized) (positive : 0 < x.denoted) :
    0 < x.toDecimal.mantissa ∧ x.isNegative = false := by
  have value := (close_toDecimal sized).pos (Rat.cast_pos.mpr positive)
  rw [Decimal.real_pos_iff] at value
  refine ⟨value, (isNegative_eq_false_iff x).mpr ?_⟩
  rw [← sign_toDecimal, Decimal.sign]
  exact Int.sign_nonneg_iff.mpr value.le

/-- A logarithm changes by little as the number becomes a decimal. -/
theorem abs_log_toDecimal_sub_le (sized : x.Sized) (positive : 0 < x.denoted)
    (precision : Precision) :
    |Real.log x.toDecimal.real - Real.log x.denoted| ≤ grain precision.digits / 10 ^ 66 := by
  obtain ⟨-, few⟩ := precision.digits_bounds
  have value : (0 : ℝ) < x.denoted := Rat.cast_pos.mpr positive
  refine ((close_toDecimal sized).abs_log_sub_le value.ne').trans ?_
  rw [← grain_add]
  exact grain_le (by omega)

/-- It changes by a small part above one, if the number is a decimal or not too near one. -/
theorem abs_log_toDecimal_sub_le_part (sized : x.Sized) (above : 1 < x.denoted)
    (apart : x.toDecimal.rational = x.denoted ∨ 1 + 1 / 10 ^ 50 ≤ x.denoted)
    (precision : Precision) :
    |Real.log x.toDecimal.real - Real.log x.denoted| ≤
      grain precision.digits / 10 * Real.log x.denoted := by
  have unit := grain_pos precision.digits
  have value : (1 : ℝ) < x.denoted := by exact_mod_cast above
  rcases apart with exact | far
  · rw [Decimal.real, exact, sub_self, abs_zero]
    exact mul_nonneg (by linarith) (Real.log_pos value).le
  · have distance := Rat.cast_le (K := ℝ).mpr far
    push_cast at distance
    have inverse : (x.denoted : ℝ)⁻¹ ≤ 1 - 1 / 10 ^ 51 := by
      rw [inv_le_comm₀ (by linarith) (by norm_num)]
      exact le_trans (by norm_num) distance
    have logarithm := Real.one_sub_inv_le_log_of_pos (show (0 : ℝ) < x.denoted by linarith)
    calc |Real.log x.toDecimal.real - Real.log x.denoted|
      _ ≤ grain precision.digits / 10 ^ 66 :=
        abs_log_toDecimal_sub_le sized (one_pos.trans above) precision
      _ ≤ grain precision.digits / 10 * (1 / 10 ^ 51) := by
        rw [div_mul_div_comm, mul_one]
        gcongr
        norm_num
      _ ≤ grain precision.digits / 10 * Real.log x.denoted := by
        gcongr
        linarith

/-- The logarithm of a number below one is as large as the number is far from one. -/
theorem le_abs_log (positive : 0 < x.denoted) {precision : Precision}
    (below : x.denoted ≤ 1 - 10 ^ (-12 - (precision.digits : ℤ))) :
    grain precision.digits / 10 ^ 13 ≤ |Real.log x.denoted| := by
  have distance := Rat.cast_le (K := ℝ).mpr below
  push_cast at distance
  have split : (10 : ℝ) ^ (-12 - (precision.digits : ℤ)) = grain precision.digits / 10 ^ 13 := by
    rw [← grain_add, grain]
    congr 1
    push_cast
    ring
  have upper := Real.log_le_sub_one_of_pos (show (0 : ℝ) < x.denoted from Rat.cast_pos.mpr positive)
  have lower := neg_abs_le (Real.log x.denoted)
  linarith

/-- Above one the answer is near the logarithm of the number, if this is a decimal or not too near
one. -/
theorem applyAt_naturalLog_above (sized : x.Sized) (manageable : x.toDecimal.Manageable)
    (above : 1 < x.denoted) (precision : Precision) :
    ∃ result : Rounded, x.toDecimal.applyAt .naturalLog precision = .ok (.decimal result) ∧
      result.precision = precision ∧
      (x.toDecimal.rational = x.denoted ∨ 1 + 1 / 10 ^ 50 ≤ x.denoted →
        0 < result.value.real ∧ |result.value.real - Real.log x.denoted| ≤
          grain precision.digits * Real.log x.denoted) := by
  obtain ⟨mantissa, -⟩ := toDecimal_pos sized (one_pos.trans above)
  obtain ⟨result, done, same, near⟩ := Decimal.applyAt_naturalLog_above mantissa
    ((toDecimal_one sized).1 above.le) manageable precision
  refine ⟨result, done, same, fun apart => ?_⟩
  have unit := precision.grain_digits_le
  have fine := grain_pos precision.digits
  have drift := abs_log_toDecimal_sub_le_part sized above apart precision
  have logarithm : 0 < Real.log x.denoted := Real.log_pos (by exact_mod_cast above)
  have part : grain precision.digits * Real.log x.denoted ≤ 1 / 10 ^ 6 * Real.log x.denoted := by
    gcongr
  have scaled : grain precision.digits * Real.log x.toDecimal.real ≤
      grain precision.digits * ((1 + 1 / 10 ^ 6) * Real.log x.denoted) := by
    gcongr
    linarith [(abs_le.mp drift).2]
  have triangle := abs_sub_le result.value.real (Real.log x.toDecimal.real) (Real.log x.denoted)
  have total : |result.value.real - Real.log x.denoted| ≤
      grain precision.digits * Real.log x.denoted := by
    linarith [mul_pos fine logarithm]
  exact ⟨by linarith [(abs_le.mp total).1], total⟩

/-- Below one the answer is near the logarithm of the number as far as the parts allow. -/
theorem applyAt_naturalLog_below (sized : x.Sized) (manageable : x.toDecimal.Manageable)
    (positive : 0 < x.denoted) (below : x.denoted < 1) (precision : Precision) :
    ∃ result : Rounded, x.toDecimal.applyAt .naturalLog precision = .ok (.decimal result) ∧
      result.precision = precision ∧
      |result.value.real - Real.log x.denoted| ≤
        grain precision.digits * ((1 + 1 / 10 ^ 7) * |Real.log x.denoted| + 1 / 10 ^ 14) ∧
      (x.denoted ≤ 1 - 10 ^ (-12 - (precision.digits : ℤ)) → result.value.real < 0) := by
  obtain ⟨mantissa, -⟩ := toDecimal_pos sized positive
  obtain ⟨result, done, same, near, negative⟩ := Decimal.applyAt_naturalLog_below mantissa
    ((toDecimal_one sized).2 below.le) manageable precision
  have unit := precision.grain_digits_le
  have fine := grain_pos precision.digits
  have drift := abs_log_toDecimal_sub_le sized positive precision
  obtain ⟨low, high⟩ :=
    abs_le.mp (abs_abs_sub_abs_le (Real.log x.toDecimal.real) (Real.log x.denoted))
  refine ⟨result, done, same, ?_, fun distant => ?_⟩
  · have triangle := abs_sub_le result.value.real (Real.log x.toDecimal.real) (Real.log x.denoted)
    have scaled : grain precision.digits * |Real.log x.toDecimal.real| ≤
        grain precision.digits * (|Real.log x.denoted| + 1 / 10 ^ 60) := by
      gcongr
      linarith
    have share := mul_nonneg fine.le (abs_nonneg (Real.log x.denoted))
    linarith
  · have far := le_abs_log positive distant
    exact negative (by linarith)

end Real

namespace Arithmetic

variable {x : Real}

/-- What a real function answers for a number that is not negative. -/
theorem unary_of_apply {command : Command} (nonneg : x.isNegative = false) {settings : Preferences}
    {result : Real} (done : x.apply command settings = .ok result) :
    unary command (.real x) settings = .ok (.real result) := by
  refine (unaryOver_nonneg nonneg).trans ?_
  rw [done]
  rfl

/-- The logarithm of a number other than one is that of its decimal at the tier of the number. -/
theorem unary_naturalLog (sized : x.Sized) (positive : 0 < x.denoted) (apart : x.denoted ≠ 1)
    {settings : Preferences} {result : Rounded}
    (done : x.toDecimal.applyAt .naturalLog (x.precision settings) = .ok (.decimal result)) :
    unary .naturalLog (.real x) settings = .ok (.real (.decimal result)) := by
  have other : x.isOne = false :=
    Bool.eq_false_iff.mpr fun single => apart (Real.denoted_of_isOne single)
  refine unary_of_apply (Real.toDecimal_pos sized positive).2 ?_
  simp only [Real.apply, other, Bool.false_eq_true, if_false, Real.applyDecimal, done]
  rfl

/-- The logarithm of every positive number other than one is a decimal at the tier of the number.

Above one it is positive and its relative error is at most a unit of the last digit, if the number is
written as a decimal or is not nearer to one than the quotient of a fraction shows.

Below one the logarithms of the mantissa and of the power of ten cancel. The error is at most a unit of
the last digit of the logarithm and, beside it, that unit of a small number that is the same for all
logarithms. Next to one it is larger than the logarithm; the result is negative where the number is so
far from one that it is not. -/
theorem naturalLog_accurate (settings : Preferences) (sized : x.Sized)
    (manageable : x.toDecimal.Manageable) (positive : 0 < x.denoted) (apart : x.denoted ≠ 1) :
    ∃ result : Rounded, unary .naturalLog (.real x) settings = .ok (.real (.decimal result)) ∧
      result.precision = x.precision settings ∧
      (1 < x.denoted → x.toDecimal.rational = x.denoted ∨ 1 + 1 / 10 ^ 50 ≤ x.denoted →
        0 < result.value.rational ∧
          |(result.value.rational : ℝ) - Real.log x.denoted| ≤
            10 ^ (1 - (result.precision.digits : ℤ)) * Real.log x.denoted) ∧
      (x.denoted < 1 →
        |(result.value.rational : ℝ) - Real.log x.denoted| ≤
            10 ^ (1 - (result.precision.digits : ℤ)) *
              ((1 + 1 / 10 ^ 7) * |Real.log x.denoted| + 1 / 10 ^ 14) ∧
          (x.denoted ≤ 1 - 10 ^ (-12 - (result.precision.digits : ℤ)) →
            result.value.rational < 0)) := by
  rcases lt_or_gt_of_ne apart with below | above
  · obtain ⟨result, done, same, near, negative⟩ := Real.applyAt_naturalLog_below sized manageable
      positive below (x.precision settings)
    refine ⟨result, unary_naturalLog sized positive apart done, same,
      fun above => absurd above below.asymm, fun _ => ?_⟩
    rw [same]
    exact ⟨near, fun distant => Rat.cast_lt_zero.mp (negative distant)⟩
  · obtain ⟨result, done, same, near⟩ := Real.applyAt_naturalLog_above sized manageable above
      (x.precision settings)
    refine ⟨result, unary_naturalLog sized positive apart done, same, fun _ further => ?_,
      fun below => absurd above below.asymm⟩
    rw [same]
    obtain ⟨positive, accurate⟩ := near further
    exact ⟨Rat.cast_pos.mp positive, accurate⟩

/-- The logarithms of two and of one half, which lie on the two sides of one. -/
theorem naturalLog_accurate_two_half :
    let half : Real := .fraction ⟨1, 2, by decide, by decide⟩
    let positive : Rounded := ⟨⟨6931471805599453, 16⟩, .decimal64⟩
    let negative : Rounded := ⟨⟨-6931471805599453, 16⟩, .decimal64⟩
    unary .naturalLog (.real (.ofInt 2)) {} = .ok (.real (.decimal positive)) ∧
      |(positive.value.rational : ℝ) - Real.log 2| ≤ 10 ^ (1 - (16 : ℤ)) * Real.log 2 ∧
      unary .naturalLog (.real half) {} = .ok (.real (.decimal negative)) ∧
      |(negative.value.rational : ℝ) - Real.log (1 / 2)| ≤
        10 ^ (1 - (16 : ℤ)) * ((1 + 1 / 10 ^ 7) * |Real.log (1 / 2)| + 1 / 10 ^ 14) := by
  intro half positive negative
  have answer : unary .naturalLog (.real (.ofInt 2)) {} = .ok (.real (.decimal positive)) :=
    unary_of_apply rfl (by decide +kernel)
  have answerToo : unary .naturalLog (.real half) {} = .ok (.real (.decimal negative)) :=
    unary_of_apply rfl (by decide +kernel)
  have two : (Real.ofInt 2).denoted = 2 := rfl
  have one : half.denoted = 1 / 2 := by simp [half, Real.denoted]
  refine ⟨answer, ?_, answerToo, ?_⟩
  · obtain ⟨result, answered, -, above, -⟩ := naturalLog_accurate (x := .ofInt 2) {} trivial
      ⟨by decide +kernel, by decide +kernel, .inl (by decide +kernel)⟩ (by rw [two]; norm_num)
      (by rw [two]; norm_num)
    obtain rfl := Real.decimal.inj (Value.real.inj (Except.ok.inj (answer.symm.trans answered)))
    obtain ⟨-, near⟩ := above (by rw [two]; norm_num) (.inl (Decimal.rational_ofInt 2))
    rwa [two, Rat.cast_ofNat] at near
  · obtain ⟨result, answered, -, -, below⟩ := naturalLog_accurate (x := half) {}
      (show Digits.count 2 ≤ 2 ^ 56 by decide +kernel)
      ⟨by decide +kernel, by decide +kernel, .inl (by decide +kernel)⟩ (by rw [one]; norm_num)
      (by rw [one]; norm_num)
    obtain rfl := Real.decimal.inj (Value.real.inj (Except.ok.inj (answerToo.symm.trans answered)))
    obtain ⟨near, -⟩ := below (by rw [one]; norm_num)
    rw [one] at near
    push_cast at near
    exact near

/-- Next to one nothing is right: of the logarithm of the largest number of thirty-four digits below
one only half of the digits are, and that of a fraction too near one is zero. -/
theorem naturalLog_cancelled :
    let below : Real := .decimal ⟨⟨10 ^ 34 - 1, 34⟩, .decimal128⟩
    let above : Real := .fraction ⟨10 ^ 120 + 1, 10 ^ 120, by norm_num, by norm_num⟩
    let result : Rounded := ⟨⟨-999999999999999951802867037896705, 67⟩, .decimal128⟩
    below.IsMade ∧ 0 < below.denoted ∧ below.denoted < 1 ∧
      unary .naturalLog (.real below) {} = .ok (.real (.decimal result)) ∧
      10 ^ (1 - (34 : ℤ)) * |Real.log below.denoted| <
        |(result.value.rational : ℝ) - Real.log below.denoted| ∧
      1 < above.denoted ∧
      unary .naturalLog (.real above) {} = .ok (.real (.decimal ⟨.zero, .decimal64⟩)) := by
  intro below above result
  have scale : (34 : Int64).toInt = 34 := rfl
  have scaleToo : (67 : Int64).toInt = 67 := rfl
  have value : below.denoted = 1 - 1 / 10 ^ 34 := by
    rw [Real.denoted, Decimal.rational, scale]
    norm_num
  have computed : result.value.rational = -999999999999999951802867037896705 / 10 ^ 67 := by
    rw [Decimal.rational, scaleToo]
    norm_num
  refine ⟨(Rounded.isMade_iff _).mpr (.inr ⟨by decide, by decide⟩), by rw [value]; norm_num,
    by rw [value]; norm_num, unary_of_apply rfl (by decide +kernel), ?_, ?_,
    unary_of_apply rfl (by decide +kernel)⟩
  · rw [value, computed]
    push_cast
    have upper := Real.log_le_sub_one_of_pos (show (0 : ℝ) < 1 - 1 / 10 ^ 34 by norm_num)
    have lower := Real.one_sub_inv_le_log_of_pos (show (0 : ℝ) < 1 - 1 / 10 ^ 34 by norm_num)
    generalize Real.log (1 - 1 / 10 ^ 34) = logarithm at *
    norm_num at upper lower ⊢
    rw [abs_of_neg (by linarith), abs_of_pos (by linarith)]
    linarith
  · rw [Real.denoted]
    norm_num

end Arithmetic

end Calculator
