import Calculator.Proofs.Number.Exponential
import Mathlib

/-!
# The circular series

The series of the sine and of the cosine of an angle of half a turn at most. The terms first grow by
the square of the angle and then shrink; against the first term all of them together stay below the
hyperbolic cosine of the angle. A term is cut off when it no longer matters to the sum, so the
summation ends as long as the sum does not vanish among the roundings of the terms, and it ends before
the product of the two numbers after the exponent leaves its machine word.
-/

namespace Calculator.Decimal

open Finset

variable {r value : ℝ} {first : ℕ}

/-! ## The series -/

/-- A term of the series: an even or an odd summand of the exponential series, with alternating sign. -/
noncomputable def circularValue (r : ℝ) (first index : ℕ) : ℝ :=
  (-1) ^ index * summand r (2 * index + first)

/-- The sum of the first terms. -/
noncomputable def circularSum (r : ℝ) (first terms : ℕ) : ℝ :=
  ∑ index ∈ range terms, circularValue r first index

/-- Each term is the last one times the square of the angle over the two numbers after its exponent. -/
theorem circularValue_succ (r : ℝ) (first index : ℕ) :
    circularValue r first (index + 1) = -(circularValue r first index * r ^ 2) /
      (((2 * index + first + 1) * (2 * index + first + 2) : ℕ) : ℝ) := by
  have exponent : 2 * (index + 1) + first = 2 * index + first + 1 + 1 := by ring
  rw [circularValue, circularValue, exponent, summand_succ, summand_succ, pow_succ]
  push_cast
  field_simp
  ring

/-- The magnitude of a term. -/
theorem abs_circularValue (r : ℝ) (first index : ℕ) :
    |circularValue r first index| = |r| ^ (2 * index + first) / (2 * index + first).factorial := by
  rw [circularValue, abs_mul, abs_pow, abs_neg, abs_one, one_pow, one_mul, summand, abs_div, abs_pow,
    Nat.abs_cast]

/-- The terms from one of them on are below it times those of the hyperbolic cosine. -/
theorem abs_circularValue_add_le (r : ℝ) (first start further : ℕ) :
    |circularValue r first (start + further)| ≤
      |circularValue r first start| * (r ^ (2 * further) / (2 * further).factorial) := by
  have split : 2 * (start + further) + first = 2 * start + first + 2 * further := by ring
  have factorials : (((2 * start + first).factorial * (2 * further).factorial : ℕ) : ℝ) ≤
      (2 * start + first + 2 * further).factorial :=
    Nat.cast_le.mpr (Nat.le_of_dvd (Nat.factorial_pos _)
      (Nat.factorial_mul_factorial_dvd_factorial_add _ _))
  rw [abs_circularValue, abs_circularValue, split, pow_add, div_mul_div_comm,
    (even_two_mul further).pow_abs, ← Nat.cast_mul]
  refine div_le_div_of_nonneg_left ?_ (by positivity) factorials
  rw [← (even_two_mul further).pow_abs]
  positivity

/-- The hyperbolic cosine is below an exponential. -/
theorem cosh_le_exp_abs (a : ℝ) : Real.cosh a ≤ Real.exp |a| := by
  rw [← Real.cosh_abs, Real.cosh_eq]
  have opposite := Real.exp_le_exp.mpr (neg_le_self (abs_nonneg a))
  linarith

/-- The exponential of a natural number, from above. -/
theorem exp_natCast_le (n : ℕ) : Real.exp n ≤ (2.7182818286 : ℝ) ^ n := by
  rw [← mul_one (n : ℝ), Real.exp_nat_mul]
  exact pow_le_pow_left₀ (Real.exp_pos 1).le Real.exp_one_lt_d9.le n

section Bounds

variable (small : |r| ≤ 63 / 20)
include small

/-- The terms shrink faster than the powers of a hundred. -/
theorem abs_circularValue_le (first index : ℕ) :
    |circularValue r first index| * 100 ^ index ≤ 10 ^ 14 * |circularValue r first 0| := by
  have bound := abs_circularValue_add_le r first 0 index
  have power : r ^ (2 * index) * 100 ^ index = (10 * |r|) ^ (2 * index) := by
    rw [mul_pow, (even_two_mul index).pow_abs, pow_mul 10, mul_comm]
    norm_num
  have limit : (10 * |r|) ^ (2 * index) / (2 * index).factorial ≤ 10 ^ 14 := by
    calc (10 * |r|) ^ (2 * index) / (2 * index).factorial
      _ ≤ Real.exp (10 * |r|) := Real.pow_div_factorial_le_exp _ (by positivity) _
      _ ≤ Real.exp (32 : ℕ) := Real.exp_le_exp.mpr (by push_cast; linarith)
      _ ≤ 10 ^ 14 := (exp_natCast_le 32).trans (by norm_num)
  rw [zero_add] at bound
  calc |circularValue r first index| * 100 ^ index
    _ ≤ |circularValue r first 0| * (r ^ (2 * index) / (2 * index).factorial) * 100 ^ index := by gcongr
    _ = |circularValue r first 0| * ((10 * |r|) ^ (2 * index) / (2 * index).factorial) := by
      rw [← power]
      ring
    _ ≤ |circularValue r first 0| * 10 ^ 14 := by gcongr
    _ = 10 ^ 14 * |circularValue r first 0| := mul_comm _ _

/-- The terms together, each of them times a power of four, are no more than a multiple of the first. -/
theorem sum_four_pow_le (first terms : ℕ) :
    ∑ index ∈ range terms, 4 ^ index * |circularValue r first index| ≤
      1100 * |circularValue r first 0| := by
  have even (index : ℕ) : 0 ≤ (2 * r) ^ (2 * index) / (2 * index).factorial :=
    div_nonneg ((even_two_mul index).pow_nonneg _) (Nat.cast_nonneg _)
  have limit : Real.cosh (2 * r) ≤ 1100 := by
    calc Real.cosh (2 * r)
      _ ≤ Real.exp |2 * r| := cosh_le_exp_abs _
      _ ≤ Real.exp (7 : ℕ) := by
        rw [abs_mul, abs_two]
        exact Real.exp_le_exp.mpr (by push_cast; linarith)
      _ ≤ 1100 := (exp_natCast_le 7).trans (by norm_num)
  calc ∑ index ∈ range terms, 4 ^ index * |circularValue r first index|
    _ ≤ ∑ index ∈ range terms, (2 * r) ^ (2 * index) / (2 * index).factorial *
        |circularValue r first 0| := by
      refine sum_le_sum fun index _ => ?_
      have bound := abs_circularValue_add_le r first 0 index
      rw [zero_add] at bound
      calc 4 ^ index * |circularValue r first index|
        _ ≤ 4 ^ index * (|circularValue r first 0| * (r ^ (2 * index) / (2 * index).factorial)) := by
          gcongr
        _ = (2 * r) ^ (2 * index) / (2 * index).factorial * |circularValue r first 0| := by
          rw [mul_pow, pow_mul 2]
          norm_num
          ring
    _ = (∑ index ∈ range terms, (2 * r) ^ (2 * index) / (2 * index).factorial) *
        |circularValue r first 0| := (sum_mul _ _ _).symm
    _ ≤ 1100 * |circularValue r first 0| := by
      gcongr
      exact (sum_le_hasSum _ (fun index _ => even index) (Real.hasSum_cosh (2 * r))).trans limit

/-- What the first terms lack to the value is no more than a multiple of the next one. -/
theorem abs_sub_circularSum_le (total : HasSum (circularValue r first) value) (terms : ℕ) :
    |value - circularSum r first terms| ≤ 60 * |circularValue r first terms| := by
  have limit : Real.cosh r ≤ 60 := by
    calc Real.cosh r
      _ ≤ Real.exp |r| := cosh_le_exp_abs _
      _ ≤ Real.exp (4 : ℕ) := Real.exp_le_exp.mpr (by push_cast; linarith)
      _ ≤ 60 := (exp_natCast_le 4).trans (by norm_num)
  have rest := (hasSum_nat_add_iff' terms).mpr total
  have bound := (Real.hasSum_cosh r).mul_left |circularValue r first terms|
  refine (rest.norm_le_of_bounded bound fun further => ?_).trans ?_
  · rw [Real.norm_eq_abs, add_comm]
    exact abs_circularValue_add_le r first terms further
  · rw [mul_comm]
    gcongr

end Bounds

/-- The terms of the cosine. -/
theorem hasSum_cosine (r : ℝ) : HasSum (circularValue r 0) (Real.cos r) := by
  convert Real.hasSum_cos r using 2 with index
  rw [circularValue, summand, add_zero, mul_div_assoc]

/-- The terms of the sine. -/
theorem hasSum_sine (r : ℝ) : HasSum (circularValue r 1) (Real.sin r) := by
  convert Real.hasSum_sin r using 2 with index
  rw [circularValue, summand, mul_div_assoc]

/-- The size of a term. -/
theorem mild_circularValue {size : ℝ} (mild : Mild size r) (first index : ℕ) :
    Mild ((2 * index + first : ℕ) * size + (2 * index + first : ℕ) * (2 * index + first : ℕ))
      (circularValue r first index) := by
  obtain ⟨nonzero, within⟩ := mild_summand mild (2 * index + first)
  have magnitude : |circularValue r first index| = |summand r (2 * index + first)| := by
    rw [circularValue, abs_mul, abs_pow, abs_neg, abs_one, one_pow, one_mul]
  refine ⟨?_, ?_⟩
  · rw [← abs_pos, magnitude]
    exact abs_pos.mpr nonzero
  · rwa [← Real.log_abs, magnitude, Real.log_abs]

/-! ## The summation -/

/-- An angle of half a turn at most and of a size that leaves room for the scales, the first term of one
of its series, and its square to so many digits. -/
structure Angle (r : ℝ) (first work : ℕ) (start square : Decimal) : Prop where
  small : |r| ≤ 63 / 20
  mild : Mild (2 ^ 42 : ℕ) r
  first_le : first ≤ 1
  real_start : start.real = circularValue r first 0
  scale_le : |start.scale.toInt| ≤ 2 ^ 60
  close_square : Close (2 * grain work) square.real (r ^ 2)
  scale_square_le : |square.scale.toInt| ≤ 2 ^ 60

/-- What holds after so many terms of the summation, with so many digits, for an angle. -/
structure CircularRun (r : ℝ) (first work index : ℕ) (state : Decimal × UInt32) (sum : Decimal) :
    Prop where
  counted : state.2.toNat = 2 * index + first
  close : Close (5 * index * grain (min work 100)) state.1.real (circularValue r first index)
  scale_le : |state.1.scale.toInt| ≤ 2 ^ 60
  near : |sum.real - circularSum r first (index + 1)| ≤
    6 * grain (min work 100) * ∑ i ∈ range (index + 1), 4 ^ i * |circularValue r first i|
  scale_sum_le : |sum.scale.toInt| ≤ 2 ^ 60

section Summation

variable {work index : ℕ} {start square sum : Decimal} {state : Decimal × UInt32}

/-- The exponent of the next term. -/
theorem toNat_add_two {counter : UInt32} (early : counter.toNat + 2 < 2 ^ 16) :
    (counter + 2).toNat = counter.toNat + 2 := by
  rw [UInt32.toNat_add]
  exact Nat.mod_eq_of_lt (by change counter.toNat + 2 < 2 ^ 32; omega)

/-- The divisor of the next term is the product of the two numbers after the exponent, which fits its
machine word. -/
theorem toNat_divisor {counter : UInt32} (early : counter.toNat + 2 < 2 ^ 16) :
    ((counter + 1) * (counter + 2)).toNat = (counter.toNat + 1) * (counter.toNat + 2) := by
  have bound : (counter.toNat + 1) * (counter.toNat + 2) < 2 ^ 32 := by nlinarith
  have one : (counter + 1).toNat = counter.toNat + 1 := by
    rw [UInt32.toNat_add]
    exact Nat.mod_eq_of_lt (by change counter.toNat + 1 < 2 ^ 32; omega)
  rw [UInt32.toNat_mul, one, toNat_add_two early]
  exact Nat.mod_eq_of_lt bound

/-- The size of a term before the counter is large. -/
theorem mild_circularValue_of_early (mild : Mild (2 ^ 42 : ℕ) r) {first index : ℕ}
    (early : 2 * index + first < 2 ^ 16) : Mild (2 ^ 58 + 2 ^ 32 : ℕ) (circularValue r first index) := by
  refine (mild_circularValue mild first index).mono ?_
  have bound : ((2 * index + first : ℕ) : ℝ) ≤ 2 ^ 16 := by exact_mod_cast early.le
  push_cast at *
  nlinarith [(first.cast_nonneg : (0 : ℝ) ≤ first), (index.cast_nonneg : (0 : ℝ) ≤ index)]

/-- The roundings of a term add up to little while the counter is small. -/
theorem roundings_le (precise : 13 ≤ work) (early : index ≤ 2 ^ 15) :
    5 * (index : ℝ) * grain (min work 100) ≤ 1 / 2 := by
  have unit := grain_pos (min work 100)
  have tiny : grain (min work 100) ≤ 1 / 10 ^ 12 := grain_le_pow (by omega)
  have bound : (index : ℝ) ≤ 2 ^ 15 := by exact_mod_cast early
  calc 5 * (index : ℝ) * grain (min work 100)
    _ ≤ 5 * 2 ^ 15 * (1 / 10 ^ 12) := by gcongr
    _ ≤ 1 / 2 := by norm_num

/-- The next term and its exponent, while the counter is small. -/
theorem circularTerm_eq (square : Decimal) (work : ℕ) {state : Decimal × UInt32}
    (counted : state.2.toNat = 2 * index + first) (early : 2 * index + first + 2 < 2 ^ 16) :
    (circularTerm square work state).1.2.toNat = 2 * (index + 1) + first ∧
      (circularTerm square work state).1.1 = (circularTerm square work state).2 ∧
      (circularTerm square work state).2 = ((state.1.multiply square).negated.divide
        (ofNat ((2 * index + first + 1) * (2 * index + first + 2)))).withDigits work := by
  have next : (state.2 + 2).toNat = 2 * (index + 1) + first := by
    rw [toNat_add_two (by omega), counted]
    ring
  have divisor : ((state.2 + 1) * (state.2 + 2)).toNat =
      (2 * index + first + 1) * (2 * index + first + 2) := by
    rw [toNat_divisor (by omega), counted]
  refine ⟨next, rfl, ?_⟩
  rw [← divisor]
  rfl

/-- The next term is close to that of the series. -/
theorem close_circularTerm (angle : Angle r first work start square) (precise : 13 ≤ work)
    (few : work ≤ 2 ^ 16) (run : CircularRun r first work index state sum)
    (early : 2 * index + first + 2 < 2 ^ 16) :
    Close (5 * (index + 1 : ℕ) * grain (min work 100)) (circularTerm square work state).2.real
        (circularValue r first (index + 1)) ∧
      |(circularTerm square work state).2.scale.toInt| ≤ 2 ^ 60 := by
  have close := run.close
  have coarse : grain work ≤ grain (min work 100) := grain_le (min_le_left work 100)
  have fine := grain_pos (min work 100)
  have roundings : 5 * ((index + 1 : ℕ) : ℝ) * grain (min work 100) ≤ 1 / 2 :=
    roundings_le precise (by omega)
  obtain ⟨product, productScale⟩ := real_multiply (x := state.1) (y := square)
    ((add_le_add run.scale_le angle.scale_square_le).trans_lt (by norm_num))
  replace productScale := productScale.trans (add_le_add run.scale_le angle.scale_square_le)
  change |(state.1.multiply square).negated.scale.toInt| ≤ _ at productScale
  have following := circularValue_succ r first index
  have limited := Nat.mul_lt_mul'' (show 2 * index + first + 1 < 2 ^ 16 by omega) early
  have positive : 0 < (2 * index + first + 1) * (2 * index + first + 2) := by positivity
  rw [(circularTerm_eq square work run.counted early).2.2]
  generalize (2 * index + first + 1) * (2 * index + first + 2) = number at *
  have quotient : Close ((5 * index + 2) * grain (min work 100))
      ((state.1.multiply square).negated.real / (ofNat number).real)
      (circularValue r first (index + 1)) := by
    rw [real_negated, product, following, real_ofNat]
    refine ((close.mul angle.close_square).neg.div (Close.refl (number : ℝ))).mono ?_
    linarith
  have sized : Mild (2 ^ 58 + 2 ^ 32 + 1 : ℕ)
      ((state.1.multiply square).negated.real / (ofNat number).real) := by
    refine ((mild_circularValue_of_early angle.mild (by omega)).of_close quotient).mono ?_
    push_cast at roundings ⊢
    linarith
  have digits : (ofNat number).digits ≤ 10 := digits_ofNat_le positive (limited.trans (by norm_num))
  have plain : (ofNat number).scale.toInt = 0 := rfl
  have hundred : quotientDigits = 100 := rfl
  obtain ⟨rounded, position⟩ := close_divide_withDigits_min sized
    (Int.natCast_ne_zero.mpr positive.ne') (by rw [plain, abs_zero]; omega) (by omega : 2 ≤ work)
    (by omega)
  refine ⟨(rounded.trans quotient).mono ?_, position.trans (by push_cast; omega)⟩
  push_cast
  linarith

/-- The summation starts with the first term. -/
theorem circularRun_start (angle : Angle r first work start square) {counter : UInt32}
    (counted : counter.toNat = first) : CircularRun r first work 0 (start, counter) start where
  counted := by rw [counted]; omega
  close := by
    rw [angle.real_start]
    simpa using Close.refl _
  scale_le := angle.scale_le
  near := by
    rw [angle.real_start, circularSum, sum_range_one, sub_self, abs_zero, sum_range_one]
    have unit := grain_pos (min work 100)
    positivity
  scale_sum_le := angle.scale_le

/-- The powers of four are ahead of the error bounds of the terms. -/
theorem ten_mul_le (index : ℕ) : 10 * (index + 1) ≤ 6 * 4 ^ (index + 1) := by
  induction index with
  | zero => norm_num
  | succ index inductionHypothesis =>
    rw [pow_succ]
    omega

/-- Every term keeps what holds of the summation. -/
theorem circularRun_step (angle : Angle r first work start square) (precise : 13 ≤ work)
    (few : work ≤ 2 ^ 16) (run : CircularRun r first work index state sum)
    (early : 2 * index + first + 2 < 2 ^ 16) :
    CircularRun r first work (index + 1) (circularTerm square work state).1
      (sum.add (circularTerm square work state).2) := by
  obtain ⟨counted, same, -⟩ := circularTerm_eq square work run.counted early
  obtain ⟨close, scale⟩ := close_circularTerm angle precise few run early
  have fine := grain_pos (min work 100)
  refine ⟨counted, same ▸ close, same ▸ scale, ?_, abs_scale_add_le run.scale_sum_le scale⟩
  generalize circularTerm square work state = next at *
  have moved := close.abs_sub_le ((roundings_le precise (by omega)).trans (by norm_num))
  have ahead : (10 * (index + 1 : ℕ) : ℝ) ≤ 6 * 4 ^ (index + 1) := by exact_mod_cast ten_mul_le index
  rw [sum_range_succ, mul_add]
  calc |(sum.add next.2).real - circularSum r first (index + 1 + 1)|
    _ = |(sum.real - circularSum r first (index + 1)) +
        (next.2.real - circularValue r first (index + 1))| := by
      rw [real_add, circularSum, sum_range_succ, ← circularSum]
      congr 1
      ring
    _ ≤ _ + 10 * (index + 1 : ℕ) * grain (min work 100) * |circularValue r first (index + 1)| := by
      refine (abs_add_le _ _).trans (add_le_add run.near (moved.trans (le_of_eq ?_)))
      ring
    _ ≤ _ + 6 * grain (min work 100) * (4 ^ (index + 1) * |circularValue r first (index + 1)|) := by
      refine add_le_add le_rfl ?_
      calc 10 * ((index + 1 : ℕ) : ℝ) * grain (min work 100) * |circularValue r first (index + 1)|
        _ ≤ 6 * 4 ^ (index + 1) * grain (min work 100) * |circularValue r first (index + 1)| := by
          gcongr
        _ = _ := by ring

/-- The sum of the first terms is known to the units in which its terms are, and is no more than a
multiple of the first term. -/
theorem circularRun_bounds (angle : Angle r first work start square) (precise : 13 ≤ work)
    (run : CircularRun r first work index state sum) :
    |sum.real - circularSum r first (index + 1)| ≤
        6600 * grain (min work 100) * |circularValue r first 0| ∧
      |sum.real| ≤ 1101 * |circularValue r first 0| := by
  have fine := grain_pos (min work 100)
  have tiny : grain (min work 100) ≤ 1 / 10 ^ 12 := grain_le_pow (by omega)
  have terms := sum_four_pow_le angle.small first (index + 1)
  have near : |sum.real - circularSum r first (index + 1)| ≤
      6600 * grain (min work 100) * |circularValue r first 0| := by
    calc |sum.real - circularSum r first (index + 1)|
      _ ≤ _ := run.near
      _ ≤ 6 * grain (min work 100) * (1100 * |circularValue r first 0|) := by gcongr
      _ = 6600 * grain (min work 100) * |circularValue r first 0| := by ring
  have whole : |circularSum r first (index + 1)| ≤ 1100 * |circularValue r first 0| := by
    refine (abs_sum_le_sum_abs _ _).trans ((sum_le_sum fun i _ => ?_).trans terms)
    exact le_mul_of_one_le_left (abs_nonneg _) (one_le_pow₀ (by norm_num))
  refine ⟨near, ?_⟩
  have split := abs_sub_abs_le_abs_sub sum.real (circularSum r first (index + 1))
  nlinarith [abs_nonneg (circularValue r first 0)]

/-- The first term is one or the angle. -/
theorem abs_circularValue_zero_le (small : |r| ≤ 63 / 20) (first_le : first ≤ 1) :
    |circularValue r first 0| ≤ 63 / 20 := by
  rw [abs_circularValue]
  interval_cases first
  · norm_num
  · simpa using small

/-- The next term and a sum that is not zero have room in a machine word. -/
theorem circularRun_room (angle : Angle r first work start square) (precise : 13 ≤ work)
    (few : work ≤ 2 ^ 16) (run : CircularRun r first work index state sum)
    (early : 2 * index + first + 2 < 2 ^ 16) :
    (circularTerm square work state).2.mantissa ≠ 0 ∧
      |(circularTerm square work state).2.place| ≤ 2 ^ 60 ∧
      (sum.mantissa ≠ 0 → |sum.place| ≤ 2 ^ 60) := by
  obtain ⟨close, -⟩ := close_circularTerm angle precise few run early
  have tiny : grain (min work 100) ≤ 1 / 10 ^ 12 := grain_le_pow (by omega)
  have roundings : 5 * ((index + 1 : ℕ) : ℝ) * grain (min work 100) ≤ 1 / 2 :=
    roundings_le precise (by omega)
  have sized : Mild (2 ^ 58 + 2 ^ 32 + 1 : ℕ) (circularTerm square work state).2.real := by
    refine ((mild_circularValue_of_early angle.mild (by omega)).of_close close).mono ?_
    push_cast at roundings ⊢
    linarith
  refine ⟨(real_eq_zero_iff _).not.mp sized.1, (abs_place_le sized).trans (by norm_num), ?_⟩
  intro nonzero
  obtain ⟨-, below⟩ := circularRun_bounds angle precise run
  have start := abs_circularValue_zero_le angle.small angle.first_le
  have upper : sum.place ≤ 4 := place_le_of_abs_lt nonzero (by norm_num; linarith)
  have written := sum.one_le_digits
  have scale := (abs_le.mp run.scale_sum_le).2
  refine abs_le.mpr ⟨?_, by omega⟩
  rw [Decimal.place]
  omega

/-- The number of terms after which the next one is negligible, by the number of digits. -/
def enoughTerms (work : ℕ) : ℕ := work / 2 + 60

/-- After enough terms the next one is far below the unit of the last digit of the first one. -/
theorem abs_circularValue_enough_le (small : |r| ≤ 63 / 20) (first work : ℕ) :
    |circularValue r first (enoughTerms work + 1)| ≤
      grain (work + 108) * |circularValue r first 0| := by
  have bound := abs_circularValue_le small first (enoughTerms work + 1)
  have power : (10 : ℝ) ^ (work + 121) ≤ 100 ^ (enoughTerms work + 1) := by
    rw [show (100 : ℝ) = 10 ^ 2 by norm_num, ← pow_mul]
    refine pow_le_pow_right₀ (by norm_num) ?_
    unfold enoughTerms
    omega
  have unit : grain (work + 108) * 10 ^ (work + 121) = 10 ^ 14 := by
    rw [grain, ← zpow_natCast, ← zpow_natCast, ← zpow_add₀ (by norm_num)]
    refine congrArg (fun exponent : ℤ => (10 : ℝ) ^ exponent) ?_
    push_cast
    ring
  refine le_of_mul_le_mul_right ?_ (show (0 : ℝ) < 10 ^ (work + 121) by positivity)
  calc |circularValue r first (enoughTerms work + 1)| * 10 ^ (work + 121)
    _ ≤ |circularValue r first (enoughTerms work + 1)| * 100 ^ (enoughTerms work + 1) :=
      mul_le_mul_of_nonneg_left power (abs_nonneg _)
    _ ≤ 10 ^ 14 * |circularValue r first 0| := bound
    _ = grain (work + 108) * |circularValue r first 0| * 10 ^ (work + 121) := by
      rw [← unit]
      ring

/-- After enough terms the sum stands out from the roundings of the terms, if the value does. -/
theorem circularRun_apart (angle : Angle r first work start square)
    (total : HasSum (circularValue r first) value) (precise : 13 ≤ work)
    (apart : 10 ^ 4 * grain (min work 100) * |circularValue r first 0| ≤ |value|)
    (run : CircularRun r first work (enoughTerms work) state sum) :
    3000 * grain (min work 100) * |circularValue r first 0| ≤ |sum.real| := by
  obtain ⟨near, -⟩ := circularRun_bounds angle precise run
  have rest := abs_sub_circularSum_le angle.small total (enoughTerms work + 1)
  have next := abs_circularValue_enough_le angle.small first work
  have coarse : grain work ≤ grain (min work 100) := grain_le (min_le_left work 100)
  have unit := grain_pos work
  have first_nonneg := abs_nonneg (circularValue r first 0)
  have left : grain (work + 108) * |circularValue r first 0| ≤
      grain (min work 100) * |circularValue r first 0| := by
    rw [grain_add]
    gcongr
    linarith
  have split := abs_sub_abs_le_abs_sub value (circularSum r first (enoughTerms work + 1))
  have splitToo := abs_sub_abs_le_abs_sub (circularSum r first (enoughTerms work + 1)) sum.real
  rw [abs_sub_comm (circularSum r first (enoughTerms work + 1))] at splitToo
  have scaled := mul_nonneg (unit.le.trans coarse) first_nonneg
  linarith

/-- After enough terms the next one is negligible, if the value stands out from the roundings. -/
theorem circularRun_last (angle : Angle r first work start square)
    (total : HasSum (circularValue r first) value) (precise : 13 ≤ work) (few : work ≤ 65000)
    (apart : 10 ^ 4 * grain (min work 100) * |circularValue r first 0| ≤ |value|)
    (run : CircularRun r first work (enoughTerms work) state sum) :
    isNegligible (circularTerm square work state).2 sum work = true := by
  have first_le := angle.first_le
  have early : 2 * enoughTerms work + first + 2 < 2 ^ 16 := by
    unfold enoughTerms
    omega
  obtain ⟨nonzero, place, placeToo⟩ := circularRun_room angle precise (by omega) run early
  obtain ⟨close, -⟩ := close_circularTerm angle precise (by omega) run early
  have whole := circularRun_apart angle total precise apart run
  have next := abs_circularValue_enough_le angle.small first work
  have present : 0 < |circularValue r first 0| :=
    abs_pos.mpr (mild_circularValue_of_early angle.mild (by omega)).1
  have unit := grain_pos work
  have fine := grain_pos (min work 100)
  have hundredth : 1 / 10 ^ 99 ≤ grain (min work 100) := by
    refine le_trans ?_ (grain_le (min_le_right work 100))
    norm_num [grain]
  have nonzeroSum : sum.mantissa ≠ 0 :=
    (real_eq_zero_iff _).not.mp (abs_pos.mp (lt_of_lt_of_le (by positivity) whole))
  refine isNegligible_of_abs_le nonzero nonzeroSum place (placeToo nonzeroSum) (by omega) ?_
  calc |(circularTerm square work state).2.real|
    _ ≤ 2 * |circularValue r first (enoughTerms work + 1)| :=
      close.abs_le (roundings_le precise (by omega))
    _ ≤ 2 * (grain work / 10 ^ 108 * |circularValue r first 0|) := by
      rw [← grain_add]
      gcongr
    _ ≤ grain work / 10 ^ 4 * (3000 * (1 / 10 ^ 99) * |circularValue r first 0|) := by
      have product := mul_pos unit present
      linarith
    _ ≤ grain work / 10 ^ 4 * (3000 * grain (min work 100) * |circularValue r first 0|) := by gcongr
    _ ≤ grain (work + 4) * |sum.real| := by
      rw [grain_add]
      gcongr

/-- The summation ends after enough terms with a sum near the value, if the value stands out from the
roundings of the terms. -/
theorem circularSum_ends (angle : Angle r first work start square)
    (total : HasSum (circularValue r first) value) (precise : 13 ≤ work) (few : work ≤ 65000)
    (apart : 10 ^ 4 * grain (min work 100) * |circularValue r first 0| ≤ |value|)
    (counter : UInt32) (counted : counter.toNat = first) :
    ∃ result : Decimal,
      |result.real - value| ≤ 8000 * grain (min work 100) * |circularValue r first 0| ∧
      ∀ limit, enoughTerms work < limit →
        sumSeries (circularTerm square work) work limit (start, counter) start = result := by
  have first_le := angle.first_le
  have room : 2 * enoughTerms work + first + 2 < 2 ^ 16 := by
    unfold enoughTerms
    omega
  obtain ⟨index, within, state, result, run, ended, equal⟩ := sumSeries_ends
    (circularTerm square work) work (CircularRun r first work) (enoughTerms work)
    (fun early run _ => circularRun_step angle precise (by omega) run (by omega))
    (fun run => circularRun_last angle total precise few apart run)
    (circularRun_start angle counted)
  refine ⟨result, ?_, equal⟩
  have early : 2 * index + first + 2 < 2 ^ 16 := by omega
  obtain ⟨nonzero, place, placeToo⟩ := circularRun_room angle precise (by omega) run early
  obtain ⟨close, -⟩ := close_circularTerm angle precise (by omega) run early
  obtain ⟨near, limited⟩ := circularRun_bounds angle precise run
  have rest := abs_sub_circularSum_le angle.small total (index + 1)
  have nonzeroSum : result.mantissa ≠ 0 := by
    intro zero
    have term : (circularTerm square work state).2.isZero = false := by simpa [isZero] using nonzero
    have sum : result.isZero = true := by simpa [isZero] using zero
    rw [isNegligible, term, sum] at ended
    exact Bool.false_ne_true ended
  have cut := abs_le_of_isNegligible nonzero nonzeroSum place (placeToo nonzeroSum) (by omega) ended
  have unit := grain_pos work
  have fine := grain_pos (min work 100)
  have coarse : grain work ≤ grain (min work 100) := grain_le (min_le_left work 100)
  have next := close.symm.abs_le (roundings_le precise (by omega))
  have split := abs_sub_le result.real (circularSum r first (index + 1)) value
  rw [abs_sub_comm (circularSum r first (index + 1))] at split
  rw [grain_add] at cut
  have share : grain work / 10 ^ 2 * |result.real| ≤
      grain (min work 100) / 10 ^ 2 * (1101 * |circularValue r first 0|) := by gcongr
  have scaled := mul_nonneg fine.le (abs_nonneg (circularValue r first 0))
  linarith

end Summation

end Calculator.Decimal
