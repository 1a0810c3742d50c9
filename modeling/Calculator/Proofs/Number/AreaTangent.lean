import Calculator.Proofs.Number.Working
import Mathlib

/-!
# The logarithm near one

The logarithm of a number `n` near one is twice the area tangent of `(n - 1) / (n + 1)`, whose series
has the odd powers over their exponents for its terms. From one upward all terms have the same sign,
so the sum is as close as the terms are, also where the logarithm is small.
-/

namespace Calculator.Decimal

open Finset

variable {x y : Decimal}

/-! ## The series -/

/-- A term of the series: an odd power over its exponent. -/
noncomputable def oddTerm (z : ℝ) (index : ℕ) : ℝ := z ^ (2 * index + 1) / (2 * index + 1)

/-- The sum of the first terms. -/
noncomputable def oddSum (z : ℝ) (terms : ℕ) : ℝ := ∑ index ∈ range terms, oddTerm z index

section Series

variable {z : ℝ}

/-- The terms for a positive number are positive. -/
theorem oddTerm_pos (positive : 0 < z) (index : ℕ) : 0 < oddTerm z index := by
  rw [oddTerm]
  positivity

/-- The first term is the number itself. -/
theorem oddSum_one (z : ℝ) : oddSum z 1 = z := by
  rw [oddSum, sum_range_one, oddTerm]
  norm_num

/-- The sum of the first terms is at least the number. -/
theorem le_oddSum (positive : 0 < z) (terms : ℕ) : z ≤ oddSum z (terms + 1) := by
  calc z
    _ = oddSum z 1 := (oddSum_one z).symm
    _ ≤ oddSum z (terms + 1) :=
      sum_le_sum_of_subset_of_nonneg (range_subset_range.mpr (by omega))
        fun index _ _ => (oddTerm_pos positive index).le

/-- What the first terms lack to half of the logarithm is about the next term. -/
theorem log_bounds (positive : 0 < z) (small : z ≤ 1 / 20) (index : ℕ) :
    oddSum z (index + 1) ≤ 1 / 2 * Real.log ((1 + z) / (1 - z)) ∧
      1 / 2 * Real.log ((1 + z) / (1 - z)) ≤
        oddSum z (index + 1) + 2 * (2 * index + 3) * oddTerm z (index + 1) := by
  refine ⟨Real.sum_range_le_log_div positive.le (by linarith) (index + 1), ?_⟩
  refine (Real.log_div_le_sum_range_add positive.le (by linarith) (index + 1)).trans ?_
  refine add_le_add le_rfl ?_
  have denominator : 1 / 2 ≤ 1 - z ^ 2 := by nlinarith
  rw [oddTerm, div_le_iff₀ (by linarith)]
  have index_nonneg : (0 : ℝ) ≤ index := index.cast_nonneg
  have exponent : (2 * ((index + 1 : ℕ) : ℝ) + 1) = 2 * index + 3 := by
    push_cast
    ring
  rw [exponent, mul_assoc 2, mul_div_cancel₀ _ (by positivity)]
  have power : 0 < z ^ (2 * (index + 1) + 1) := by positivity
  nlinarith

/-- The sum of the first terms is close to half of the logarithm, if the next term is small. -/
theorem close_oddSum_log (positive : 0 < z) (small : z ≤ 1 / 20) {index : ℕ} (within : index ≤ 25)
    {bound : ℝ} (nonneg : 0 ≤ bound) (tiny : bound ≤ 1 / 100)
    (next : oddTerm z (index + 1) ≤ 1 / 25 * bound * oddSum z (index + 1)) :
    Close (10 * bound) (oddSum z (index + 1)) (1 / 2 * Real.log ((1 + z) / (1 - z))) := by
  have within' : (index : ℝ) ≤ 25 := by exact_mod_cast within
  have terms := oddTerm_pos positive (index + 1)
  have whole := positive.trans_le (le_oddSum positive index)
  obtain ⟨lower, upper⟩ := log_bounds positive small index
  have rest : 2 * (2 * index + 3) * oddTerm z (index + 1) ≤
      5 * bound * (1 / 2 * Real.log ((1 + z) / (1 - z))) := by
    calc 2 * (2 * index + 3) * oddTerm z (index + 1)
      _ ≤ 106 * (1 / 25 * bound * oddSum z (index + 1)) := by
        gcongr
        linarith
      _ ≤ 5 * bound * oddSum z (index + 1) := by nlinarith
      _ ≤ 5 * bound * (1 / 2 * Real.log ((1 + z) / (1 - z))) := by gcongr
  refine (close_of_abs_sub_le (s := 5 * bound) (by linarith) (by linarith) ?_).mono (by linarith)
  rw [abs_of_pos (whole.trans_le lower)]
  exact abs_le.mpr ⟨by linarith, by linarith⟩

end Series

/-! ## The summation -/

/-- What holds after so many terms of the summation, with so many digits, for a number. -/
structure OddRun (z : ℝ) (work index : ℕ) (state : Decimal × UInt32) (sum : Decimal) : Prop where
  counted : state.2.toNat = 2 * index + 1
  close : Close ((10 * index + 3) * grain work) state.1.real (z ^ (2 * index + 1))
  scale_le : |state.1.scale.toInt| ≤ 2 ^ 59
  near : Close ((10 * index + 6) * grain work) sum.real (oddSum z (index + 1))
  scale_sum_le : |sum.scale.toInt| ≤ 2 ^ 59

/-- A number between zero and a twentieth to which the summation applies, and its square, both of them
computed to so many digits. -/
structure Prepared (z : ℝ) (work : ℕ) (start square : Decimal) : Prop where
  positive : 0 < z
  small : z ≤ 1 / 20
  mild : Mild (2 ^ 53 : ℕ) z
  close : Close (3 * grain work) start.real z
  scale_le : |start.scale.toInt| ≤ 2 ^ 59
  close_square : Close (8 * grain work) square.real (z ^ 2)
  scale_square_le : |square.scale.toInt| ≤ 2 ^ 59

/-- The size of an odd power. -/
theorem mild_odd_power {z : ℝ} (mild : Mild (2 ^ 53 : ℕ) z) {index : ℕ} (early : index ≤ 27) :
    Mild (55 * 2 ^ 53) (z ^ (2 * index + 1)) := by
  have early' : (index : ℝ) ≤ 27 := by exact_mod_cast early
  refine (mild.pow _).mono ?_
  push_cast
  linarith

/-- The size of a term. -/
theorem mild_oddTerm {z : ℝ} (mild : Mild (2 ^ 53 : ℕ) z) {index : ℕ} (early : index ≤ 27) :
    Mild (55 * 2 ^ 53 + 55) (oddTerm z index) := by
  have early' : (index : ℝ) ≤ 27 := by exact_mod_cast early
  have exponent : ((2 * index + 1 : ℕ) : ℝ) = 2 * index + 1 := by push_cast; rfl
  have divided := (mild_odd_power mild early).div (mild_natCast (show 0 < 2 * index + 1 by omega))
  rw [exponent] at divided
  exact divided.mono (by linarith)

section Summation

variable {z : ℝ} {work index : ℕ} {start square sum : Decimal} {state : Decimal × UInt32}

/-- The next power is close to that of the series. -/
theorem close_nextPower (prepared : Prepared z work start square) (precise : 20 ≤ work)
    (few : work ≤ 60) (run : OddRun z work index state sum) (early : index ≤ 26) :
    Close ((10 * (index + 1 : ℕ) + 3) * grain work) (oddPowerTerm square work state).1.1.real
        (z ^ (2 * (index + 1) + 1)) ∧
      |(oddPowerTerm square work state).1.1.scale.toInt| ≤ 2 ^ 59 := by
  have fine := grain_pos work
  have tiny := grain_le_pow (show 19 < work by omega)
  have early' : (index : ℝ) ≤ 26 := by exact_mod_cast early
  have scale := run.scale_le
  have scaleSquare := prepared.scale_square_le
  have product : Close ((10 * index + 11) * grain work) (state.1.real * square.real)
      (z ^ (2 * (index + 1) + 1)) := by
    have split : z ^ (2 * (index + 1) + 1) = z ^ (2 * index + 1) * z ^ 2 := by ring
    rw [split]
    exact (run.close.mul prepared.close_square).mono (by linarith)
  have sized : Mild (56 * 2 ^ 53 : ℕ) (state.1.real * square.real) := by
    refine ((mild_odd_power prepared.mild (by omega)).of_close product).mono ?_
    push_cast
    nlinarith
  obtain ⟨rounded, bound⟩ := close_multiply_withDigits sized (by omega) (show 2 ≤ work by omega)
    (by omega)
  refine ⟨(rounded.trans product).mono ?_, bound.trans (by push_cast; omega)⟩
  push_cast
  linarith

/-- The exponent of the next power is the next odd number. -/
theorem exponent_nextPower (run : OddRun z work index state sum) (early : index ≤ 26) :
    (oddPowerTerm square work state).1.2.toNat = 2 * (index + 1) + 1 := by
  change (state.2 + 2).toNat = _
  rw [UInt32.toNat_add, run.counted]
  exact Nat.mod_eq_of_lt (by change 2 * index + 1 + 2 < 2 ^ 32; omega)

/-- The next term is close to that of the series. -/
theorem close_nextTerm (prepared : Prepared z work start square) (precise : 20 ≤ work)
    (few : work ≤ 60) (run : OddRun z work index state sum) (early : index ≤ 26) :
    Close ((10 * (index + 1 : ℕ) + 6) * grain work) (oddPowerTerm square work state).2.real
        (oddTerm z (index + 1)) ∧
      |(oddPowerTerm square work state).2.scale.toInt| ≤ 2 ^ 59 := by
  obtain ⟨following, bound⟩ := close_nextPower prepared precise few run early
  have fine := grain_pos work
  have tiny := grain_le_pow (show 19 < work by omega)
  have early' : (index : ℝ) ≤ 26 := by exact_mod_cast early
  have counted : (oddPowerTerm square work state).1.2.toNat = 2 * (index + 1) + 1 :=
    exponent_nextPower run early
  have form : (oddPowerTerm square work state).2 =
      ((oddPowerTerm square work state).1.1.divide (ofNat (2 * (index + 1) + 1))).withDigits work := by
    rw [← counted]
    rfl
  rw [form]
  generalize (oddPowerTerm square work state).1.1 = power at *
  have exponent : ((2 * (index + 1) + 1 : ℕ) : ℝ) = 2 * ((index + 1 : ℕ) : ℝ) + 1 := by
    push_cast
    rfl
  have quotient : Close ((10 * (index + 1 : ℕ) + 3) * grain work)
      (power.real / (2 * (index + 1) + 1 : ℕ)) (oddTerm z (index + 1)) := by
    rw [oddTerm, ← exponent]
    exact (following.div (Close.refl _)).mono (add_zero _).le
  have sized : Mild (57 * 2 ^ 53 : ℕ) (power.real / (2 * (index + 1) + 1 : ℕ)) := by
    refine ((mild_oddTerm prepared.mild (by omega)).of_close quotient).mono ?_
    push_cast
    nlinarith
  obtain ⟨rounded, position⟩ := close_divide_ofNat_withDigits sized (by omega) (by omega)
    (by omega) (show 2 ≤ work by omega) (by omega) (by omega)
  refine ⟨(rounded.trans quotient).mono ?_, position.trans (by push_cast; omega)⟩
  linarith

/-- The summation starts with the number itself. -/
theorem oddRun_start (prepared : Prepared z work start square) :
    OddRun z work 0 (start, 1) start where
  counted := rfl
  close := by simpa using prepared.close
  scale_le := prepared.scale_le
  near := by
    rw [oddSum_one]
    refine prepared.close.mono ?_
    push_cast
    linarith [grain_pos work]
  scale_sum_le := prepared.scale_le

/-- Every term keeps what holds of the summation. -/
theorem oddRun_step (prepared : Prepared z work start square) (precise : 20 ≤ work)
    (few : work ≤ 60) (run : OddRun z work index state sum) (early : index ≤ 26) :
    OddRun z work (index + 1) (oddPowerTerm square work state).1
      (sum.add (oddPowerTerm square work state).2) := by
  obtain ⟨power, scale⟩ := close_nextPower prepared precise few run early
  obtain ⟨term, scaleToo⟩ := close_nextTerm prepared precise few run early
  refine ⟨exponent_nextPower run early, power, scale, ?_,
    abs_scale_add_le run.scale_sum_le scaleToo⟩
  have fine := grain_pos work
  have positive := prepared.positive
  have split : oddSum z (index + 1 + 1) = oddSum z (index + 1) + oddTerm z (index + 1) := by
    rw [oddSum, sum_range_succ, ← oddSum]
  rw [real_add, split]
  refine (run.near.mono ?_).add term (positive.le.trans (le_oddSum positive index))
    (oddTerm_pos positive (index + 1)).le
  push_cast
  linarith

/-- The sums of the first terms are between the number and one. -/
theorem mild_oddSum (prepared : Prepared z work start square) (index : ℕ) :
    Mild (2 ^ 53 : ℕ) (oddSum z (index + 1)) := by
  have positive := prepared.positive
  have small := prepared.small
  have above := le_oddSum positive index
  have one : (0 : ℝ) < 1 - z := by linarith
  have ratio : 0 < (1 + z) / (1 - z) := div_pos (by linarith) one
  have below : oddSum z (index + 1) ≤ 1 := by
    have logarithm := Real.log_le_sub_one_of_pos ratio
    have bound : (1 + z) / (1 - z) ≤ 2 := by
      rw [div_le_iff₀ one]
      linarith
    linarith [(log_bounds positive small index).1]
  have low := Real.log_le_log positive above
  have high := Real.log_nonpos (positive.le.trans above) below
  obtain ⟨bound, -⟩ := abs_le.mp prepared.mild.2
  have room := Nat.cast_nonneg (α := ℝ) (2 ^ 53)
  exact ⟨(positive.trans_le above).ne', abs_le.mpr ⟨by linarith, by linarith⟩⟩

/-- The next term and the sum have room in a machine word. -/
theorem oddRun_room (prepared : Prepared z work start square) (precise : 20 ≤ work)
    (few : work ≤ 60) (run : OddRun z work index state sum) (early : index ≤ 26) :
    (oddPowerTerm square work state).2.mantissa ≠ 0 ∧ sum.mantissa ≠ 0 ∧
      |(oddPowerTerm square work state).2.place| ≤ 2 ^ 60 ∧ |sum.place| ≤ 2 ^ 60 := by
  obtain ⟨term, -⟩ := close_nextTerm prepared precise few run early
  have fine := grain_pos work
  have tiny := grain_le_pow (show 19 < work by omega)
  have early' : (index : ℝ) ≤ 26 := by exact_mod_cast early
  have sized : Mild (57 * 2 ^ 53 : ℕ) (oddPowerTerm square work state).2.real := by
    refine ((mild_oddTerm prepared.mild (by omega)).of_close term).mono ?_
    push_cast
    nlinarith
  have sizedToo : Mild (2 ^ 53 + 1 : ℕ) sum.real := by
    refine ((mild_oddSum prepared index).of_close run.near).mono ?_
    push_cast
    nlinarith
  have place := abs_place_le sized
  have placeToo := abs_place_le sizedToo
  refine ⟨(real_eq_zero_iff _).not.mp sized.1, (real_eq_zero_iff _).not.mp sizedToo.1, ?_, ?_⟩
  · exact place.trans (by norm_num)
  · exact placeToo.trans (by norm_num)

/-- After twenty-five terms the next one is negligible. -/
theorem oddRun_last (prepared : Prepared z work start square) (precise : 20 ≤ work)
    (few : work ≤ 60) (run : OddRun z work 25 state sum) :
    isNegligible (oddPowerTerm square work state).2 sum work = true := by
  obtain ⟨nonzero, nonzeroToo, near, nearToo⟩ := oddRun_room prepared precise few run (by norm_num)
  obtain ⟨term, -⟩ := close_nextTerm prepared precise few run (by norm_num)
  refine isNegligible_of_abs_le nonzero nonzeroToo near nearToo (by omega) ?_
  have fine := grain_pos work
  have tiny := grain_le_pow (show 19 < work by omega)
  have positive := prepared.positive
  have unit : 1 / 10 ^ 63 ≤ grain (work + 4) := by
    refine le_trans ?_ (grain_le (by omega : work + 4 ≤ 64))
    norm_num [grain]
  have whole := run.near.symm.abs_le (by push_cast; nlinarith)
  rw [abs_of_pos (positive.trans_le (le_oddSum positive 25))] at whole
  have power : z ^ 52 ≤ (1 / 20) ^ 52 := pow_le_pow_left₀ positive.le prepared.small 52
  calc |(oddPowerTerm square work state).2.real|
    _ ≤ 2 * |oddTerm z 26| := term.abs_le (by push_cast; nlinarith)
    _ = 2 / 53 * z ^ 52 * z := by
      rw [abs_of_pos (oddTerm_pos positive 26), oddTerm]
      push_cast
      ring
    _ ≤ 2 / 53 * (1 / 20) ^ 52 * z := by gcongr
    _ ≤ 1 / 10 ^ 63 / 2 * z := by
      gcongr
      norm_num
    _ = 1 / 10 ^ 63 * (z / 2) := by ring
    _ ≤ grain (work + 4) * |sum.real| := by
      gcongr
      linarith [le_oddSum positive 25]

/-- The summation ends after no more than twenty-five terms, with a sum close to half of the
logarithm. -/
theorem close_oddSum (prepared : Prepared z work start square) (precise : 20 ≤ work)
    (few : work ≤ 60) :
    ∃ total : Decimal,
      Close (266 * grain work) total.real (1 / 2 * Real.log ((1 + z) / (1 - z))) ∧
      |total.scale.toInt| ≤ 2 ^ 59 ∧
      ∀ limit, 25 < limit → sumSeries (oddPowerTerm square work) work limit (start, 1) start = total := by
  obtain ⟨index, within, state, total, run, ended, equal⟩ := sumSeries_ends
    (oddPowerTerm square work) work (OddRun z work) 25
    (fun early run _ => oddRun_step prepared precise few run (by omega))
    (fun run => oddRun_last prepared precise few run) (oddRun_start prepared)
  refine ⟨total, ?_, run.scale_sum_le, equal⟩
  obtain ⟨nonzero, nonzeroToo, near, nearToo⟩ := oddRun_room prepared precise few run (by omega)
  obtain ⟨term, -⟩ := close_nextTerm prepared precise few run (by omega)
  have fine := grain_pos work
  have tiny := grain_le_pow (show 19 < work by omega)
  have within' : (index : ℝ) ≤ 25 := by exact_mod_cast within
  have positive := prepared.positive
  have whole := positive.trans_le (le_oddSum positive index)
  -- The terms that are cut off are about the negligible one.
  have cut := abs_le_of_isNegligible nonzero nonzeroToo near nearToo (by omega) ended
  have next := term.symm.abs_le (by push_cast; nlinarith)
  have total_le := run.near.abs_le (by nlinarith)
  rw [grain_add] at cut
  rw [abs_of_pos (oddTerm_pos positive (index + 1))] at next
  rw [abs_of_pos whole] at total_le
  have small : oddTerm z (index + 1) ≤ 1 / 25 * grain work * oddSum z (index + 1) := by
    have scaled : grain work / 10 ^ 2 * |total.real| ≤
        grain work / 10 ^ 2 * (2 * oddSum z (index + 1)) := by gcongr
    linarith
  refine (run.near.trans
    (close_oddSum_log positive prepared.small within fine.le (by linarith) small)).mono ?_
  nlinarith

end Summation

/-! ## The logarithm -/

/-- The term that follows a power of zero is zero. -/
theorem isZero_oddPowerTerm {start : Decimal} (zero : start.mantissa = 0) (square : Decimal)
    (exponent : UInt32) {work : ℕ} (counted : 0 < work) :
    (oddPowerTerm square work (start, exponent)).2.isZero = true := by
  have power : ((start.multiply square).withDigits work).mantissa = 0 :=
    mantissa_withDigits_of_zero (mantissa_multiply_of_zero zero square) counted
  rw [oddPowerTerm]
  simpa [isZero, divide_of_zero power] using mantissa_withDigits_of_zero power counted

/-- A series that starts with zero adds nothing. -/
theorem ends_of_zero {start : Decimal} (zero : start.mantissa = 0) (square : Decimal) {work : ℕ}
    (counted : 0 < work) :
    Ends (counts (oddPowerTerm square work) work) (addNext (oddPowerTerm square work))
      ((start, 1), start) 0 ((start, 1), start) := by
  refine .done ?_
  rw [counts, isNegligible, isZero_oddPowerTerm zero square 1 counted, Bool.true_or, Bool.not_true]

/-- The size of the quotient of which a number near one is twice the area tangent. -/
theorem mild_ratio {m : Decimal} (above : 1 < m.real) (below : m.real ≤ 11 / 10)
    (scale : |m.scale.toInt| ≤ 2 ^ 51) : Mild (2 ^ 53 : ℕ) ((m.real - 1) / (m.real + 1)) := by
  have top : (m.subtract one).real = m.real - 1 := by rw [real_subtract, real_one]
  have scaleTop : |(m.subtract one).scale.toInt| ≤ 2 ^ 51 := abs_scale_add_le scale (by decide)
  have mildTop : Mild (3 * (2 ^ 51 : ℕ)) (m.real - 1) := by
    rw [← top]
    exact mild_of_scale (by rw [top]; linarith) (by rw [top, abs_of_pos (by linarith)]; linarith)
      (by push_cast; exact (le_abs_self _).trans scaleTop)
  have mildBottom : Mild 2 (m.real + 1) := by
    refine ⟨by linarith, ?_⟩
    rw [abs_of_nonneg (Real.log_nonneg (by linarith))]
    linarith [Real.log_le_sub_one_of_pos (show 0 < m.real + 1 by linarith)]
  exact (mildTop.div mildBottom).mono (by push_cast; norm_num)

/-- The quotient of which a number near one is twice the area tangent, computed to so many digits. -/
theorem close_ratio {m : Decimal} {work : ℕ} (above : 1 < m.real) (below : m.real ≤ 11 / 10)
    (scale : |m.scale.toInt| ≤ 2 ^ 51) (precise : 2 ≤ work) (few : work ≤ 2 ^ 50) :
    Close (3 * grain (min work 100)) (((m.subtract one).divide (m.add one)).withDigits work).real
        ((m.real - 1) / (m.real + 1)) ∧
      |(((m.subtract one).divide (m.add one)).withDigits work).scale.toInt| ≤ 2 ^ 53 + work + 2 := by
  have top : (m.subtract one).real = m.real - 1 := by rw [real_subtract, real_one]
  have bottom : (m.add one).real = m.real + 1 := by rw [real_add, real_one]
  have scaleTop : |(m.subtract one).scale.toInt| ≤ 2 ^ 51 := abs_scale_add_le scale (by decide)
  have scaleBottom : |(m.add one).scale.toInt| ≤ 2 ^ 51 := abs_scale_add_le scale (by decide)
  have present : (m.add one).mantissa ≠ 0 := (real_eq_zero_iff _).not.mp (by rw [bottom]; linarith)
  have short : (m.add one).place ≤ 1 := by
    refine place_le_of_abs_lt present ?_
    rw [bottom, abs_of_pos (by linarith)]
    norm_num
    linarith
  have mild := mild_ratio above below scale
  have hundred : quotientDigits = 100 := rfl
  have fits : |(m.subtract one).scale.toInt| + |(m.add one).scale.toInt| + (m.add one).digits +
      quotientDigits < 2 ^ 63 := by
    have bound := (abs_le.mp scaleBottom).2
    unfold place at short
    omega
  rw [← top, ← bottom] at mild ⊢
  obtain ⟨close, position⟩ := close_divide_withDigits_min mild present fits precise (by omega)
  exact ⟨close, position.trans (by push_cast; omega)⟩

/-- The quotient of which a number near one is twice the area tangent, as a decimal and squared. -/
theorem prepared_of_near {m z : Decimal} {work : ℕ} (above : 1 < m.real) (below : m.real ≤ 11 / 10)
    (scale : |m.scale.toInt| ≤ 2 ^ 51) (precise : 20 ≤ work) (few : work ≤ 60)
    (quotient : ((m.subtract one).divide (m.add one)).withDigits work = z) :
    Prepared ((m.real - 1) / (m.real + 1)) work z ((z.multiply z).withDigits work) := by
  have fine := grain_pos work
  have tiny := grain_le_pow (show 19 < work by omega)
  have positive : 0 < (m.real - 1) / (m.real + 1) := div_pos (by linarith) (by linarith)
  have small : (m.real - 1) / (m.real + 1) ≤ 1 / 20 := by
    rw [div_le_iff₀ (by linarith)]
    linarith
  have mild := mild_ratio above below scale
  obtain ⟨close, scaleQuotient⟩ := close_ratio above below scale (by omega : 2 ≤ work) (by omega)
  rw [min_eq_left (by omega), quotient] at close
  rw [quotient] at scaleQuotient
  have square : Close (6 * grain work) (z.real * z.real) (((m.real - 1) / (m.real + 1)) ^ 2) := by
    rw [pow_two]
    exact (close.mul close).mono (by linarith)
  have sized : Mild (2 ^ 55 : ℕ) (z.real * z.real) := by
    refine ((mild.pow 2).of_close square).mono ?_
    push_cast
    linarith
  obtain ⟨rounded, scaleSquare⟩ := close_multiply_withDigits sized (by push_cast at *; omega)
    (show 2 ≤ work by omega) (by omega)
  exact ⟨positive, small, mild, close, scaleQuotient.trans (by push_cast; omega),
    (rounded.trans square).mono (by linarith), scaleSquare.trans (by push_cast; omega)⟩

/-- The series gives zero for one. -/
theorem logarithmNearOne_of_one {m : Decimal} {work : ℕ} (single : m.real = 1)
    (scale : |m.scale.toInt| ≤ 2 ^ 51) (precise : 20 ≤ work) (few : work ≤ 60) :
    (logarithmNearOne m work).real = 0 ∧ |(logarithmNearOne m work).scale.toInt| ≤ 2 ^ 59 := by
  have plain : |(ofNat 2).scale.toInt| = 0 := rfl
  have zero : (m.subtract one).mantissa = 0 := by
    rw [← real_eq_zero_iff, real_subtract, real_one, single, sub_self]
  have scaleTop : |(m.subtract one).scale.toInt| ≤ 2 ^ 51 := abs_scale_add_le scale (by decide)
  obtain ⟨low, high⟩ := abs_le.mp scaleTop
  have start := mantissa_withDigits_of_zero zero (show 0 < work by omega)
  have written := digits_of_zero zero
  have position := toInt_scale_withDigits (x := m.subtract one) work (by omega) (by omega)
  have form : logarithmNearOne m work = ((m.subtract one).withDigits work).multiply (ofNat 2) := by
    rw [logarithmNearOne, divide_of_zero zero]
    exact congrArg (multiply · (ofNat 2))
      (sumSeries_of_ends (ends_of_zero start _ (by omega)) (Nat.zero_le _))
  have small : |((m.subtract one).withDigits work).scale.toInt| ≤ 2 ^ 52 :=
    abs_le.mpr ⟨by omega, by omega⟩
  have bound := (real_multiply (x := (m.subtract one).withDigits work) (y := ofNat 2)
    (by rw [plain]; omega)).2
  rw [form]
  exact ⟨(real_eq_zero_iff _).mpr (mantissa_multiply_of_zero start _), by rw [plain] at bound; omega⟩

/-- From one to a tenth more the series gives what is close to the logarithm. -/
theorem close_logarithmNearOne {m : Decimal} {work : ℕ} (above : 1 ≤ m.real)
    (below : m.real ≤ 11 / 10) (scale : |m.scale.toInt| ≤ 2 ^ 51) (precise : 20 ≤ work)
    (few : work ≤ 60) :
    Close (266 * grain work) (logarithmNearOne m work).real (Real.log m.real) ∧
      |(logarithmNearOne m work).scale.toInt| ≤ 2 ^ 59 := by
  rcases above.eq_or_lt with single | more
  · obtain ⟨zero, bound⟩ := logarithmNearOne_of_one single.symm scale precise few
    rw [zero, ← single, Real.log_one]
    exact ⟨(Close.refl 0).mono (by linarith [grain_pos work]), bound⟩
  have plain : |(ofNat 2).scale.toInt| = 0 := rfl
  have prepared := prepared_of_near more below scale precise few rfl
  obtain ⟨total, close, bound, equal⟩ := close_oddSum prepared precise few
  obtain ⟨doubled, position⟩ := real_multiply (x := total) (y := ofNat 2) (by rw [plain]; omega)
  have form : logarithmNearOne m work = total.multiply (ofNat 2) := by
    rw [← equal seriesTerms (by decide)]
    rfl
  have ratio : (1 + (m.real - 1) / (m.real + 1)) / (1 - (m.real - 1) / (m.real + 1)) = m.real := by
    have denominator : m.real + 1 ≠ 0 := by linarith
    field_simp
    ring
  rw [ratio] at close
  rw [form, doubled, real_ofNat]
  refine ⟨?_, by rw [plain] at position; omega⟩
  have twice := close.mul (Close.refl ((2 : ℕ) : ℝ))
  have whole : 1 / 2 * Real.log m.real * ((2 : ℕ) : ℝ) = Real.log m.real := by
    push_cast
    ring
  rw [whole] at twice
  exact twice.mono (add_zero _).le

end Calculator.Decimal
