import Calculator.Proofs.Number.Working
import Mathlib

/-!
# The exponential of decimals

The argument is halved until it is at most one half, the exponential series is summed at the working
precision, and the sum is squared as often as the argument was halved. Each squaring doubles the
relative error; the three tenths of a digit that the working precision gains for every halving are
enough for that, and the four digits beyond the result for the roundings of the terms.
-/

namespace Calculator.Decimal

open Finset

variable {x y : Decimal}

/-! ## The series -/

/-- A summand of the exponential series. -/
noncomputable def summand (r : ℝ) (index : ℕ) : ℝ := r ^ index / index.factorial

/-- The sum of the first summands. -/
noncomputable def partialSum (r : ℝ) (terms : ℕ) : ℝ := ∑ index ∈ range terms, summand r index

/-- Each summand is the last one times the argument over the index. -/
theorem summand_succ (r : ℝ) (index : ℕ) :
    summand r (index + 1) = summand r index * r / ((index + 1 : ℕ) : ℝ) := by
  rw [summand, summand, Nat.factorial_succ, pow_succ, Nat.cast_mul, div_mul_eq_mul_div, div_div,
    mul_comm ((index + 1 : ℕ) : ℝ)]

/-- For an argument of at most one half the summands shrink at least as its powers. -/
theorem abs_summand_le {r : ℝ} (small : |r| ≤ 1 / 2) (index : ℕ) :
    |summand r index| * index.factorial ≤ (1 / 2) ^ index := by
  have positive : (0 : ℝ) < index.factorial := Nat.cast_pos.mpr index.factorial_pos
  rw [summand, abs_div, abs_pow, Nat.abs_cast, div_mul_cancel₀ _ positive.ne']
  exact pow_le_pow_left₀ (abs_nonneg r) small index

/-- The size of a summand. -/
theorem mild_summand {size r : ℝ} (mild : Mild size r) (index : ℕ) :
    Mild (index * size + index * index) (summand r index) := by
  have one_le : (1 : ℝ) ≤ index.factorial := Nat.one_le_cast.mpr index.factorial_pos
  refine (mild.pow index).div ⟨by positivity, ?_⟩
  rw [abs_of_nonneg (Real.log_nonneg one_le)]
  calc Real.log index.factorial
    _ ≤ Real.log (index ^ index : ℕ) := by
      exact Real.log_le_log (by positivity) (Nat.cast_le.mpr index.factorial_le_pow)
    _ = index * Real.log index := by rw [Nat.cast_pow, Real.log_pow]
    _ ≤ index * index :=
      mul_le_mul_of_nonneg_left (Real.log_le_self index.cast_nonneg) index.cast_nonneg

/-- What the first summands lack to the exponential is no more than twice the next one. -/
theorem abs_exp_sub_partialSum_le {r : ℝ} (small : |r| ≤ 1 / 2) (index : ℕ) :
    |Real.exp r - partialSum r (index + 1)| ≤ 2 * |summand r (index + 1)| := by
  have bound := Real.exp_bound (small.trans (by norm_num : (1 / 2 : ℝ) ≤ 1)) (Nat.succ_pos index)
  refine bound.trans ?_
  have factorial : (0 : ℝ) < (index + 1).factorial := Nat.cast_pos.mpr (index + 1).factorial_pos
  have share : ((index + 1).succ : ℝ) / ((index + 1).factorial * ((index + 1 : ℕ) : ℝ)) ≤
      2 / (index + 1).factorial := by
    rw [div_le_div_iff₀ (by positivity) factorial]
    push_cast
    nlinarith
  calc |r| ^ (index + 1) * (((index + 1).succ : ℝ) / ((index + 1).factorial * ((index + 1 : ℕ) : ℝ)))
    _ ≤ |r| ^ (index + 1) * (2 / (index + 1).factorial) :=
      mul_le_mul_of_nonneg_left share (by positivity)
    _ = 2 * |summand r (index + 1)| := by
      rw [summand, abs_div, abs_pow, Nat.abs_cast]
      ring

/-- The exponential of a number of at most one half. -/
theorem exp_bounds {r : ℝ} (small : |r| ≤ 1 / 2) : 3 / 5 ≤ Real.exp r ∧ Real.exp r ≤ 5 / 3 := by
  obtain ⟨low, high⟩ := abs_le.mp small
  have root : Real.exp (1 / 2) ≤ 5 / 3 := by
    have square : Real.exp (1 / 2) * Real.exp (1 / 2) = Real.exp 1 := by
      rw [← Real.exp_add, add_halves]
    nlinarith [Real.exp_one_lt_d9, Real.exp_pos (1 / 2)]
  have above := (Real.exp_le_exp.mpr high).trans root
  have opposite := (Real.exp_le_exp.mpr (by linarith : -r ≤ 1 / 2)).trans root
  refine ⟨?_, above⟩
  rw [Real.exp_neg, inv_le_comm₀ (Real.exp_pos r) (by norm_num)] at opposite
  linarith

/-- The sums of the first summands are near one. -/
theorem partialSum_bounds {r : ℝ} (small : |r| ≤ 1 / 2) (index : ℕ) :
    1 / 3 ≤ partialSum r (index + 1) ∧ partialSum r (index + 1) ≤ 2 := by
  rcases index with _ | index
  · simp [partialSum, summand]
    norm_num
  obtain ⟨low, high⟩ := exp_bounds small
  have rest := abs_exp_sub_partialSum_le small (index + 1)
  have next := abs_summand_le small (index + 2)
  have factorial : (2 : ℝ) ≤ (index + 2).factorial := by
    exact_mod_cast Nat.self_le_factorial 2 |>.trans (Nat.factorial_le (by omega : 2 ≤ index + 2))
  have power : (1 / 2 : ℝ) ^ (index + 2) ≤ 1 / 4 := by
    rw [pow_add]
    have := pow_le_one₀ (by norm_num : (0 : ℝ) ≤ 1 / 2) (by norm_num) (n := index)
    linarith
  obtain ⟨below, above⟩ := abs_le.mp rest
  have tiny : |summand r (index + 2)| ≤ 1 / 8 := by nlinarith [abs_nonneg (summand r (index + 2))]
  constructor <;> linarith

/-! ## The summation -/

/-- What holds after so many terms of the summation, with so many digits, for an argument. -/
structure ExponentialRun (r : ℝ) (work index : ℕ) (state : Decimal × UInt32) (sum : Decimal) :
    Prop where
  counted : state.2.toNat = index + 1
  close : Close (3 * index * grain work) state.1.real (summand r index)
  scale_le : |state.1.scale.toInt| ≤ 2 ^ 20
  near : |sum.real - partialSum r (index + 1)| ≤ 6 * grain work * (1 - (1 / 2) ^ index)
  scale_sum_le : |sum.scale.toInt| ≤ 2 ^ 20

/-- An argument to which the summation applies: of at most one half, of a size that sixty-eight digits
behind the point can write, and with room above the scale. -/
structure Reduced (x : Decimal) : Prop where
  small : |x.real| ≤ 1 / 2
  mild : Mild 210 x.real
  scale_le : |x.scale.toInt| ≤ 2 ^ 62 + 2 ^ 20

section Summation

variable {work : ℕ} {state : Decimal × UInt32} {sum : Decimal} {index : ℕ}

/-- The next term is close to the next summand. -/
theorem close_exponentialTerm (reduced : Reduced x) (precise : 11 ≤ work) (few : work ≤ 73)
    (run : ExponentialRun x.real work index state sum) (early : index ≤ 60) :
    (exponentialTerm x work state).1.2.toNat = index + 2 ∧
      (exponentialTerm x work state).1.1 = (exponentialTerm x work state).2 ∧
      Close (3 * (index + 1 : ℕ) * grain work) (exponentialTerm x work state).2.real
        (summand x.real (index + 1)) ∧
      |(exponentialTerm x work state).2.scale.toInt| ≤ 2 ^ 20 := by
  obtain ⟨term, counter⟩ := state
  obtain ⟨counted, close, scale, -, -⟩ := run
  obtain ⟨-, mild, scaleToo⟩ := reduced
  dsimp only at counted close scale
  have fine := grain_pos work
  have tiny := grain_le_pow (show 10 < work by omega)
  have early' : (index : ℝ) ≤ 60 := by exact_mod_cast early
  have next : (counter + 1).toNat = index + 2 := by
    rw [UInt32.toNat_add, counted]
    exact Nat.mod_eq_of_lt (by change index + 1 + 1 < 2 ^ 32; omega)
  obtain ⟨product, productScale⟩ := real_multiply (x := term) (y := x) (by omega)
  have quotient : Close (3 * index * grain work)
      ((term.multiply x).real / (index + 1 : ℕ)) (summand x.real (index + 1)) := by
    rw [product, summand_succ, mul_div_assoc, mul_div_assoc]
    simpa using close.mul (Close.refl (x.real / ((index + 1 : ℕ) : ℝ)))
  have sized : Mild (2 ^ 15 : ℕ) ((term.multiply x).real / (index + 1 : ℕ)) := by
    refine ((mild_summand mild (index + 1)).of_close quotient).mono ?_
    push_cast
    nlinarith
  obtain ⟨rounded, bound⟩ := close_divide_ofNat_withDigits sized (by omega) (by omega) (by omega)
    (show 2 ≤ work by omega) (by omega) (by omega)
  have form : (exponentialTerm x work (term, counter)).2 =
      ((term.multiply x).divide (ofNat (index + 1))).withDigits work := by
    rw [← counted]
    rfl
  rw [form]
  refine ⟨next, form, (rounded.trans quotient).mono ?_, bound.trans (by push_cast; omega)⟩
  push_cast
  linarith

/-- The summation starts with one. -/
theorem exponentialRun_start (r : ℝ) (work : ℕ) : ExponentialRun r work 0 (one, 1) one where
  counted := rfl
  close := by
    rw [real_one, summand]
    simpa using Close.refl 1
  scale_le := by decide
  near := by simp [partialSum, summand]
  scale_sum_le := by decide

/-- Every term keeps what holds of the summation. -/
theorem exponentialRun_step (reduced : Reduced x) (precise : 11 ≤ work) (few : work ≤ 73)
    (run : ExponentialRun x.real work index state sum) (early : index ≤ 60) :
    ExponentialRun x.real work (index + 1) (exponentialTerm x work state).1
      (sum.add (exponentialTerm x work state).2) := by
  obtain ⟨counted, same, close, scale⟩ := close_exponentialTerm reduced precise few run early
  have fine := grain_pos work
  have tiny := grain_le_pow (show 10 < work by omega)
  have early' : (index : ℝ) ≤ 60 := by exact_mod_cast early
  refine ⟨counted, same ▸ close, same ▸ scale, ?_, abs_scale_add_le run.scale_sum_le scale⟩
  generalize exponentialTerm x work state = next at *
  have moved := close.abs_sub_le (by push_cast; nlinarith)
  have factorial : ((index + 1 : ℕ) : ℝ) ≤ (index + 1).factorial :=
    Nat.cast_le.mpr (index + 1).self_le_factorial
  have shrinks : ((index + 1 : ℕ) : ℝ) * |summand x.real (index + 1)| ≤ (1 / 2) ^ (index + 1) := by
    refine le_trans ?_ (abs_summand_le reduced.small (index + 1))
    rw [mul_comm]
    exact mul_le_mul_of_nonneg_left factorial (abs_nonneg _)
  calc |(sum.add next.2).real - partialSum x.real (index + 1 + 1)|
    _ = |(sum.real - partialSum x.real (index + 1)) + (next.2.real - summand x.real (index + 1))| := by
      rw [real_add, partialSum, sum_range_succ, ← partialSum]
      congr 1
      ring
    _ ≤ 6 * grain work * (1 - (1 / 2) ^ index) +
        6 * grain work * (((index + 1 : ℕ) : ℝ) * |summand x.real (index + 1)|) := by
      refine (abs_add_le _ _).trans (add_le_add run.near (moved.trans (le_of_eq ?_)))
      ring
    _ ≤ 6 * grain work * (1 - (1 / 2) ^ index) + 6 * grain work * (1 / 2) ^ (index + 1) := by
      gcongr
    _ = 6 * grain work * (1 - (1 / 2) ^ (index + 1)) := by ring

/-- The sum stays near one. -/
theorem exponentialRun_bounds (small : |x.real| ≤ 1 / 2) (precise : 11 ≤ work)
    (run : ExponentialRun x.real work index state sum) :
    3 / 10 ≤ sum.real ∧ sum.real ≤ 21 / 10 := by
  obtain ⟨low, high⟩ := partialSum_bounds small index
  have fine := grain_pos work
  have tiny := grain_le_pow (show 10 < work by omega)
  have power : (0 : ℝ) ≤ (1 / 2) ^ index := by positivity
  obtain ⟨below, above⟩ := abs_le.mp run.near
  constructor <;> nlinarith

/-- Numbers near one are of small size. -/
theorem mild_two {a : ℝ} (low : 3 / 10 ≤ a) (high : a ≤ 21 / 10) : Mild (2 : ℕ) a := by
  have square : Real.exp 2 = Real.exp 1 * Real.exp 1 := by
    rw [← Real.exp_add]
    norm_num
  have large : 4 ≤ Real.exp 2 := by
    rw [square]
    nlinarith [Real.exp_one_gt_d9]
  refine mild_of_bounds ?_ ?_
  · have inverse := inv_anti₀ (by norm_num) large
    rw [abs_of_pos (by linarith), Nat.cast_ofNat, Real.exp_neg]
    linarith
  · rw [abs_of_pos (by linarith), Nat.cast_ofNat]
    linarith

/-- The next term and the sum have room in a machine word, so that the one can be compared with the
other. -/
theorem exponentialRun_room (reduced : Reduced x) (precise : 11 ≤ work) (few : work ≤ 73)
    (run : ExponentialRun x.real work index state sum) (early : index ≤ 60) :
    (exponentialTerm x work state).2.mantissa ≠ 0 ∧ sum.mantissa ≠ 0 ∧
      |(exponentialTerm x work state).2.place| ≤ 2 ^ 60 ∧ |sum.place| ≤ 2 ^ 60 := by
  obtain ⟨-, -, close, -⟩ := close_exponentialTerm reduced precise few run early
  have fine := grain_pos work
  have tiny := grain_le_pow (show 10 < work by omega)
  have early' : (index : ℝ) ≤ 60 := by exact_mod_cast early
  obtain ⟨low, high⟩ := exponentialRun_bounds reduced.small precise run
  have sized : Mild (2 ^ 15 : ℕ) (exponentialTerm x work state).2.real := by
    refine ((mild_summand reduced.mild (index + 1)).of_close close).mono ?_
    push_cast
    nlinarith
  have place := abs_place_le sized
  have placeToo := abs_place_le (mild_two low high)
  refine ⟨(real_eq_zero_iff _).not.mp sized.1, (real_eq_zero_iff _).not.mp (by linarith), ?_, ?_⟩
  · exact place.trans (by norm_num)
  · exact placeToo.trans (by norm_num)

/-- After fifty terms the next one is negligible. -/
theorem exponentialRun_last (reduced : Reduced x) (precise : 11 ≤ work) (few : work ≤ 73)
    (run : ExponentialRun x.real work 50 state sum) :
    isNegligible (exponentialTerm x work state).2 sum work = true := by
  obtain ⟨nonzero, nonzeroToo, near, nearToo⟩ :=
    exponentialRun_room reduced precise few run (by norm_num)
  obtain ⟨-, -, close, -⟩ := close_exponentialTerm reduced precise few run (by norm_num)
  have fine := grain_pos work
  have tiny := grain_le_pow (show 10 < work by omega)
  obtain ⟨low, -⟩ := exponentialRun_bounds reduced.small precise run
  refine isNegligible_of_abs_le nonzero nonzeroToo near nearToo (by omega) ?_
  have bound := abs_summand_le reduced.small 51
  have unit : 1 / 10 ^ 76 ≤ grain (work + 4) := by
    refine le_trans ?_ (grain_le (by omega : work + 4 ≤ 77))
    norm_num [grain]
  calc |(exponentialTerm x work state).2.real|
    _ ≤ 2 * |summand x.real 51| := close.abs_le (by push_cast; nlinarith)
    _ ≤ 2 * ((1 / 2) ^ 51 / (51).factorial) := by
      gcongr
      rwa [le_div_iff₀ (Nat.cast_pos.mpr (Nat.factorial_pos 51))]
    _ ≤ 1 / 10 ^ 76 * (3 / 10) := by norm_num [Nat.factorial]
    _ ≤ grain (work + 4) * |sum.real| := by
      rw [abs_of_pos (by linarith)]
      gcongr

/-- The summation ends after no more than fifty terms, with a sum close to the exponential. -/
theorem close_exponentialSum (reduced : Reduced x) (precise : 11 ≤ work) (few : work ≤ 73) :
    ∃ total : Decimal, Close (24 * grain work) total.real (Real.exp x.real) ∧
      |total.scale.toInt| ≤ 2 ^ 20 ∧
      ∀ limit, 50 < limit → sumSeries (exponentialTerm x work) work limit (one, 1) one = total := by
  obtain ⟨index, within, state, total, run, ended, equal⟩ := sumSeries_ends
    (exponentialTerm x work) work (ExponentialRun x.real work) 50
    (fun early run _ => exponentialRun_step reduced precise few run (by omega))
    (fun run => exponentialRun_last reduced precise few run) (exponentialRun_start x.real work)
  refine ⟨total, ?_, run.scale_sum_le, equal⟩
  obtain ⟨nonzero, nonzeroToo, near, nearToo⟩ :=
    exponentialRun_room reduced precise few run (by omega)
  obtain ⟨-, -, close, -⟩ := close_exponentialTerm reduced precise few run (by omega)
  have fine := grain_pos work
  have tiny := grain_le_pow (show 10 < work by omega)
  obtain ⟨low, high⟩ := exponentialRun_bounds reduced.small precise run
  have within' : (index : ℝ) ≤ 50 := by exact_mod_cast within
  have exponential := (exp_bounds reduced.small).1
  -- The summand that is cut off is about the negligible term.
  have cut := abs_le_of_isNegligible nonzero nonzeroToo near nearToo (by omega) ended
  rw [grain_add, abs_of_pos (by linarith : 0 < total.real)] at cut
  have next := close.symm.abs_le (by push_cast; nlinarith)
  have rest := abs_exp_sub_partialSum_le reduced.small index
  have power : (0 : ℝ) ≤ (1 / 2) ^ index := by positivity
  have split := abs_sub_le total.real (partialSum x.real (index + 1)) (Real.exp x.real)
  rw [abs_sub_comm (partialSum x.real (index + 1))] at split
  have rounding : 6 * grain work * (1 - (1 / 2) ^ index) ≤ 6 * grain work := by nlinarith
  have scaled : grain work / 10 ^ 2 * total.real ≤ grain work / 10 ^ 2 * (21 / 10) := by gcongr
  refine (close_of_abs_sub_le (s := 12 * grain work) (by linarith) (by linarith) ?_).mono (by linarith)
  rw [abs_of_pos (Real.exp_pos _)]
  nlinarith [run.near]

end Summation

/-! ## Halvings and squarings -/

/-- An argument of at most one half is not halved. -/
theorem halve_of_le (small : |x.real| ≤ 1 / 2) (steps count : ℕ) :
    halve steps x count = (x, count) := by
  cases steps with
  | zero => rfl
  | succ steps =>
    rw [halve, if_neg]
    rw [isLess_iff, real_half, real_absolute]
    exact not_lt.mpr small

/-- A larger argument is halved. -/
theorem halve_of_lt (large : 1 / 2 < |x.real|) (steps count : ℕ) :
    halve (steps + 1) x count = halve steps (x.multiply half) (count + 1) := by
  rw [halve, if_pos]
  rwa [isLess_iff, real_half, real_absolute]

/-- Halving ends when the argument is at most one half; unless it is so from the start, a quarter is
left. -/
theorem halve_ends (bound : ℕ) (within : |x.real| ≤ 2 ^ bound / 2)
    (room : |x.scale.toInt| + bound < 2 ^ 63) :
    ∃ halvings ≤ bound, ∃ reduced : Decimal,
      (∀ steps count, bound ≤ steps → halve steps x count = (reduced, count + halvings)) ∧
      reduced.real = x.real / 2 ^ halvings ∧ |reduced.real| ≤ 1 / 2 ∧
      (halvings = 0 ∨ 1 / 4 ≤ |reduced.real|) ∧
      |reduced.scale.toInt| ≤ |x.scale.toInt| + halvings := by
  induction bound generalizing x with
  | zero =>
    rw [pow_zero] at within
    exact ⟨0, le_rfl, x, fun steps count _ => halve_of_le within steps count,
      by rw [pow_zero, div_one], within, .inl rfl, by simp⟩
  | succ bound inductionHypothesis =>
    rcases le_or_gt |x.real| (1 / 2) with small | large
    · exact ⟨0, Nat.zero_le _, x, fun steps count _ => halve_of_le small steps count,
        by rw [pow_zero, div_one], small, .inl rfl, by simp⟩
    have single : |half.scale.toInt| = 1 := rfl
    obtain ⟨product, scale⟩ := real_multiply (x := x) (y := half)
      (by rw [single]; push_cast at room; omega)
    rw [single] at scale
    have magnitude : |(x.multiply half).real| = |x.real| / 2 := by
      rw [product, real_half, abs_mul, abs_of_pos (by norm_num : (0 : ℝ) < 1 / 2), mul_one_div]
    obtain ⟨halvings, few, reduced, ends, value, bounded, quarter, position⟩ :=
      inductionHypothesis (x := x.multiply half) (by rw [magnitude]; rw [pow_succ] at within; linarith)
        (by push_cast at room; omega)
    refine ⟨halvings + 1, by omega, reduced, ?_, ?_, bounded, .inr ?_, by push_cast; omega⟩
    · rintro (_ | steps) count enough
      · omega
      · rw [halve_of_lt large, ends steps (count + 1) (by omega), add_right_comm, add_assoc]
    · rw [value, product, real_half, pow_succ]
      ring
    · rcases quarter with rfl | quarter
      · rw [pow_zero, div_one] at value
        rw [value, magnitude]
        linarith
      · exact quarter

/-- Squaring so many times gives what is close to the power of the exponential. -/
theorem close_squareTimes {work : ℕ} (counted : 2 ≤ work) (few : work ≤ 100) (times : ℕ)
    {bound exact : ℝ} (close : Close bound x.real (Real.exp exact))
    (fine : 2 ^ times * (bound + 2 * grain work) ≤ 1) (within : 2 ^ times * |exact| ≤ 2 ^ 30)
    (scale : |x.scale.toInt| ≤ 2 ^ 40) :
    Close (2 ^ times * (bound + 2 * grain work)) (squareTimes work times x).real
      (Real.exp (2 ^ times * exact)) := by
  induction times generalizing x bound exact with
  | zero =>
    simp only [pow_zero, one_mul]
    exact close.mono (by linarith [grain_pos work])
  | succ times inductionHypothesis =>
    have power : (1 : ℝ) ≤ 2 ^ times := one_le_pow₀ (by norm_num)
    have unit := grain_pos work
    have nonneg := close.bound_nonneg
    have square : Close (bound + bound) (x.real * x.real) (Real.exp (2 * exact)) := by
      rw [two_mul, Real.exp_add]
      exact close.mul close
    rw [pow_succ] at fine within
    have sized : Mild (2 ^ 31 : ℕ) (x.real * x.real) := by
      refine ((mild_exp (2 * exact)).of_close square).mono ?_
      rw [abs_mul, abs_two]
      push_cast
      nlinarith [abs_nonneg exact]
    obtain ⟨rounded, position⟩ :=
      close_multiply_withDigits sized (by omega) counted (by omega)
    have next := inductionHypothesis (rounded.trans square)
      (le_trans (le_of_eq (by ring)) fine)
      (by rw [abs_mul, abs_two, ← mul_assoc]; exact within) (by push_cast at position; omega)
    rw [squareTimes, pow_succ, mul_assoc _ 2 exact]
    convert next using 1
    ring

/-! ## Tiny arguments -/

/-- With so many digits a mantissa has about so many digits, whatever the scale is. -/
theorem le_digits_withDigits {count : ℕ} (nonzero : x.mantissa ≠ 0) (counted : 2 ≤ count)
    (few : count ≤ 2 ^ 60) (stored : x.digits ≤ 2 ^ 62) :
    count ≤ (x.withDigits count).digits + 1 := by
  -- The digits depend on the mantissa alone, so the scale may be taken for zero.
  obtain ⟨mantissa, scale⟩ := x
  have same : ((⟨mantissa, scale⟩ : Decimal).withDigits count).digits =
      ((⟨mantissa, 0⟩ : Decimal).withDigits count).digits := by
    unfold withDigits digits
    dsimp only
    split <;> rfl
  rw [same]
  change (⟨mantissa, 0⟩ : Decimal).digits ≤ _ at stored
  change (⟨mantissa, 0⟩ : Decimal).mantissa ≠ 0 at nonzero
  have plain : (⟨mantissa, 0⟩ : Decimal).scale.toInt = 0 := rfl
  generalize (⟨mantissa, 0⟩ : Decimal) = y at *
  have place : y.place = y.digits := by rw [Decimal.place, plain, sub_zero]
  have near := (abs_withDigits_sub_le y count (by omega) (by omega)).1
  have position := toInt_scale_withDigits (x := y) count (by omega) (by omega)
  have small : grain count ≤ 1 / 10 ^ 1 := grain_le_pow counted
  have split := abs_sub_abs_le_abs_sub y.real (y.withDigits count).real
  rw [abs_sub_comm] at split
  have above := (real_bounds nonzero).1
  have kept : 10 ^ (y.place - 2) ≤ |(y.withDigits count).real| := by
    have tenth : (10 : ℝ) ^ (y.place - 1) = 10 * 10 ^ (y.place - 2) := by
      rw [← zpow_one_add₀ (by norm_num)]
      congr 1
      ring
    have positive : (0 : ℝ) < 10 ^ (y.place - 2) := zpow_pos (by norm_num) _
    nlinarith [abs_nonneg y.real]
  have present : (y.withDigits count).mantissa ≠ 0 := by
    refine (real_eq_zero_iff _).not.mp (abs_pos.mp (lt_of_lt_of_le ?_ kept))
    exact zpow_pos (by norm_num) _
  have bound := lt_place_of_le_abs present kept
  unfold Decimal.place at bound
  omega

/-- The scale with so many digits, as a machine word that may wrap. -/
theorem toInt_scale_withDigits_bmod (count : ℕ) :
    (x.withDigits count).scale.toInt = (x.scale.toInt + count - x.digits).bmod (2 ^ 64) := by
  have size : Int64.size = 2 ^ 64 := rfl
  unfold withDigits
  dsimp only
  split
  · rw [Int64.toInt_sub, Int64.toInt_ofNat', size, Int.sub_bmod_bmod]
    congr 1
    omega
  · rw [Int64.toInt_add, Int64.toInt_ofNat', size, Int.add_bmod_bmod]
    congr 1
    omega

/-- The exponent with so many digits is not above the position of the leading digit, even if the scale
wraps. -/
theorem toInt_exponent_withDigits_le {count : ℕ} (nonzero : x.mantissa ≠ 0) (counted : 2 ≤ count)
    (few : count ≤ 2 ^ 60) (stored : x.digits ≤ 2 ^ 62) (small : x.place ≤ 0) :
    (x.withDigits count).exponent.toInt ≤ x.place := by
  have lower := le_digits_withDigits nonzero counted few stored
  have upper := digits_withDigits_le (x := x) (by omega : 0 < count)
  have present : (x.withDigits count).mantissa ≠ 0 := by
    have kept := sign_withDigits (x := x) (by omega : 0 < count)
    intro none
    rw [sign, sign, none, Int.sign_zero, eq_comm, Int.sign_eq_zero_iff_zero] at kept
    exact nonzero kept
  have scale := x.scale.toInt_lt
  have written := x.one_le_digits
  unfold Decimal.place at small ⊢
  rw [toInt_exponent_bmod present, toInt_scale_withDigits_bmod, Int.sub_bmod_bmod,
    Int.bmod_eq_of_le (by omega) (by omega)]
  omega

/-! ## Accuracy -/

/-- The exponential, with other bounds on its loops. -/
def exponentialWithin (steps terms : ℕ) (x : Decimal) (digits : ℕ) : Outcome Decimal :=
  if x.isZero then .ok one
  else if 9 < x.exponent || (ofNat exponentialLimit).isLess x.absolute then
    if x.isNegative then .ok zero else .error .badArgumentValue
  else
    let (reduced, halvings) := halve steps x 0
    let work := digits + 4 + halvings * 3 / 10
    let sum := sumSeries (exponentialTerm reduced work) work terms (one, 1) one
    .ok ((squareTimes work halvings sum).withDigits digits)

/-- The exponential has bounds on its loops that are large. -/
theorem exponential_eq (x : Decimal) (digits : ℕ) :
    exponential x digits = exponentialWithin reductionSteps seriesTerms x digits := rfl

section Accuracy

variable {digits : ℕ}

/-- An argument within the limit is not refused. -/
theorem exponentialWithin_eq (nonzero : x.mantissa ≠ 0) (bounded : |x.real| ≤ 10 ^ 9)
    (steps terms : ℕ) {reduced : Decimal} {halvings : ℕ}
    (halved : halve steps x 0 = (reduced, halvings)) :
    exponentialWithin steps terms x digits =
      .ok ((squareTimes (digits + 4 + halvings * 3 / 10) halvings
        (sumSeries (exponentialTerm reduced (digits + 4 + halvings * 3 / 10))
          (digits + 4 + halvings * 3 / 10) terms (one, 1) one)).withDigits digits) := by
  have short : x.place ≤ 10 :=
    place_le_of_abs_lt nonzero (bounded.trans_lt (by norm_num))
  have scale := x.scale.toInt_lt
  have written := x.one_le_digits
  have exponent : ¬ 9 < x.exponent := by
    unfold place at short
    rw [Int64.lt_iff_toInt_lt, toInt_exponent_of_fits nonzero (by omega) (by omega)]
    change ¬ (9 : ℤ) < _
    omega
  have limit : (ofNat exponentialLimit).isLess x.absolute = false := by
    rw [Bool.eq_false_iff, ne_eq, isLess_iff, real_ofNat, real_absolute, not_lt]
    exact bounded.trans (by norm_num [exponentialLimit])
  rw [exponentialWithin, if_neg (by simpa [isZero] using nonzero), limit, decide_eq_false exponent,
    halved]
  rfl

/-- The first term is the argument itself, to the working precision. -/
theorem exponentialTerm_first (x : Decimal) (work : ℕ) :
    (exponentialTerm x work (one, 1)).2 = x.withDigits work := by
  have unit : one.isOne = true := by rw [isOne_iff, rational_one]
  have unitToo : (ofNat (1 : UInt32).toNat).isOne = true := by
    rw [isOne_iff, rational_ofNat]
    rfl
  rw [exponentialTerm, multiply, if_pos unit, divide, unitToo, Bool.or_true, if_pos rfl]

/-- The first term of a tiny argument is negligible. -/
theorem isNegligible_of_tiny (nonzero : x.mantissa ≠ 0) (stored : x.digits ≤ 2 ^ 62)
    (few : digits ≤ 60) (tiny : x.place ≤ -digits - 8) :
    isNegligible (x.withDigits (digits + 4)) one (digits + 4) = true := by
  have exponent : (x.withDigits (digits + 4)).exponent.toInt ≤ x.place :=
    toInt_exponent_withDigits_le nonzero (by omega) (by omega) stored (by omega)
  have word : (Int64.ofNat (digits + 4)).toInt = (digits + 4 : ℕ) :=
    Int64.toInt_ofNat_of_lt (by omega)
  have zero : one.exponent = 0 := by decide +kernel
  have sum : one.isZero = false := rfl
  have shifted : (one.exponent - Int64.ofNat (digits + 4) - 1).toInt = -((digits + 4 : ℕ) : ℤ) - 1 := by
    have plain : (0 : Int64).toInt = 0 := rfl
    have single : (1 : Int64).toInt = 1 := rfl
    have first := toInt_sub_of_fits (a := 0) (b := Int64.ofNat (digits + 4)) (by omega) (by omega)
    rw [zero, toInt_sub_of_fits (by omega) (by omega), first, word, plain, single, zero_sub]
  rw [isNegligible, sum, Bool.not_false, Bool.true_and, Bool.or_eq_true, decide_eq_true_iff,
    Int64.lt_iff_toInt_lt, shifted]
  push_cast
  exact .inr (by omega)

/-- A tiny argument is small. -/
theorem abs_le_of_tiny (nonzero : x.mantissa ≠ 0) (tiny : x.place ≤ -digits - 8) :
    |x.real| ≤ 10 ^ (-8 : ℤ) :=
  (real_bounds nonzero).2.le.trans (zpow_le_zpow_right₀ (by norm_num) (by omega))

/-- A tiny argument ends the summation at once. -/
theorem exponentialWithin_of_tiny (nonzero : x.mantissa ≠ 0) (stored : x.digits ≤ 2 ^ 62)
    (few : digits ≤ 60) (tiny : x.place ≤ -digits - 8) {steps terms : ℕ} (some : 0 < terms) :
    exponentialWithin steps terms x digits = .ok (one.withDigits digits) := by
  obtain ⟨terms, rfl⟩ : ∃ further, terms = further + 1 := ⟨terms - 1, by omega⟩
  have small := abs_le_of_tiny nonzero tiny
  have negligible := isNegligible_of_tiny nonzero stored few tiny
  rw [exponentialWithin_eq nonzero (small.trans (by norm_num)) steps (terms + 1)
    (halve_of_le (small.trans (by norm_num)) steps 0)]
  change Except.ok ((sumSeries (exponentialTerm x (digits + 4)) (digits + 4) (terms + 1) (one, 1)
    one).withDigits digits) = _
  rw [sumSeries_succ, exponentialTerm_first, if_pos negligible]

/-- Doubling so often costs no more digits than the working precision gains. -/
theorem two_pow_le : ∀ halvings ≤ 31, 2 ^ halvings ≤ 9 * 10 ^ (halvings * 3 / 10) := by decide

/-- The working precision gains what the doublings of the error cost. -/
theorem doubled_grain_le (digits : ℕ) {halvings : ℕ} (within : halvings ≤ 31) :
    2 ^ halvings * (24 * grain (digits + 4 + halvings * 3 / 10) +
      2 * grain (digits + 4 + halvings * 3 / 10)) ≤ grain digits / 40 := by
  have doublings : (2 : ℝ) ^ halvings ≤ 9 * 10 ^ (halvings * 3 / 10) := by
    exact_mod_cast two_pow_le halvings within
  generalize halvings * 3 / 10 = gained at *
  have unit := grain_pos digits
  have tens : (0 : ℝ) < 10 ^ gained := by positivity
  rw [grain_add, grain_add]
  calc (2 : ℝ) ^ halvings * (24 * (grain digits / 10 ^ 4 / 10 ^ gained) +
        2 * (grain digits / 10 ^ 4 / 10 ^ gained))
    _ ≤ 9 * 10 ^ gained * (24 * (grain digits / 10 ^ 4 / 10 ^ gained) +
        2 * (grain digits / 10 ^ 4 / 10 ^ gained)) := by gcongr
    _ = 234 / 10 ^ 4 * grain digits := by
      field_simp
      ring
    _ ≤ grain digits / 40 := by linarith

/-- The reduced argument is of a size to which the summation applies. -/
theorem reduced_of_halve (nonzero : x.mantissa ≠ 0) (stored : x.digits ≤ 2 ^ 62)
    (bounded : |x.real| ≤ 10 ^ 9) (few : digits ≤ 60) (large : -digits - 8 < x.place) :
    ∃ halvings ≤ 31, ∃ reduced : Decimal, Reduced reduced ∧
      reduced.real = x.real / 2 ^ halvings ∧
      ∀ steps, 31 ≤ steps → halve steps x 0 = (reduced, halvings) := by
  have short : x.place ≤ 10 :=
    place_le_of_abs_lt nonzero (bounded.trans_lt (by norm_num))
  have written := x.one_le_digits
  have scale : |x.scale.toInt| ≤ 2 ^ 62 + 68 := by
    unfold place at short large
    exact abs_le.mpr ⟨by omega, by omega⟩
  obtain ⟨halvings, within, reduced, ends, value, small, quarter, position⟩ :=
    halve_ends (x := x) 31 (bounded.trans (by norm_num)) (by omega)
  refine ⟨halvings, within, reduced, ⟨small, ?_, by omega⟩, value, fun steps enough => ?_⟩
  · rcases quarter with rfl | quarter
    · rw [pow_zero, div_one] at value
      have above : (10 : ℝ) ^ (-68 : ℤ) ≤ |x.real| :=
        (zpow_le_zpow_right₀ (by norm_num) (by omega)).trans (real_bounds nonzero).1
      rw [value] at small ⊢
      exact (mild_of_le_one 68 above (by linarith)).mono (by norm_num)
    · exact (mild_of_le_one 1 (le_trans (by norm_num) quarter) (by linarith)).mono
        (by norm_num)
  · rw [ends steps 0 enough, Nat.zero_add]

/-- The accuracy of the exponential of an argument that is neither zero nor tiny. -/
theorem exponentialWithin_close (nonzero : x.mantissa ≠ 0) (stored : x.digits ≤ 2 ^ 62)
    (bounded : |x.real| ≤ 10 ^ 9) (several : 7 ≤ digits) (few : digits ≤ 60)
    (large : -digits - 8 < x.place) :
    ∃ v : Decimal,
      (∀ steps terms, 31 ≤ steps → 50 < terms → exponentialWithin steps terms x digits = .ok v) ∧
      |v.real - Real.exp x.real| ≤ grain digits * Real.exp x.real := by
  obtain ⟨halvings, within, reduced, applicable, value, halved⟩ :=
    reduced_of_halve nonzero stored bounded few large
  obtain ⟨gained, share⟩ : ∃ gained, gained = halvings * 3 / 10 := ⟨_, rfl⟩
  obtain ⟨total, close, scale, ends⟩ :=
    close_exponentialSum applicable (by omega : 11 ≤ digits + 4 + gained) (by omega)
  have power : (0 : ℝ) < 2 ^ halvings := by positivity
  have product : 2 ^ halvings * reduced.real = x.real := by
    rw [value, mul_div_cancel₀ _ power.ne']
  have budget := doubled_grain_le digits within
  rw [← share] at budget
  have unit : grain digits ≤ 1 / 10 ^ 6 := grain_le_pow several
  have squared := close_squareTimes (by omega : 2 ≤ digits + 4 + gained) (by omega) halvings close
    (by linarith)
    (by
      rw [← abs_of_pos power, ← abs_mul, product]
      exact bounded.trans (by norm_num))
    (by omega)
  rw [product] at squared
  have sized : Mild ((10 ^ 9 : ℕ) : ℝ) (Real.exp x.real) :=
    (mild_exp x.real).mono (by exact_mod_cast bounded)
  refine ⟨_, fun steps terms enough more => ?_, abs_withDigits_sub_le_of_close (Real.exp_pos _) sized
    squared (by omega) (budget.trans (by linarith [grain_pos digits])) (by omega)⟩
  rw [exponentialWithin_eq nonzero bounded steps terms (halved steps enough), ← share,
    ends terms more]

/-- Over the whole range of arguments within the limit, and for every number of digits between seven
and sixty, the exponential ends with a value whose relative error is at most a unit of the last digit:
the argument is halved no more than thirty-one times and no more than fifty terms are added, whatever
the bounds on the loops are. The scale of the argument may be any; its digits have to be so many that
they can be stored, or the products of the reduction wrap. -/
theorem exponential_accurate (several : 7 ≤ digits) (few : digits ≤ 60)
    (bounded : |x.rational| ≤ 10 ^ 9) (stored : x.digits ≤ 2 ^ 62) :
    ∃ v : Decimal, exponential x digits = .ok v ∧
      |(v.rational : ℝ) - Real.exp x.rational| ≤ 10 ^ (1 - (digits : ℤ)) * Real.exp x.rational ∧
      ∀ steps terms, 31 ≤ steps → 50 < terms → exponentialWithin steps terms x digits = .ok v := by
  have within : |x.real| ≤ 10 ^ 9 := by
    rw [real, ← Rat.cast_abs]
    exact_mod_cast bounded
  obtain ⟨v, ends, accurate⟩ : ∃ v : Decimal,
      (∀ steps terms, 31 ≤ steps → 50 < terms → exponentialWithin steps terms x digits = .ok v) ∧
      |v.real - Real.exp x.real| ≤ grain digits * Real.exp x.real := by
    rcases eq_or_ne x.mantissa 0 with zero | nonzero
    · refine ⟨one, fun steps terms _ _ => ?_, ?_⟩
      · rw [exponentialWithin, if_pos (by simpa [isZero] using zero)]
      · rw [(real_eq_zero_iff x).mpr zero, real_one, Real.exp_zero, sub_self, abs_zero, mul_one]
        exact (grain_pos digits).le
    rcases le_or_gt x.place (-digits - 8) with tiny | large
    · refine ⟨one.withDigits digits, fun steps terms _ more =>
        exponentialWithin_of_tiny nonzero stored few tiny (by omega), ?_⟩
      have small : |x.real| ≤ grain digits / 10 := by
        rw [← pow_one (10 : ℝ), ← grain_add]
        exact (real_bounds nonzero).2.le.trans
          (zpow_le_zpow_right₀ (by norm_num) (by push_cast; omega))
      have sized : Mild ((10 ^ 9 : ℕ) : ℝ) (Real.exp x.real) :=
        (mild_exp x.real).mono (by exact_mod_cast within)
      have close := close_one_exp x.real
      rw [← real_one] at close
      exact abs_withDigits_sub_le_of_close (Real.exp_pos _) sized close (by omega) small (by omega)
    · exact exponentialWithin_close nonzero stored within several few large
  exact ⟨v, (exponential_eq x digits).trans (ends _ _ (by decide) (by decide)), accurate, ends⟩

/-- The exponential of minus two and a half to seven digits, for which the argument is halved three
times. -/
theorem exponential_accurate_halved :
    exponential ⟨-25, 1⟩ 7 = .ok ⟨8208500, 8⟩ ∧
      |(8208500 / 10 ^ 8 : ℝ) - Real.exp (-5 / 2)| ≤ 10 ^ (1 - (7 : ℤ)) * Real.exp (-5 / 2) := by
  have computed : exponential ⟨-25, 1⟩ 7 = .ok ⟨8208500, 8⟩ := by decide +kernel
  have argument : (⟨-25, 1⟩ : Decimal).rational = -5 / 2 := by
    have scale : (1 : Int64).toInt = 1 := rfl
    rw [rational, scale]
    norm_num
  have result : (⟨8208500, 8⟩ : Decimal).rational = 8208500 / 10 ^ 8 := by
    have scale : (8 : Int64).toInt = 8 := rfl
    rw [rational, scale]
    norm_num
  obtain ⟨v, answered, near, -⟩ := exponential_accurate (x := ⟨-25, 1⟩) (by decide : 7 ≤ 7)
    (by decide) (by rw [argument]; norm_num [abs_of_neg]) (by decide +kernel)
  obtain rfl := Except.ok.inj (computed.symm.trans answered)
  rw [argument, result] at near
  push_cast at near
  exact ⟨computed, near⟩

end Accuracy

end Calculator.Decimal
