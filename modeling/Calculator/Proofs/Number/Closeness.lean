import Mathlib

/-!
# Relative closeness

A computed number stands for an exact one up to a factor near one. The closeness of the two is
measured by the logarithm of the factor: the bounds of the operands of a product, of a quotient and
of a chain of roundings add, and a square doubles the bound, without terms of higher order. The size
of a number is measured by its logarithm as well, so that sizes add in the same way.
-/

namespace Calculator

variable {a b c d s t : ℝ}

/-- Whether a number is another one times a factor whose logarithm is within a bound. -/
def Close (bound a b : ℝ) : Prop := ∃ t, |t| ≤ bound ∧ a = b * Real.exp t

namespace Close

/-- A number is close to itself. -/
theorem refl (a : ℝ) : Close 0 a a := ⟨0, by rw [abs_zero], by rw [Real.exp_zero, mul_one]⟩

/-- Closeness within a larger bound. -/
theorem mono (close : Close s a b) (le : s ≤ t) : Close t a b := by
  obtain ⟨shift, within, rfl⟩ := close
  exact ⟨shift, within.trans le, rfl⟩

/-- A bound is not negative. -/
theorem bound_nonneg (close : Close s a b) : 0 ≤ s := by
  obtain ⟨shift, within, -⟩ := close
  exact (abs_nonneg shift).trans within

/-- Closeness goes both ways. -/
theorem symm (close : Close s a b) : Close s b a := by
  obtain ⟨shift, within, rfl⟩ := close
  refine ⟨-shift, by rwa [abs_neg], ?_⟩
  rw [mul_assoc, ← Real.exp_add, add_neg_cancel, Real.exp_zero, mul_one]

/-- The bounds of a chain add. -/
theorem trans (first : Close s a b) (second : Close t b c) : Close (s + t) a c := by
  obtain ⟨shift, within, rfl⟩ := first
  obtain ⟨further, withinToo, rfl⟩ := second
  refine ⟨shift + further, (abs_add_le _ _).trans (add_le_add within withinToo), ?_⟩
  rw [add_comm, Real.exp_add, mul_assoc]

/-- The bounds of factors add. -/
theorem mul (left : Close s a b) (right : Close t c d) : Close (s + t) (a * c) (b * d) := by
  obtain ⟨shift, within, rfl⟩ := left
  obtain ⟨further, withinToo, rfl⟩ := right
  refine ⟨shift + further, (abs_add_le _ _).trans (add_le_add within withinToo), ?_⟩
  rw [Real.exp_add, mul_mul_mul_comm]

/-- A reciprocal is as close. -/
theorem inv (close : Close s a b) : Close s a⁻¹ b⁻¹ := by
  obtain ⟨shift, within, rfl⟩ := close
  exact ⟨-shift, by rwa [abs_neg], by rw [mul_inv, Real.exp_neg]⟩

/-- The bounds of a dividend and a divisor add. -/
theorem div (left : Close s a b) (right : Close t c d) : Close (s + t) (a / c) (b / d) := by
  rw [div_eq_mul_inv, div_eq_mul_inv]
  exact left.mul right.inv

/-- The opposites are as close. -/
theorem neg (close : Close s a b) : Close s (-a) (-b) := by
  obtain ⟨shift, within, rfl⟩ := close
  exact ⟨shift, within, (neg_mul _ _).symm⟩

/-- A square root halves the bound. -/
theorem sqrt (close : Close s a b) : Close (s / 2) √a √b := by
  obtain ⟨shift, within, rfl⟩ := close
  refine ⟨shift / 2, ?_, ?_⟩
  · rw [abs_div, abs_two]
    exact div_le_div_of_nonneg_right within zero_le_two
  · rw [Real.sqrt_mul' _ (Real.exp_pos shift).le, Real.exp_half]

/-- A sum of numbers that are not negative is as close as they are. -/
theorem add (left : Close s a b) (right : Close s c d) (nonneg : 0 ≤ b) (nonnegToo : 0 ≤ d) :
    Close s (a + c) (b + d) := by
  rcases nonneg.eq_or_lt with rfl | positive
  · obtain ⟨shift, -, rfl⟩ := left
    rwa [zero_mul, zero_add, zero_add]
  obtain ⟨shift, within, rfl⟩ := left
  obtain ⟨further, withinToo, rfl⟩ := right
  have total : 0 < b + d := by linarith
  obtain ⟨low, high⟩ := abs_le.mp within
  obtain ⟨lowToo, highToo⟩ := abs_le.mp withinToo
  have share : 0 < (b * Real.exp shift + d * Real.exp further) / (b + d) := by positivity
  refine ⟨Real.log ((b * Real.exp shift + d * Real.exp further) / (b + d)), abs_le.mpr ⟨?_, ?_⟩, ?_⟩
  · rw [Real.le_log_iff_exp_le share, le_div_iff₀ total, mul_comm, add_mul]
    exact add_le_add (mul_le_mul_of_nonneg_left (Real.exp_le_exp.mpr low) positive.le)
      (mul_le_mul_of_nonneg_left (Real.exp_le_exp.mpr lowToo) nonnegToo)
  · rw [Real.log_le_iff_le_exp share, div_le_iff₀ total, mul_comm (Real.exp s), add_mul]
    exact add_le_add (mul_le_mul_of_nonneg_left (Real.exp_le_exp.mpr high) positive.le)
      (mul_le_mul_of_nonneg_left (Real.exp_le_exp.mpr highToo) nonnegToo)
  · rw [Real.exp_log share, mul_div_cancel₀ _ total.ne']

/-- What is close to a positive number is positive. -/
theorem pos (close : Close s a b) (positive : 0 < b) : 0 < a := by
  obtain ⟨shift, -, rfl⟩ := close
  positivity

/-- What is close to a number other than zero is not zero. -/
theorem ne_zero (close : Close s a b) (nonzero : b ≠ 0) : a ≠ 0 := by
  obtain ⟨shift, -, rfl⟩ := close
  positivity

/-- The logarithms of close numbers differ by no more than the bound. -/
theorem abs_log_sub_le (close : Close s a b) (nonzero : b ≠ 0) :
    |Real.log a - Real.log b| ≤ s := by
  obtain ⟨shift, within, rfl⟩ := close
  rwa [Real.log_mul nonzero (Real.exp_pos shift).ne', Real.log_exp, add_sub_cancel_left]

/-- The relative difference of close numbers is at most twice the bound. -/
theorem abs_sub_le (close : Close s a b) (small : s ≤ 1) : |a - b| ≤ 2 * s * |b| := by
  obtain ⟨shift, within, rfl⟩ := close
  calc |b * Real.exp shift - b|
    _ = |b| * |Real.exp shift - 1| := by rw [← abs_mul, mul_sub, mul_one]
    _ ≤ |b| * (2 * s) := by
      refine mul_le_mul_of_nonneg_left ?_ (abs_nonneg b)
      exact (Real.abs_exp_sub_one_le (within.trans small)).trans (by linarith)
    _ = 2 * s * |b| := mul_comm _ _

/-- What is close to a number is at most twice as large. -/
theorem abs_le (close : Close s a b) (small : s ≤ 1 / 2) : |a| ≤ 2 * |b| := by
  have near := close.abs_sub_le (by linarith)
  have split := abs_sub_abs_le_abs_sub a b
  nlinarith [abs_nonneg b]

end Close

/-- One is as close to an exponential as the exponent is to zero. -/
theorem close_one_exp (a : ℝ) : Close |a| 1 (Real.exp a) :=
  ⟨-a, (abs_neg a).le, by rw [← Real.exp_add, add_neg_cancel, Real.exp_zero]⟩

/-- Numbers are close if their relative difference is small. -/
theorem close_of_abs_sub_le (nonneg : 0 ≤ s) (small : s ≤ 1 / 2) (near : |a - b| ≤ s * |b|) :
    Close (2 * s) a b := by
  rcases eq_or_ne b 0 with rfl | nonzero
  · have zero : a = 0 := by simpa using near
    rw [zero]
    exact (Close.refl 0).mono (by linarith)
  obtain ⟨low, high⟩ : 1 - s ≤ a / b ∧ a / b ≤ 1 + s := by
    rw [← div_le_iff₀ (abs_pos.mpr nonzero), ← abs_div, sub_div, div_self nonzero, abs_le] at near
    constructor <;> linarith
  have ratio : 0 < a / b := by linarith
  refine ⟨Real.log (a / b), abs_le.mpr ⟨?_, ?_⟩, ?_⟩
  · -- Below one the logarithm is at least `1 - 1 / ratio`, and the ratio at least one half.
    have inverse : (a / b)⁻¹ ≤ 1 + 2 * s := by
      rw [inv_le_comm₀ ratio (by linarith)]
      refine le_trans ?_ low
      rw [inv_le_iff_one_le_mul₀ (by linarith)]
      nlinarith
    linarith [Real.one_sub_inv_le_log_of_pos ratio]
  · linarith [Real.log_le_sub_one_of_pos ratio]
  · rw [Real.exp_log ratio, mul_div_cancel₀ _ nonzero]

/-! ## Size -/

/-- Whether a number is not zero and its logarithm is within a bound. -/
def Mild (size a : ℝ) : Prop := a ≠ 0 ∧ |Real.log a| ≤ size

namespace Mild

/-- The sizes of factors add. -/
theorem mul (left : Mild s a) (right : Mild t b) : Mild (s + t) (a * b) := by
  refine ⟨mul_ne_zero left.1 right.1, ?_⟩
  rw [Real.log_mul left.1 right.1]
  exact (abs_add_le _ _).trans (add_le_add left.2 right.2)

/-- The sizes of a dividend and a divisor add. -/
theorem div (left : Mild s a) (right : Mild t b) : Mild (s + t) (a / b) := by
  refine ⟨div_ne_zero left.1 right.1, ?_⟩
  rw [Real.log_div left.1 right.1]
  exact (abs_sub _ _).trans (add_le_add left.2 right.2)

/-- A power has so many times the size. -/
theorem pow (mild : Mild s a) (exponent : ℕ) : Mild (exponent * s) (a ^ exponent) := by
  refine ⟨pow_ne_zero exponent mild.1, ?_⟩
  rw [Real.log_pow, abs_mul, Nat.abs_cast]
  exact mul_le_mul_of_nonneg_left mild.2 exponent.cast_nonneg

/-- What is close to a number has about its size. -/
theorem of_close (mild : Mild s b) (close : Close t a b) : Mild (s + t) a := by
  refine ⟨close.ne_zero mild.1, ?_⟩
  have apart := close.abs_log_sub_le mild.1
  have split := abs_add_le (Real.log b) (Real.log a - Real.log b)
  rw [add_sub_cancel] at split
  linarith [mild.2]

/-- A number of a smaller size. -/
theorem mono (mild : Mild s a) (le : s ≤ t) : Mild t a := ⟨mild.1, mild.2.trans le⟩

end Mild

/-- The size of a natural number. -/
theorem mild_natCast {n : ℕ} (positive : 0 < n) : Mild n (n : ℝ) := by
  have one_le : (1 : ℝ) ≤ n := Nat.one_le_cast.mpr positive
  refine ⟨by positivity, ?_⟩
  rw [abs_of_nonneg (Real.log_nonneg one_le)]
  exact Real.log_le_self n.cast_nonneg

/-- The size of an exponential. -/
theorem mild_exp (a : ℝ) : Mild |a| (Real.exp a) := ⟨(Real.exp_pos a).ne', by rw [Real.log_exp]⟩

/-- The size of a number between two exponentials. -/
theorem mild_of_bounds (low : Real.exp (-s) ≤ |a|) (high : |a| ≤ Real.exp s) : Mild s a := by
  have positive : 0 < |a| := (Real.exp_pos _).trans_le low
  refine ⟨abs_pos.mp positive, abs_le.mpr ?_⟩
  rw [← Real.log_abs]
  exact ⟨(Real.le_log_iff_exp_le positive).mpr low, (Real.log_le_iff_le_exp positive).mpr high⟩

end Calculator
