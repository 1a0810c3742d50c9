import Calculator.Proofs.Number.AngleReduction
import Calculator.Proofs.Number.Circular
import Mathlib

/-!
# Sine and cosine of a reduced angle

The sine and the cosine take whole turns from their argument and sum a series of what is left. Where the
number of turns is known, what is left is about half a turn at most, and both series end before their
counter can wrap, unless the value vanishes among the roundings. For larger arguments the quotient by a
turn has too few digits for all of the turns, and those that are missed stay in what is left.
-/

namespace Calculator.Decimal

variable {x r : Decimal} {work : ℕ}

/-- Whether the circular series that begins with a term of a given exponent ends near a value before its
counter can wrap: after so many terms the sum is the same however many more are allowed, and the product
of the two numbers after the largest exponent that is reached fits the machine word of the counter. -/
def Converges (x start : Decimal) (exponent : UInt32) (work : ℕ) (value error : ℝ) : Prop :=
  ∃ terms : ℕ, ∃ total : Decimal,
    (2 * terms + exponent.toNat + 1) * (2 * terms + exponent.toNat + 2) < 2 ^ 32 ∧
      |total.rational - value| ≤ error ∧
      ∀ limit, terms < limit →
        sumSeries (circularTerm ((x.multiply x).withDigits work) work) work limit (start, exponent) start =
          total

/-- The size of an angle of half a turn at most. -/
theorem mild_of_angle (small : |r.real| ≤ 63 / 20) (nonzero : r.mantissa ≠ 0)
    (scale : r.scale.toInt ≤ 2 ^ 40 + 2 ^ 17) : Mild (2 ^ 42 : ℕ) r.real := by
  have apart : r.real ≠ 0 := (real_eq_zero_iff r).not.mpr nonzero
  rcases le_or_gt |r.real| 1 with below | above
  · have room : r.scale.toInt ≤ ((2 ^ 40 + 2 ^ 17 : ℕ) : ℤ) := by exact_mod_cast scale
    exact (mild_of_scale apart below room).mono (by norm_num)
  · refine ⟨apart, ?_⟩
    have logarithm := Real.log_le_sub_one_of_pos (abs_pos.mpr apart)
    rw [← Real.log_abs, abs_of_nonneg (Real.log_nonneg above.le)]
    refine logarithm.trans ?_
    norm_num
    linarith

/-- An angle of half a turn at most and the first term of one of its series. -/
theorem angle_of_reduced (small : |r.real| ≤ 63 / 20) (nonzero : r.mantissa ≠ 0)
    (scale : |r.scale.toInt| ≤ 2 ^ 40 + 2 ^ 17) (precise : 13 ≤ work) (few : work ≤ 65000)
    {first : ℕ} {start : Decimal} (first_le : first ≤ 1)
    (real_start : start.real = circularValue r.real first 0) (scale_le : |start.scale.toInt| ≤ 2 ^ 60) :
    Angle r.real first work start ((r.multiply r).withDigits work) := by
  have mild := mild_of_angle small nonzero ((le_abs_self _).trans scale)
  have product : Mild (2 ^ 43 : ℕ) (r.real * r.real) := (mild.mul mild).mono (by norm_num)
  obtain ⟨square, position⟩ := close_multiply_withDigits product (by omega) (by omega : 2 ≤ work)
    (by omega)
  rw [← sq] at square
  exact ⟨small, mild, first_le, real_start, scale_le, square, position.trans (by push_cast; omega)⟩

/-- The counter of a series that ends after enough terms does not wrap. -/
theorem enoughTerms_fits (few : work ≤ 65000) {first : ℕ} (first_le : first ≤ 1) :
    (2 * enoughTerms work + first + 1) * (2 * enoughTerms work + first + 2) < 2 ^ 32 := by
  have early : 2 * enoughTerms work + first + 2 < 2 ^ 16 := by
    unfold enoughTerms
    omega
  exact (Nat.mul_lt_mul'' (Nat.lt_of_succ_lt early) early).trans_le (by norm_num)

/-- The series of the sine of a reduced angle converges, unless the sine vanishes among the roundings. -/
theorem converges_sine (small : |r.real| ≤ 63 / 20) (scale : |r.scale.toInt| ≤ 2 ^ 40 + 2 ^ 17)
    (precise : 13 ≤ work) (few : work ≤ 65000) (nonzero : r.mantissa ≠ 0)
    (apart : 10 ^ 4 * grain (min work 100) * |r.real| ≤ |Real.sin r.real|) :
    Converges r r 1 work (Real.sin r.real) (8000 * grain (min work 100) * |r.real|) := by
  have start : r.real = circularValue r.real 1 0 := by simp [circularValue, summand]
  obtain ⟨total, near, ends⟩ := circularSum_ends
    (angle_of_reduced small nonzero scale precise few le_rfl start (scale.trans (by norm_num)))
    (hasSum_sine r.real) precise few (by rwa [← start]) 1 rfl
  rw [← start] at near
  exact ⟨enoughTerms work, total, enoughTerms_fits few le_rfl, near, ends⟩

/-- The series of the cosine of zero ends at once. -/
theorem sumSeries_cosine_zero (zero : r.mantissa = 0) (precise : 13 ≤ work) {limit : ℕ}
    (some : 0 < limit) :
    sumSeries (circularTerm ((r.multiply r).withDigits work) work) work limit (one, 0) one = one := by
  obtain ⟨limit, rfl⟩ : ∃ further, limit = further + 1 := ⟨limit - 1, by omega⟩
  have none := mantissa_withDigits_of_zero (mantissa_multiply_of_zero zero r)
    (by omega : 0 < work)
  generalize (r.multiply r).withDigits work = square at *
  have unit : one.isOne = true := by rw [isOne_iff, rational_one]
  have product : (one.multiply square).negated.mantissa = 0 := by
    rw [multiply, if_pos unit, negated, none, neg_zero]
  have term : (circularTerm square work (one, 0)).2.mantissa = 0 := by
    rw [circularTerm]
    dsimp only
    rw [divide_of_zero product]
    exact mantissa_withDigits_of_zero product (by omega)
  rw [sumSeries_succ, isNegligible, isZero, term, beq_self_eq_true, Bool.true_or, if_pos rfl]

/-- The series of the cosine of a reduced angle converges, unless the cosine vanishes among the
roundings. -/
theorem converges_cosine (small : |r.real| ≤ 63 / 20) (scale : |r.scale.toInt| ≤ 2 ^ 40 + 2 ^ 17)
    (precise : 13 ≤ work) (few : work ≤ 65000)
    (apart : 10 ^ 4 * grain (min work 100) ≤ |Real.cos r.real|) :
    Converges r one 0 work (Real.cos r.real) (8000 * grain (min work 100)) := by
  have unit := grain_pos (min work 100)
  rcases eq_or_ne r.mantissa 0 with zero | nonzero
  · refine ⟨0, one, by decide, ?_, fun limit some => sumSeries_cosine_zero zero precise some⟩
    rw [(real_eq_zero_iff r).mpr zero, Real.cos_zero, rational_one, Rat.cast_one, sub_self, abs_zero]
    positivity
  · have start : one.real = circularValue r.real 0 0 := by simp [circularValue, summand]
    have first : |circularValue r.real 0 0| = 1 := by simp [circularValue, summand]
    obtain ⟨total, near, ends⟩ := circularSum_ends
      (angle_of_reduced small nonzero scale precise few zero_le_one start (by decide))
      (hasSum_cosine r.real) precise few (by rwa [first, mul_one]) 0 rfl
    rw [first, mul_one] at near
    exact ⟨enoughTerms work, total, enoughTerms_fits few zero_le_one, near, ends⟩

/-- Up to `6 * 10 ^ 97` an angle is reduced to about half a turn at most. It is reduced at all unless it
has a thousand digits or more, and both circular series of what is left converge, to the sine and to the
cosine, before their counter can wrap, unless the value vanishes among the roundings of the terms. The
digits and the scale of the angle leave room in a machine word. -/
theorem reduceAngle_within (moderate : x.Moderate (2 ^ 40)) (bounded : |x.rational| ≤ 6 * 10 ^ 97)
    (precise : 13 ≤ work) (few : work ≤ 2 ^ 40) :
    (x.digits < 1000 → ∃ r, reduceAngle x work = .ok r) ∧
      ∀ r, reduceAngle x work = .ok r →
        |r.rational| ≤ 63 / 20 ∧
          (work ≤ 65000 →
            (10 ^ 4 * grain (min work 100) ≤ |Real.cos r.rational| →
              Converges r one 0 work (Real.cos r.rational) (8000 * grain (min work 100))) ∧
            (r.mantissa ≠ 0 →
              10 ^ 4 * grain (min work 100) * |(r.rational : ℝ)| ≤ |Real.sin r.rational| →
              Converges r r 1 work (Real.sin r.rational)
                (8000 * grain (min work 100) * |(r.rational : ℝ)|))) := by
  have turnable : Turnable x := ⟨moderate, bounded⟩
  refine ⟨exists_reduced turnable precise few, fun r answered => ?_⟩
  obtain ⟨small, scale⟩ := reduced_bounds turnable precise few answered
  refine ⟨?_, fun short => ?_⟩
  · rw [← Rat.cast_le (K := ℝ)]
    push_cast
    exact small
  · have room : |r.scale.toInt| ≤ 2 ^ 40 + 2 ^ 17 := scale.trans (by omega)
    exact ⟨converges_cosine small room precise short,
      fun nonzero apart => converges_sine small room precise short nonzero apart⟩

/-- A hundred is reduced by sixteen turns, and its cosine converges. -/
theorem reduceAngle_within_hundred :
    reduceAngle (ofNat 100) 21 = .ok ⟨-530964914873383630803, 21⟩ ∧
      |(⟨-530964914873383630803, 21⟩ : Decimal).rational| ≤ 63 / 20 ∧
      Converges ⟨-530964914873383630803, 21⟩ one 0 21
        (Real.cos (⟨-530964914873383630803, 21⟩ : Decimal).rational) (8000 * grain 21) := by
  have answered : reduceAngle (ofNat 100) 21 = .ok ⟨-530964914873383630803, 21⟩ := by decide +kernel
  have moderate : (ofNat 100).Moderate (2 ^ 40) :=
    ⟨by decide +kernel, by decide +kernel, by decide +kernel⟩
  obtain ⟨small, series⟩ := (reduceAngle_within moderate (by rw [rational_ofNat]; norm_num)
    (by decide : 13 ≤ 21) (by decide)).2 _ answered
  refine ⟨answered, small, (series (by decide)).1 ?_⟩
  have scale : (21 : Int64).toInt = 21 := rfl
  have value : ((⟨-530964914873383630803, 21⟩ : Decimal).rational : ℝ) =
      -530964914873383630803 / 10 ^ 21 := by
    rw [rational, scale]
    norm_num
  have cosine := Real.one_sub_sq_div_two_le_cos (x := -530964914873383630803 / 10 ^ 21)
  rw [value]
  refine le_trans ?_ (cosine.trans (le_abs_self _))
  norm_num [grain]

/-- The turns of a larger angle are not all known: of `10 ^ 102` more than eighty half turns are left. -/
theorem reduceAngle_far :
    ∃ r, reduceAngle ⟨1, -102⟩ 30 = .ok r ∧ ¬ |r.rational| ≤ 63 / 20 := by
  refine ⟨⟨-275800032949139887234040761142, 27⟩, by decide +kernel, ?_⟩
  have scale : (27 : Int64).toInt = 27 := rfl
  rw [rational, scale]
  norm_num [abs_of_neg]

end Calculator.Decimal
