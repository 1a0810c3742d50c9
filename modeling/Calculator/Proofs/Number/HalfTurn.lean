import Calculator.Proofs.Number.OddPowers
import Mathlib

/-!
# Half a turn

Half of the circumference of the unit circle is computed from the arc tangents of a fifth and of a
239th. Whatever the number of digits is, the computed value lies between two bounds that are a
hundredth apart: the first terms of the two series alone give three digits of it, and what further
terms add is bounded by a part of the last power, however many they are.
-/

namespace Calculator.Decimal

variable {work : ℕ} {square sum : Decimal} {ratio weight first bound : ℝ}

/-! ## The summation -/

/-- However many terms of an arc tangent series are added to a first sum, the result is no further from
it than the bound. -/
theorem abs_sumSeries_sub_le (shrinking : Shrinking 5 square ratio weight) (precise : 13 ≤ work)
    (few : work ≤ 2 ^ 50) (large : 1 / 1000 + bound ≤ first) (small : first + bound ≤ 1)
    (state : (Decimal × UInt32) × Bool) (run : PowerRun work 5 first weight bound state.1 sum)
    (terms : ℕ) :
    |(sumSeries (arcTangentTerm square work) work terms state sum).real - first| ≤ bound ∧
      |(sumSeries (arcTangentTerm square work) work terms state sum).scale.toInt| ≤ 2 ^ 59 := by
  have shallow : 5 ≤ 2 ^ 56 := by norm_num
  have nonneg : 0 ≤ bound :=
    (add_nonneg (abs_nonneg _) (mul_nonneg shrinking.weight_nonneg (abs_nonneg _))).trans run.near
  have steady : Steady 5 first bound := by
    refine ⟨?_, ?_⟩ <;> rw [abs_of_pos (by linarith)]
    · norm_num at large ⊢
      linarith
    · exact small
  obtain ⟨final, -, near, scale⟩ := sumSeries_keeps (arcTangentTerm square work) work
    (fun state sum => PowerRun work 5 first weight bound state.1 sum)
    (fun run counts => run.step shrinking shallow few steady
      (nextTerm_arcTangentTerm shrinking shallow precise few _ run.extensible) counts) terms run
  have weighted := mul_nonneg shrinking.weight_nonneg (abs_nonneg final.1.1.real)
  exact ⟨(le_add_of_nonneg_right weighted).trans near, scale⟩

/-! ## The two arc tangents -/

/-- From a power between a thousandth and one with an odd exponent a next term is formed. -/
theorem extensible_of_le {state : Decimal × UInt32} (odd : state.2.toNat % 2 = 1)
    (above : 1 / 1000 ≤ state.1.real) (below : state.1.real ≤ 1)
    (scale : |state.1.scale.toInt| ≤ 2 ^ 59) : Extensible work 5 state := by
  have positive : 0 < state.1.real := by linarith
  refine ⟨odd, ?_, ?_, scale⟩ <;> rw [abs_of_pos positive]
  · refine le_trans (zpow_le_zpow_right₀ (by norm_num) ?_ : _ ≤ (10 : ℝ) ^ (-5 : ℤ)) ?_
    · push_cast
      omega
    · norm_num
      linarith
  · exact below

/-- The arc tangent of a number near a 239th is about that number. -/
theorem arcTangentSeries_small {x : Decimal} (close : |x.real - 1 / 239| ≤ 1 / 10 ^ 10)
    (scale : |x.scale.toInt| ≤ 2 ^ 57) (precise : 13 ≤ work) (few : work ≤ 2 ^ 50) :
    |(arcTangentSeries x work).real - 1 / 239| ≤ 1 / 10 ^ 6 ∧
      |(arcTangentSeries x work).scale.toInt| ≤ 2 ^ 59 := by
  obtain ⟨low, high⟩ := abs_le.mp close
  have positive : 0 < x.real := by linarith
  have product : Mild (15 : ℕ) (x.real * x.real) := by
    refine (mild_of_le_one 5 ?_ ?_).mono (by norm_num) <;> rw [abs_of_pos (mul_pos positive positive)]
    · norm_num
      nlinarith
    · nlinarith
  obtain ⟨square, position⟩ := close_multiply_withDigits (x := x) (y := x) product (by omega)
    (by omega : 2 ≤ work) (by omega)
  have fine : grain work ≤ 1 / 10 ^ 11 := grain_le_pow (by omega)
  have near := square.abs_sub_le (by linarith)
  rw [abs_of_pos (mul_pos positive positive)] at near
  obtain ⟨lowToo, highToo⟩ := abs_le.mp near
  have shrinking : Shrinking 5 ((x.multiply x).withDigits work) (1 / 50000) (1 / 40000) := by
    refine ⟨?_, ?_, position.trans (by push_cast; omega), by norm_num, by norm_num, by norm_num⟩
    · norm_num
      nlinarith
    · nlinarith
  have run : PowerRun work 5 x.real (1 / 40000) (1 / 10 ^ 6 / 2) (x, 1) x := by
    refine ⟨extensible_of_le rfl (by linarith) (by linarith) (scale.trans (by norm_num)), ?_,
      by omega⟩
    rw [sub_self, abs_zero, zero_add, abs_of_pos positive]
    linarith
  obtain ⟨apart, scale⟩ := abs_sumSeries_sub_le shrinking precise few (by linarith) (by linarith)
    ((x, 1), true) run seriesTerms
  refine ⟨?_, scale⟩
  refine (abs_sub_le _ x.real _).trans ?_
  exact (add_le_add apart close).trans (by norm_num)

/-- A fifth, as the decimal that it is written as. -/
theorem real_fifth : (⟨2, 1⟩ : Decimal).real = 1 / 5 := by
  have one : (1 : Int64).toInt = 1 := rfl
  rw [real, rational, one]
  norm_num

section Fifth

variable {x : Decimal} (fifth : x.real = 1 / 5) (scale : x.scale.toInt = 1)
include fifth

/-- The second term of the series for a fifth counts. -/
theorem fifth_counts {last : ℝ} {next : ((Decimal × UInt32) × Bool) × Decimal}
    (following : NextTerm ratio last next.1.1 next.2) (precise : 13 ≤ work) (few : work ≤ 2 ^ 50)
    (term : |next.2.real + 1 / 375| ≤ 1 / 10 ^ 6) : ¬ isNegligible next.2 x work = true := by
  have nonzero : x.mantissa ≠ 0 := (real_eq_zero_iff x).not.mp (by rw [fifth]; norm_num)
  have left : -1 < x.place := lt_place_of_le_abs nonzero (by rw [fifth]; norm_num [abs_of_pos])
  have right : x.place ≤ 0 := place_le_of_abs_lt nonzero (by rw [fifth]; norm_num [abs_of_pos])
  have reaches : -3 < next.2.place := by
    have high := (abs_le.mp term).2
    refine lt_place_of_le_abs following.nonzero ?_
    rw [abs_of_neg (by linarith)]
    norm_num
    linarith
  rw [isNegligible_iff following.nonzero nonzero following.place_le (abs_le.mpr ⟨by omega, by omega⟩)
    (by omega)]
  omega

include scale

/-- A fifth is the first power of its series. -/
theorem extensible_fifth : Extensible work 5 (x, 1) :=
  extensible_of_le rfl (by rw [fifth]; norm_num) (by rw [fifth]; norm_num) (by rw [scale]; norm_num)

/-- The power and the term that follow a fifth in its series are about `1 / 125` and `-1 / 375`. -/
theorem fifth_next (precise : 13 ≤ work) (few : work ≤ 2 ^ 50) :
    Shrinking 5 ((x.multiply x).withDigits work) (41 / 1000) (11 / 250) ∧
      |(arcTangentTerm ((x.multiply x).withDigits work) work ((x, 1), true)).1.1.1.real - 1 / 125| ≤
        1 / 10 ^ 6 ∧
      |(arcTangentTerm ((x.multiply x).withDigits work) work ((x, 1), true)).2.real + 1 / 375| ≤
        1 / 10 ^ 6 := by
  have product : Mild (6 : ℕ) (x.real * x.real) := by
    rw [fifth]
    exact (mild_of_le_one 2 (by norm_num) (by norm_num)).mono (by norm_num)
  obtain ⟨square, position⟩ := close_multiply_withDigits (x := x) (y := x) product
    (by rw [scale]; norm_num) (by omega : 2 ≤ work) (by omega)
  have fine : grain work ≤ 1 / 10 ^ 11 := grain_le_pow (by omega)
  have fineToo : grain (min work 100) ≤ 1 / 10 ^ 11 := grain_le_pow (by omega)
  have unit := grain_pos work
  have unitToo := grain_pos (min work 100)
  have twentyFifth : x.real * x.real = 1 / 25 := by
    rw [fifth]
    norm_num
  rw [twentyFifth] at square
  have shrinking : Shrinking 5 ((x.multiply x).withDigits work) (41 / 1000) (11 / 250) := by
    obtain ⟨low, high⟩ := abs_le.mp (square.abs_sub_le (by linarith))
    rw [abs_of_pos (by norm_num)] at low high
    refine ⟨?_, ?_, position.trans (by push_cast; omega), by norm_num, by norm_num, by norm_num⟩
    · norm_num
      linarith
    · linarith
  have extensible : Extensible work 5 (x, 1) := extensible_fifth fifth scale
  have shallow : 5 ≤ 2 ^ 56 := by norm_num
  have power := (close_power shrinking shallow (by omega) few extensible).1.trans
    ((Close.refl x.real).mul square)
  have quotient := (close_term shrinking shallow (by omega) few extensible).1
  have exponent : (oddPowerTerm ((x.multiply x).withDigits work) work (x, 1)).1.2.toNat = 3 := rfl
  rw [exponent] at quotient
  have term := (quotient.trans (power.div (Close.refl ((3 : ℕ) : ℝ)))).neg
  have next : arcTangentTerm ((x.multiply x).withDigits work) work ((x, 1), true) =
      (((oddPowerTerm ((x.multiply x).withDigits work) work (x, 1)).1, false),
        (oddPowerTerm ((x.multiply x).withDigits work) work (x, 1)).2.negated) := rfl
  have nearPower := power.abs_sub_le (by linarith)
  have nearTerm := term.abs_sub_le (by linarith)
  rw [fifth] at nearPower nearTerm
  rw [next, real_negated]
  norm_num at nearPower nearTerm ⊢
  exact ⟨shrinking, by linarith, by linarith⟩

end Fifth

/-- The arc tangent of a fifth is about the first two terms of its series. -/
theorem arcTangentSeries_fifth (precise : 13 ≤ work) (few : work ≤ 2 ^ 50) :
    |(arcTangentSeries ⟨2, 1⟩ work).real - 74 / 375| ≤ 36 / 10 ^ 5 ∧
      |(arcTangentSeries ⟨2, 1⟩ work).scale.toInt| ≤ 2 ^ 59 := by
  have fifth := real_fifth
  have scaleFifth : (⟨2, 1⟩ : Decimal).scale.toInt = 1 := rfl
  rw [arcTangentSeries, show seriesTerms = 4294967295 + 1 from rfl]
  generalize (⟨2, 1⟩ : Decimal) = x at *
  obtain ⟨shrinking, power, term⟩ := fifth_next fifth scaleFifth precise few
  generalize (x.multiply x).withDigits work = square at *
  have extensible : Extensible work 5 (x, 1) := extensible_fifth fifth scaleFifth
  have following := nextTerm_arcTangentTerm shrinking (by norm_num) precise few ((x, 1), true)
    extensible
  rw [sumSeries_succ]
  generalize arcTangentTerm square work ((x, 1), true) = next at *
  rw [if_neg (fifth_counts fifth following precise few term)]
  obtain ⟨low, high⟩ := abs_le.mp power
  obtain ⟨lowToo, highToo⟩ := abs_le.mp term
  have value : (x.add next.2).real = 1 / 5 + next.2.real := by rw [real_add, fifth]
  have run : PowerRun work 5 (1 / 5 + next.2.real) (11 / 250) (353 / 10 ^ 6) next.1.1
      (x.add next.2) := by
    refine ⟨extensible_of_le following.odd (by linarith) (by linarith) following.scale_power_le, ?_,
      abs_scale_add_le ?_ following.scale_term_le⟩
    · rw [value, sub_self, abs_zero, zero_add, abs_of_pos (by linarith)]
      linarith
    · rw [scaleFifth]
      norm_num
  obtain ⟨apart, scale⟩ := abs_sumSeries_sub_le shrinking precise few (by linarith) (by linarith)
    next.1 run 4294967295
  refine ⟨?_, scale⟩
  obtain ⟨below, above⟩ := abs_le.mp apart
  exact abs_le.mpr ⟨by linarith, by linarith⟩

/-! ## Half a turn -/

/-- The 239th, computed to so many digits. -/
theorem small_close (precise : 13 ≤ work) (few : work ≤ 2 ^ 50) :
    |((one.divide (ofNat 239)).withDigits work).real - 1 / 239| ≤ 1 / 10 ^ 10 ∧
      |((one.divide (ofNat 239)).withDigits work).scale.toInt| ≤ 2 ^ 57 := by
  have reciprocal : Mild (9 : ℕ) (one.real / (ofNat 239).real) := by
    rw [real_one, real_ofNat]
    exact (mild_of_le_one 3 (by norm_num [abs_of_pos]) (by norm_num [abs_of_pos])).mono (by norm_num)
  obtain ⟨close, position⟩ := close_divide_withDigits_min reciprocal
    (by decide) (by decide +kernel) (by omega : 2 ≤ work) (by omega)
  have fine : grain (min work 100) ≤ 1 / 10 ^ 11 := grain_le_pow (by omega)
  have near := close.abs_sub_le (by linarith)
  rw [real_one, real_ofNat] at near
  refine ⟨?_, position.trans (by push_cast; omega)⟩
  norm_num at near ⊢
  linarith

/-- Half a turn is what the two arc tangents give, rounded. -/
theorem halfTurn_eq {digits : ℕ} (precise : 13 ≤ digits) (few : digits ≤ 2 ^ 49) :
    ∃ difference : Decimal, halfTurn digits = difference.withDigits digits ∧
      3134 / 1000 ≤ difference.real ∧ difference.real ≤ 31464 / 10000 ∧
      |difference.scale.toInt| ≤ 2 ^ 59 := by
  obtain ⟨close, position⟩ := small_close (by omega : 13 ≤ digits + 6) (by omega)
  obtain ⟨nearLarge, scaleLarge⟩ := arcTangentSeries_fifth (by omega : 13 ≤ digits + 6) (by omega)
  obtain ⟨nearSmall, scaleSmall⟩ := arcTangentSeries_small close position
    (by omega : 13 ≤ digits + 6) (by omega)
  refine ⟨_, rfl, ?_⟩
  generalize arcTangentSeries ⟨2, 1⟩ (digits + 6) = large at *
  generalize arcTangentSeries _ (digits + 6) = small at *
  obtain ⟨productLarge, shiftLarge⟩ := real_multiply_ofInt (x := large) 16 (by omega)
  obtain ⟨productSmall, shiftSmall⟩ := real_multiply_ofInt (x := small) 4 (by omega)
  obtain ⟨low, high⟩ := abs_le.mp nearLarge
  obtain ⟨lowToo, highToo⟩ := abs_le.mp nearSmall
  have value : ((large.multiply (ofNat 16)).subtract (small.multiply (ofNat 4))).real =
      16 * large.real - 4 * small.real := by
    rw [real_subtract]
    change (large.multiply (ofInt 16)).real - (small.multiply (ofInt 4)).real = _
    rw [productLarge, productSmall]
    push_cast
    ring
  rw [value]
  refine ⟨by linarith, by linarith, abs_scale_add_le (shiftLarge.trans scaleLarge) ?_⟩
  exact shiftSmall.trans scaleSmall

/-- Half a turn, computed to thirteen digits or more, is near three and a seventh. -/
theorem halfTurn_bounds {digits : ℕ} (precise : 13 ≤ digits) (few : digits ≤ 2 ^ 49) :
    313 / 100 ≤ (halfTurn digits).real ∧ (halfTurn digits).real ≤ 31465 / 10000 ∧
      (halfTurn digits).scale.toInt = digits - 1 := by
  obtain ⟨difference, form, low, high, scale⟩ := halfTurn_eq precise few
  have magnitude : |difference.real| = difference.real := abs_of_pos (by linarith)
  have nonzero : difference.mantissa ≠ 0 := (real_eq_zero_iff _).not.mp (by linarith)
  have above : 0 < difference.place := by
    refine lt_place_of_le_abs nonzero ?_
    rw [magnitude, zpow_zero]
    linarith
  have below : difference.place ≤ 1 := by
    refine place_le_of_abs_lt nonzero ?_
    rw [magnitude, zpow_one]
    linarith
  have rounded := (abs_withDigits_sub_le difference digits (by omega) (by omega)).1
  have position := toInt_scale_withDigits (x := difference) digits
    (by rw [place] at *; omega) (by rw [place] at *; omega)
  have fine : grain digits ≤ 1 / 10 ^ 11 := grain_le_pow (by omega)
  rw [magnitude] at rounded
  obtain ⟨lowToo, highToo⟩ := abs_le.mp (rounded.trans (mul_le_mul_of_nonneg_right fine (by linarith)))
  rw [form]
  refine ⟨by linarith, by linarith, ?_⟩
  rw [position]
  rw [place] at above below
  omega

end Calculator.Decimal
