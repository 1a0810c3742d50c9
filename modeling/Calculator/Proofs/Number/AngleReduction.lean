import Calculator.Proofs.Number.HalfTurn
import Mathlib

/-!
# Reduction of an angle

Whole turns are taken from an angle, as many as the quotient by a turn has when it is rounded to the
nearest. What is left is about half a turn at most, to either side, as long as the quotient is known to a
small part of one. A division stops at a hundred digits, so the angle must leave three of them behind
the point of the quotient. The turn itself need not be precise for that: it is the same turn by which
the angle is divided and of which multiples are taken away.
-/

namespace Calculator.Decimal

variable {x : Decimal} {work : ℕ}

/-! ## The quotient -/

/-- What is left of a number beside the multiple that a nearby quotient is rounded to. -/
theorem abs_sub_mul_floor_le {number turn quotient error : ℚ} (positive : 0 < turn)
    (near : |quotient - number / turn| ≤ error) :
    |number - turn * ⌊quotient + 1 / 2⌋| ≤ turn * (1 / 2 + error) := by
  have split : number - turn * ⌊quotient + 1 / 2⌋ =
      turn * (number / turn - ⌊quotient + 1 / 2⌋) := by
    rw [mul_sub, mul_div_cancel₀ _ positive.ne']
  have lower := Int.floor_le (quotient + 1 / 2)
  have upper := Int.lt_floor_add_one (quotient + 1 / 2)
  obtain ⟨low, high⟩ := abs_le.mp near
  rw [split, abs_mul, abs_of_pos positive]
  refine mul_le_mul_of_nonneg_left (abs_le.mpr ⟨?_, ?_⟩) positive.le <;> linarith

/-- Whether an angle is in the range in which its number of turns is known. -/
structure Turnable (x : Decimal) : Prop where
  moderate : x.Moderate (2 ^ 40)
  bounded : |x.rational| ≤ 6 * 10 ^ 97

/-- Whether a decimal is near a full turn, with a scale that has room. -/
structure FullTurn (turn : Decimal) : Prop where
  above : 626 / 100 ≤ turn.rational
  below : turn.rational ≤ 6293 / 1000
  moderate : turn.Moderate (2 ^ 40 + 97)

/-- A turn is not zero. -/
theorem FullTurn.nonzero {turn : Decimal} (full : FullTurn turn) : turn.mantissa ≠ 0 :=
  (rational_eq_zero_iff turn).not.mp (by linarith [full.above])

/-- An angle in that range has fewer than a hundred digits in front of the point. -/
theorem Turnable.exponent_le (turnable : Turnable x) : x.exponent.toInt ≤ 97 := by
  rcases eq_or_ne x.mantissa 0 with zero | nonzero
  · rw [exponent, if_pos (by simpa [isZero] using zero)]
    decide
  · obtain ⟨few, lower, upper⟩ := turnable.moderate
    have position : (x.digits : ℤ) - x.scale.toInt ≤ 98 :=
      position_le nonzero (turnable.bounded.trans_lt (by norm_num))
    rw [toInt_exponent (fun _ => by omega) nonzero]
    omega

/-- The turn that is computed for an angle. -/
def turnFor (x : Decimal) (work : ℕ) : Decimal :=
  (halfTurn (work + x.exponent.toInt.toNat)).multiply (ofNat 2)

/-- The turn that is computed for an angle is about the circumference of the unit circle. -/
theorem fullTurn_turnFor (turnable : Turnable x) (precise : 13 ≤ work) (few : work ≤ 2 ^ 40) :
    FullTurn (turnFor x work) := by
  rw [turnFor]
  have short := turnable.exponent_le
  have total : 13 ≤ work + x.exponent.toInt.toNat ∧ work + x.exponent.toInt.toNat ≤ 2 ^ 40 + 97 := by
    omega
  generalize work + x.exponent.toInt.toNat = digits at *
  obtain ⟨low, high, scale⟩ := halfTurn_bounds total.1 (by omega)
  generalize halfTurn digits = half at *
  have room : |half.scale.toInt| ≤ 2 ^ 40 + 96 := by
    rw [scale]
    exact abs_le.mpr ⟨by omega, by omega⟩
  obtain ⟨product, position⟩ := real_multiply_ofInt (x := half) 2 (by omega)
  change (half.multiply (ofNat 2)).real = half.real * 2 at product
  change |(half.multiply (ofNat 2)).scale.toInt| ≤ _ at position
  generalize half.multiply (ofNat 2) = turn at *
  have above : 626 / 100 ≤ turn.real := by linarith
  have below : turn.real ≤ 6293 / 1000 := by linarith
  rw [real] at above below
  have aboveToo : 626 / 100 ≤ turn.rational := by
    rw [← Rat.cast_le (K := ℝ)]
    push_cast
    exact above
  have belowToo : turn.rational ≤ 6293 / 1000 := by
    rw [← Rat.cast_le (K := ℝ)]
    push_cast
    exact below
  refine ⟨aboveToo, belowToo, moderate_of_abs_lt 1 ?_ (by omega) (by norm_num)⟩
  rw [abs_of_pos (by linarith)]
  norm_num
  linarith

section Quotient

variable {turn : Decimal}

/-- The quotient of an angle and a turn is known to the third digit behind the point. -/
theorem abs_divide_sub_le (turnable : Turnable x) (full : FullTurn turn) :
    |(x.divide turn).rational - x.rational / turn.rational| ≤ 1 / 2000 ∧
      |(x.divide turn).rational| < 10 ^ (97 : ℤ) := by
  have positive : 0 < turn.rational := by linarith [full.above]
  have moderate := turnable.moderate
  have small : |x.rational / turn.rational| ≤ 96 / 100 * 10 ^ 97 := by
    rw [abs_div, abs_of_pos positive, div_le_iff₀ positive]
    have scaled := mul_le_mul_of_nonneg_left full.above (by norm_num : (0 : ℚ) ≤ 96 / 100 * 10 ^ 97)
    linarith [turnable.bounded]
  rcases rational_divide (x := x) (by have := moderate.le_scale; omega)
    (by have := moderate.scale_le; omega) (full.moderate.mono (by norm_num)) full.nonzero
    with exact | rounds
  · rw [exact, sub_self, abs_zero]
    exact ⟨by norm_num, small.trans_lt (by norm_num)⟩
  · have error := rounds.error_le
    rw [le_div_iff₀ (by positivity)] at error
    have split := abs_sub_abs_le_abs_sub (x.divide turn).rational (x.rational / turn.rational)
    -- Rounding to a hundred digits does not carry the quotient to the next power of ten.
    have below : |(x.divide turn).rational| < 10 ^ (97 : ℤ) := by
      norm_num at *
      linarith
    refine ⟨(rounds.error_le_of_abs_lt below).trans ?_, below⟩
    norm_num

/-- The quotient and one half have room for the integer below their sum. -/
theorem moderate_quotient (turnable : Turnable x) (full : FullTurn turn) :
    ((x.divide turn).add half).Moderate (2 ^ 60) := by
  obtain ⟨-, below⟩ := abs_divide_sub_le turnable full
  obtain ⟨-, lower, upper⟩ := moderate_divide (turnable.moderate.mono (by norm_num))
    (full.moderate.mono (by norm_num)) full.nonzero
  have scale := abs_scale_add_le (abs_le.mpr ⟨lower, upper⟩) (y := half) (by decide)
  refine moderate_of_abs_lt 98 ?_ (by push_cast; omega) (by norm_num)
  rw [rational_add, rational_half]
  have split := abs_add_le (x.divide turn).rational (1 / 2)
  norm_num at *
  linarith

/-- An integer is found next to the quotient, unless the angle has too many digits. -/
theorem floor_quotient (turnable : Turnable x) (full : FullTurn turn) (short : x.digits < 1000) :
    ∃ n, ((x.divide turn).add half).floor = .ok n := by
  have moderate := moderate_quotient turnable full
  refine ⟨_, (floor_truncate_eq moderate.exponentFits (or_iff_not_imp_left.mpr fun large => ?_)).1⟩
  have digits := digits_divide_le x full.nonzero
  have single : half.scale.toInt = 1 := rfl
  have above := (le_commonScale (x.divide turn) half).2
  have limit : integerDigits = 1000 := rfl
  change 1 ≤ ((x.divide turn).add half).scale.toInt at above
  suffices bounded : ((x.divide turn).add half).scale.toInt ≤ 1000 by omega
  -- A quotient that is not small with one half begins at the point or to its left.
  have half_le : 1 / 2 ≤ |(x.divide turn).rational| := by
    rw [isSmall_iff moderate.exponentFits, not_and_or, not_not, ← rational_eq_zero_iff, rational_add,
      rational_half] at large
    rcases large with zero | large
    · rw [eq_neg_of_add_eq_zero_left zero, abs_neg]
      norm_num
    · have split := abs_add_le (x.divide turn).rational (1 / 2)
      norm_num at split
      linarith
  have present : (x.divide turn).mantissa ≠ 0 := by
    refine (rational_eq_zero_iff _).not.mp fun zero => ?_
    rw [zero] at half_le
    norm_num at half_le
  have powers : (10 : ℚ) ^ (-1 : ℤ) < 10 ^ (((x.divide turn).digits : ℤ) - (x.divide turn).scale.toInt) :=
    lt_of_lt_of_le (by norm_num) half_le |>.trans (rational_bounds present).2
  have position := (zpow_lt_zpow_iff_right₀ (by norm_num : (1 : ℚ) < 10)).mp powers
  have common : ((x.divide turn).add half).scale = commonScale (x.divide turn) half := rfl
  rw [common]
  unfold commonScale
  split_ifs <;> omega

end Quotient

/-! ## The reduced angle -/

/-- An angle in the range is not refused before its turns are counted. -/
theorem reduceAngle_eq (turnable : Turnable x) (work : ℕ) :
    reduceAngle x work = (do
      let turns ← ((x.divide (turnFor x work)).add half).floor
      return (x.subtract ((turnFor x work).multiply (ofInt turns))).withDigits work) := by
  have short := turnable.exponent_le
  have limit : integerDigits = 1000 := rfl
  unfold reduceAngle
  dsimp only
  rw [if_neg (by omega)]
  rfl

/-- An angle in the range is reduced, unless it has too many digits. -/
theorem exists_reduced (turnable : Turnable x) (precise : 13 ≤ work) (few : work ≤ 2 ^ 40)
    (short : x.digits < 1000) : ∃ r, reduceAngle x work = .ok r := by
  obtain ⟨n, floor⟩ := floor_quotient turnable (fullTurn_turnFor turnable precise few) short
  exact ⟨_, by rw [reduceAngle_eq turnable, floor]; rfl⟩

/-- What is left of an angle without its turns is about half a turn at most, and has a scale with
room. -/
theorem left_bounds (turnable : Turnable x) {turn : Decimal} (full : FullTurn turn) {n : ℤ}
    (floor : ((x.divide turn).add half).floor = .ok n) :
    |(x.subtract (turn.multiply (ofInt n))).rational| ≤ 3149647 / 1000000 ∧
      |(x.subtract (turn.multiply (ofInt n))).scale.toInt| ≤ 2 ^ 40 + 97 := by
  obtain ⟨-, lower, upper⟩ := turnable.moderate
  obtain ⟨-, lowerToo, upperToo⟩ := full.moderate
  -- If an integer was found at all, it is the one that is nearest to the computed quotient.
  have turns := (eq_of_floor_truncate (moderate_quotient turnable full).exponentFits).1 floor
  rw [rational_add, rational_half] at turns
  have plain : (ofInt n).scale.toInt = 0 := rfl
  have product := rational_multiply (x := turn) (y := ofInt n) (by omega) (by omega)
  have position := (real_multiply_ofInt (x := turn) n (abs_lt.mpr ⟨by omega, by omega⟩)).2
  have bound := abs_sub_mul_floor_le (by linarith [full.above]) (abs_divide_sub_le turnable full).1
  constructor
  · rw [rational_subtract, product, rational_ofInt, turns]
    linarith [full.below]
  · refine abs_scale_add_le (abs_le.mpr ⟨by omega, by omega⟩) ?_
    exact position.trans (abs_le.mpr ⟨lowerToo, upperToo⟩)

/-- The position of the leading digit of a decimal below ten whose scale is within a bound. -/
theorem abs_place_le_of_scale (size : ℕ) (below : |x.rational| < 10) (scale : |x.scale.toInt| ≤ size) :
    |x.place| ≤ size + 1 := by
  obtain ⟨lower, upper⟩ := abs_le.mp scale
  have written := x.one_le_digits
  unfold Decimal.place
  refine abs_le.mpr ⟨by omega, ?_⟩
  by_cases zero : x.mantissa = 0
  · rw [digits_of_zero zero]
    omega
  · have leading : (x.digits : ℤ) - x.scale.toInt ≤ 1 := position_le zero (by rwa [zpow_one])
    omega

/-- A reduced angle is about half a turn at most, and has a scale with room. -/
theorem reduced_bounds (turnable : Turnable x) (precise : 13 ≤ work) (few : work ≤ 2 ^ 40) {r : Decimal}
    (answered : reduceAngle x work = .ok r) :
    |r.real| ≤ 63 / 20 ∧ |r.scale.toInt| ≤ 2 ^ 40 + 98 + work := by
  rw [reduceAngle_eq turnable, Outcome.bind_eq_ok] at answered
  obtain ⟨n, floor, answered⟩ := answered
  obtain rfl := Except.ok.inj answered
  obtain ⟨left, scale⟩ := left_bounds turnable (fullTurn_turnFor turnable precise few) floor
  generalize x.subtract ((turnFor x work).multiply (ofInt n)) = rest at *
  obtain ⟨low, high⟩ := abs_le.mp
    (abs_place_le_of_scale (2 ^ 40 + 97) (left.trans_lt (by norm_num)) (by exact_mod_cast scale))
  push_cast at low high
  have rounded := (abs_withDigits_sub_le rest work (by omega) (by omega)).1
  have position : (rest.withDigits work).scale.toInt = work - rest.place := by
    unfold Decimal.place at *
    rw [toInt_scale_withDigits (x := rest) work (by omega) (by omega)]
    omega
  refine ⟨?_, by rw [position]; exact abs_le.mpr ⟨by omega, by omega⟩⟩
  have fine : grain work ≤ 1 / 10 ^ 11 := grain_le_pow (by omega)
  have exact := (Rat.cast_le (K := ℝ)).mpr left
  push_cast at exact
  change |rest.real| ≤ _ at exact
  have split := abs_sub_abs_le_abs_sub (rest.withDigits work).real rest.real
  nlinarith [abs_nonneg rest.real]

end Calculator.Decimal
