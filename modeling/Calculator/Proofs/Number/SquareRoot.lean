import Calculator.Proofs.Number.Root
import Calculator.Proofs.Number.Working
import Mathlib

/-!
# Square roots of decimals

The mantissa is filled up with zeros, its root is taken as that of a whole number, and the root is
rounded to a hundred digits. The place of the point is found by halving the position of the leading
digit, so the zeros have to make the scale even: they do, unless the mantissa has more digits than are
wanted and an odd number of them.
-/

namespace Calculator

/-- A number between two neighbouring powers of ten has the digits of the smaller one. -/
theorem Digits.count_eq_of_bounds {number further : ℕ} (lower : 10 ^ further ≤ number)
    (upper : number < 10 ^ (further + 1)) : count number = further + 1 := by
  have positive : 0 < number := (Nat.pow_pos (by decide)).trans_le lower
  refine le_antisymm ((count_le_iff number _ positive).mpr upper) ?_
  by_contra fewer
  exact absurd ((count_le_iff number further positive).mp (by omega)) (by omega)

namespace Decimal

variable {x : Decimal}

/-- Rounding to so many digits drops the excess and is off by half of a unit at most. -/
theorem roundHalfEven_spec (number count : ℕ) :
    (roundHalfEven number count).2 = Digits.count number - count ∧
      2 * number ≤ (2 * (roundHalfEven number count).1 + 1) * 10 ^ (Digits.count number - count) ∧
      2 * ((roundHalfEven number count).1 * 10 ^ (Digits.count number - count)) ≤
        2 * number + 10 ^ (Digits.count number - count) := by
  have unit : tenTo (Digits.count number - count) = 10 ^ (Digits.count number - count) := rfl
  have positive : 0 < 10 ^ (Digits.count number - count) := Nat.pow_pos (by decide)
  have division := Nat.div_add_mod number (10 ^ (Digits.count number - count))
  have below := Nat.mod_lt number positive
  rw [Nat.mul_comm] at division
  simp only [roundHalfEven, unit]
  generalize 10 ^ (Digits.count number - count) = power at *
  generalize number / power = quotient at *
  split_ifs with up
  · have enough : power ≤ 2 * (number % power) := by
      simp only [Bool.or_eq_true, decide_eq_true_eq, Bool.and_eq_true] at up
      omega
    have once : (quotient + 1) * power = quotient * power + power := by ring
    have twice : (2 * (quotient + 1) + 1) * power = 2 * (quotient * power) + 3 * power := by ring
    refine ⟨rfl, ?_, ?_⟩ <;> dsimp only <;> omega
  · have few : 2 * (number % power) ≤ power := by
      simp only [Bool.or_eq_true, decide_eq_true_eq, Bool.and_eq_true] at up
      omega
    have twice : (2 * quotient + 1) * power = 2 * (quotient * power) + power := by ring
    refine ⟨rfl, ?_, ?_⟩ <;> dsimp only <;> omega

/-- The root of a whole number, rounded down, is the number up to the next square. -/
theorem floorRoot_bounds (value : ℕ) :
    floorRoot 2 value ^ 2 ≤ value ∧ value < (floorRoot 2 value + 1) ^ 2 := by
  rw [floorRoot_eq_nthRoot two_ne_zero]
  exact ⟨Nat.pow_nthRoot_le (by norm_num), Nat.lt_pow_nthRoot_add_one (by norm_num) value⟩

/-- The root of a whole number, rounded down, has half as many digits. -/
theorem count_floorRoot {value : ℕ} (positive : 0 < value) :
    Digits.count (floorRoot 2 value) = (Digits.count value - 1) / 2 + 1 := by
  obtain ⟨further, counted⟩ := Digits.count_succ value
  obtain ⟨below, above⟩ := floorRoot_bounds value
  obtain ⟨lower, upper⟩ := Digits.count_bounds value positive
  rw [counted, Nat.add_sub_cancel] at lower ⊢
  rw [counted] at upper
  have large : 10 ^ (further / 2) ≤ floorRoot 2 value := by
    have square : (10 ^ (further / 2)) ^ 2 ≤ value := by
      rw [← Nat.pow_mul]
      exact (Nat.pow_le_pow_right (by decide) (by omega)).trans lower
    exact Nat.lt_succ_iff.mp (lt_of_pow_lt_pow_left₀ 2 (Nat.zero_le _) (square.trans_lt above))
  have small : floorRoot 2 value < 10 ^ (further / 2 + 1) := by
    have square : value < (10 ^ (further / 2 + 1)) ^ 2 := by
      rw [← Nat.pow_mul]
      exact upper.trans_le (Nat.pow_le_pow_right (by decide) (by omega))
    exact lt_of_pow_lt_pow_left₀ 2 (Nat.zero_le _) (below.trans_lt square)
  exact Digits.count_eq_of_bounds large small

/-- Zeros behind a number are as many digits more. -/
theorem count_tenTo {number : ℕ} (positive : 0 < number) (zeros : ℕ) :
    Digits.count (number * tenTo zeros) = Digits.count number + zeros := by
  obtain ⟨further, counted⟩ := Digits.count_succ number
  obtain ⟨lower, upper⟩ := Digits.count_bounds number positive
  rw [counted] at lower upper ⊢
  rw [Nat.add_right_comm]
  refine Digits.count_eq_of_bounds ?_ ?_
  · rw [Nat.pow_add]
    exact Nat.mul_le_mul_right _ lower
  · rw [Nat.add_right_comm, Nat.pow_add]
    exact Nat.mul_lt_mul_of_pos_right upper (Nat.pow_pos (by decide))

/-- A number without excess digits is filled up to exactly so many. -/
theorem digits_withDigits_of_le (nonzero : x.mantissa ≠ 0) {count : ℕ} (enough : x.digits ≤ count) :
    (x.withDigits count).digits = count := by
  rw [withDigits, if_neg (not_lt.mpr enough), digits, (mantissa_tenTo _ _).1]
  change Digits.count (x.mantissa.natAbs * tenTo (count - x.digits)) = count
  rw [count_tenTo (Int.natAbs_pos.mpr nonzero)]
  exact Nat.add_sub_cancel' enough

/-- Whether the zeros make the scale even: the mantissa has no more than the digits that are wanted,
or an even number of them. -/
def EvenlyScaled (x : Decimal) : Prop := x.digits ≤ 210 ∨ Even x.digits

/-- The zeros by which the mantissa is filled up before the root is taken. -/
def rootZeros (x : Decimal) : ℕ :=
  (2 * (quotientDigits + 5) - x.digits) + (if x.place % 2 = 0 then 0 else 1)

/-- The root of the mantissa that is filled up, rounded down. -/
def wholeRoot (x : Decimal) : ℕ := floorRoot 2 (x.mantissa.natAbs * tenTo x.rootZeros)

/-- The scale of the root after it is rounded to a hundred digits. -/
def rootScale (x : Decimal) : ℤ := (2 * quotientDigits - x.place) / 2

/-- The digits of the root of the filled mantissa. -/
theorem count_wholeRoot (positive : 0 < x.mantissa) :
    Digits.count x.wholeRoot = (x.digits + x.rootZeros - 1) / 2 + 1 := by
  have some : 0 < x.mantissa.natAbs := Int.natAbs_pos.mpr positive.ne'
  have several : 0 < x.mantissa.natAbs * tenTo x.rootZeros :=
    Nat.mul_pos some (Nat.pow_pos (by decide))
  rw [wholeRoot, count_floorRoot several, count_tenTo some]
  rfl

/-- The root has so many digits that five or more are dropped. -/
theorem wholeRoot_excess (positive : 0 < x.mantissa) : 105 ≤ Digits.count x.wholeRoot := by
  have hundred : quotientDigits = 100 := rfl
  have written := x.one_le_digits
  rw [count_wholeRoot positive, rootZeros]
  split_ifs <;> omega

/-- The zeros make the scale even, and the root has half of it. -/
theorem two_mul_rootScale (positive : 0 < x.mantissa) (even : x.EvenlyScaled) :
    2 * (x.rootScale + ((Digits.count x.wholeRoot - 100 : ℕ) : ℤ)) = x.scale.toInt + x.rootZeros := by
  have hundred : quotientDigits = 100 := rfl
  have written := x.one_le_digits
  have parity : ∃ k, x.digits ≤ 210 ∨ x.digits = k + k := by
    rcases even with few | ⟨k, doubled⟩
    · exact ⟨0, .inl few⟩
    · exact ⟨k, .inr doubled⟩
  obtain ⟨k, parity⟩ := parity
  rw [count_wholeRoot positive, rootZeros, rootScale, place]
  split_ifs <;> omega

/-- The root of the filled mantissa, rounded to a hundred digits, lies between the powers of ten. -/
theorem rounded_wholeRoot_bounds (positive : 0 < x.mantissa) :
    10 ^ 99 ≤ (roundHalfEven x.wholeRoot 100).1 ∧ (roundHalfEven x.wholeRoot 100).1 ≤ 10 ^ 100 := by
  have long := wholeRoot_excess positive
  have present : 0 < x.wholeRoot := by
    refine Nat.pos_of_ne_zero fun none => ?_
    have single : Digits.count 0 = 1 := by simp [Digits.count]
    rw [none, single] at long
    omega
  obtain ⟨excess, counted⟩ : ∃ excess, Digits.count x.wholeRoot = 100 + excess :=
    ⟨Digits.count x.wholeRoot - 100, by omega⟩
  obtain ⟨-, upper, lower⟩ := roundHalfEven_spec x.wholeRoot 100
  obtain ⟨large, small⟩ := Digits.count_bounds x.wholeRoot present
  have power : 0 < 10 ^ excess := Nat.pow_pos (by decide)
  have split : 100 + excess - 1 = 99 + excess := by omega
  rw [counted, Nat.add_sub_cancel_left] at upper lower
  rw [counted, split, Nat.pow_add] at large
  rw [counted, Nat.pow_add] at small
  generalize (roundHalfEven x.wholeRoot 100).1 = rounded at *
  generalize 10 ^ excess = unit at *
  constructor
  · have enough : 2 * 10 ^ 99 * unit ≤ (2 * rounded + 1) * unit := by linarith
    have below := Nat.le_of_mul_le_mul_right enough power
    omega
  · have enough : 2 * rounded * unit < (2 * 10 ^ 100 + 1) * unit := by linarith
    have below := Nat.lt_of_mul_lt_mul_right enough
    omega

/-- The square root of a number other than one is the root of the filled mantissa, rounded to a
hundred digits. -/
theorem squareRoot_eq (positive : 0 < x.mantissa) (plural : x.rational ≠ 1) :
    x.squareRoot = ⟨(roundHalfEven x.wholeRoot 100).1, Int64.ofInt x.rootScale⟩ := by
  have hundred : quotientDigits = 100 := rfl
  have present : x.isZero = false := by simpa [isZero] using positive.ne'
  have other : x.isOne = false := Bool.eq_false_iff.mpr ((isOne_iff x).not.mpr plural)
  have form : x.squareRoot = ⟨(roundHalfEven x.wholeRoot 100).1,
      Int64.ofInt (Int.fdiv (2 * quotientDigits - x.place) 2 +
        (Digits.count x.wholeRoot - quotientDigits : ℕ) - (roundHalfEven x.wholeRoot 100).2)⟩ := by
    rw [squareRoot, present, other]
    rfl
  rwa [(roundHalfEven_spec x.wholeRoot 100).1, hundred, add_sub_cancel_right,
    Int.fdiv_eq_ediv_of_nonneg _ (by omega)] at form

/-- The square root of a number other than one has no more than a digit beyond the hundred. -/
theorem digits_squareRoot_le (positive : 0 < x.mantissa) (plural : x.rational ≠ 1) :
    x.squareRoot.digits ≤ 101 ∧ x.squareRoot.mantissa ≠ 0 := by
  obtain ⟨large, small⟩ := rounded_wholeRoot_bounds positive
  have present : 0 < (roundHalfEven x.wholeRoot 100).1 := (Nat.pow_pos (by decide)).trans_le large
  rw [squareRoot_eq positive plural, digits, Int.natAbs_natCast]
  refine ⟨(Digits.count_le_iff _ _ present).mpr (small.trans_lt ?_), Int.natCast_ne_zero.mpr present.ne'⟩
  exact Nat.pow_lt_pow_right (by decide) (by decide)

/-- The scale of the root as a machine word. -/
theorem toInt_rootScale (near : |x.place| ≤ 2 ^ 60) :
    (Int64.ofInt x.rootScale).toInt = x.rootScale := by
  have hundred : quotientDigits = 100 := rfl
  obtain ⟨low, high⟩ := abs_le.mp near
  rw [Int64.toInt_ofInt, rootScale]
  refine Int.bmod_eq_of_le ?_ ?_
  · change -2 ^ 63 ≤ _
    omega
  · change _ < (2 : ℤ) ^ 63
    omega

/-- What the square root of a number other than one denotes. -/
theorem real_squareRoot (positive : 0 < x.mantissa) (plural : x.rational ≠ 1)
    (near : |x.place| ≤ 2 ^ 60) :
    x.squareRoot.real = (roundHalfEven x.wholeRoot 100).1 * 10 ^ (-x.rootScale) := by
  rw [squareRoot_eq positive plural, real, rational, toInt_rootScale near]
  push_cast
  rfl

/-- A number is the filled mantissa times a square of a power of ten. -/
theorem real_eq_filled (positive : 0 < x.mantissa) (even : x.EvenlyScaled) :
    x.real = (x.mantissa.natAbs * tenTo x.rootZeros : ℕ) *
      (10 ^ (-(x.rootScale + ((Digits.count x.wholeRoot - 100 : ℕ) : ℤ)))) ^ 2 := by
  have magnitude : x.rational = x.mantissa.natAbs * 10 ^ (-x.scale.toInt) := by
    rw [← abs_rational, abs_of_pos ((rational_pos_iff x).mpr positive)]
  have half := two_mul_rootScale positive even
  generalize x.rootScale + ((Digits.count x.wholeRoot - 100 : ℕ) : ℤ) = scale at *
  have power : ((tenTo x.rootZeros : ℕ) : ℝ) = 10 ^ (x.rootZeros : ℤ) := by
    rw [zpow_natCast]
    exact_mod_cast rfl
  have shifted : (10 : ℝ) ^ (-x.scale.toInt) =
      10 ^ (x.rootZeros : ℤ) * 10 ^ (-scale * ((2 : ℕ) : ℤ)) := by
    rw [← zpow_add₀ (by norm_num)]
    congr 1
    omega
  rw [real, magnitude, Nat.cast_mul, power, ← zpow_natCast (10 ^ (-scale)), ← zpow_mul, mul_assoc,
    ← shifted, Rat.cast_mul, Rat.cast_natCast, Rat.cast_zpow, Rat.cast_ofNat]

/-- The square root is close to the square root. -/
theorem close_squareRoot (positive : 0 < x.mantissa) (even : x.EvenlyScaled)
    (near : |x.place| ≤ 2 ^ 60) : Close (grain 99) x.squareRoot.real √x.real := by
  by_cases single : x.rational = 1
  · have value := (real_eq_one_iff x).mpr single
    rw [squareRoot, (isOne_iff x).mpr single, Bool.or_true, if_pos rfl, value, Real.sqrt_one]
    exact (Close.refl 1).mono (grain_pos 99).le
  have long := wholeRoot_excess positive
  have several : 5 ≤ Digits.count x.wholeRoot - 100 := by omega
  have large : 10 ^ (99 + (Digits.count x.wholeRoot - 100)) ≤ x.wholeRoot := by
    have present : 0 < x.wholeRoot := by
      refine Nat.pos_of_ne_zero fun none => ?_
      have single : Digits.count 0 = 1 := by simp [Digits.count]
      rw [none, single] at long
      omega
    exact (Nat.pow_le_pow_right (by decide) (by omega)).trans (Digits.count_bounds _ present).1
  obtain ⟨below, above⟩ := floorRoot_bounds (x.mantissa.natAbs * tenTo x.rootZeros)
  rw [← wholeRoot] at below above
  obtain ⟨-, upper, lower⟩ := roundHalfEven_spec x.wholeRoot 100
  rw [real_squareRoot positive single near, real_eq_filled positive even]
  generalize (roundHalfEven x.wholeRoot 100).1 = rounded at *
  generalize x.mantissa.natAbs * tenTo x.rootZeros = value at *
  generalize Digits.count x.wholeRoot - 100 = excess at *
  generalize x.wholeRoot = root at *
  generalize x.rootScale = scale
  have unit : (0 : ℝ) < 10 ^ (-(scale + excess)) := zpow_pos (by norm_num) _
  have split : (10 : ℝ) ^ (-scale) = 10 ^ excess * 10 ^ (-(scale + excess)) := by
    rw [← zpow_natCast, ← zpow_add₀ (by norm_num)]
    congr 1
    ring
  rw [Real.sqrt_mul value.cast_nonneg, Real.sqrt_sq unit.le, split, ← mul_assoc]
  refine (Close.mul ?_ (Close.refl _)).mono (add_zero _).le
  have rootBelow : (root : ℝ) ≤ √value := Real.le_sqrt_of_sq_le (by exact_mod_cast below)
  have rootAbove : √value ≤ root + 1 :=
    Real.sqrt_le_iff.mpr ⟨by positivity, by exact_mod_cast above.le⟩
  have power : (10 : ℝ) ^ 5 ≤ 10 ^ excess := pow_le_pow_right₀ (by norm_num) several
  have large : (10 : ℝ) ^ 99 * 10 ^ excess ≤ root := by
    rw [← pow_add]
    exact_mod_cast large
  have upper : 2 * (root : ℝ) ≤ (2 * rounded + 1) * 10 ^ excess := by exact_mod_cast upper
  have lower : 2 * ((rounded : ℝ) * 10 ^ excess) ≤ 2 * root + 10 ^ excess := by exact_mod_cast lower
  -- Rounding moves the root by half of a unit, and cutting it to a whole number by less than one.
  have near : |rounded * 10 ^ excess - √value| ≤ 1 / 10 ^ 99 * |√value| := by
    rw [abs_of_nonneg (Real.sqrt_nonneg _), one_div_mul_eq_div, le_div_iff₀ (by norm_num)]
    have moved : |rounded * 10 ^ excess - √value| ≤ 10 ^ excess := abs_le.mpr ⟨by linarith, by linarith⟩
    nlinarith
  refine (close_of_abs_sub_le (by norm_num) (by norm_num) near).mono ?_
  norm_num [grain]

end Decimal

end Calculator
