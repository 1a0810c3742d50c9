import Calculator.Proofs.Number.Comparison
import Calculator.Proofs.Number.Nearest
import Calculator.Proofs.Number.Quotient
import Mathlib

/-!
# Remainders

The remainder of two numbers is what is left of the first one when an integral multiple of the second
one is taken away: the quotient is rounded down, so that the remainder has the sign of the divisor, or
toward zero, so that it has the sign of the dividend. For exact numbers the quotient is exact. For
decimals it is rounded twice before, to the hundred digits of a division and to the digits of the
computation. Neither of the two passes an integer, so the remainder is the exact one as long as the
digits of the computation are no more than a division gives, and the quotient is not so close to an
integer that rounding makes it one.
-/

namespace Calculator

/-! ## Integral parts -/

/-- The integer that a quotient is rounded to for a remainder. -/
def integralPart (down : Bool) (q : ℚ) : ℤ := if down then ⌊q⌋ else truncated q

/-- What is left of a number beside its integral part has the sign of the number if that is rounded
toward zero. -/
theorem sub_truncated (q : ℚ) :
    |q - truncated q| < 1 ∧ 0 ≤ (q - truncated q) * q ∧ (q = 0 → q - truncated q = 0) := by
  unfold truncated
  split_ifs with nonneg
  · have rest := Int.fract_nonneg q
    rw [Int.self_sub_floor, abs_of_nonneg rest]
    refine ⟨Int.fract_lt_one q, mul_nonneg rest nonneg, ?_⟩
    rintro rfl
    exact Int.fract_zero
  · have above := Int.le_ceil q
    have below := Int.ceil_lt_add_one q
    rw [abs_of_nonpos (by linarith)]
    refine ⟨by linarith, mul_nonneg_of_nonpos_of_nonpos (by linarith) (by linarith), ?_⟩
    intro zero
    exact absurd zero.ge nonneg

/-- A remainder is smaller than the divisor. It has the sign of the divisor if the quotient is
rounded down, and that of the dividend if it is rounded toward zero. -/
theorem remainder_bounds (down : Bool) (p : ℚ) {q : ℚ} (nonzero : q ≠ 0) :
    |p - q * integralPart down (p / q)| < |q| ∧
      0 ≤ (p - q * integralPart down (p / q)) * (if down then q else p) ∧
      ((if down then q else p) = 0 → p - q * integralPart down (p / q) = 0) := by
  have split : p - q * integralPart down (p / q) = q * (p / q - integralPart down (p / q)) := by
    rw [mul_sub, mul_div_cancel₀ _ nonzero]
  have dividend : p = q * (p / q) := (mul_div_cancel₀ p nonzero).symm
  have magnitude : 0 < |q| := abs_pos.mpr nonzero
  rw [split, abs_mul]
  cases down with
  | true =>
    have rest := Int.fract_nonneg (p / q)
    simp only [integralPart, if_true, Int.self_sub_floor]
    refine ⟨?_, ?_, fun zero => absurd zero nonzero⟩
    · rw [abs_of_nonneg rest]
      exact mul_lt_of_lt_one_right magnitude (Int.fract_lt_one _)
    · rw [mul_right_comm]
      exact mul_nonneg (mul_self_nonneg q) rest
  | false =>
    obtain ⟨small, alike, none⟩ := sub_truncated (p / q)
    simp only [integralPart, Bool.false_eq_true, if_false]
    refine ⟨mul_lt_of_lt_one_right magnitude small, ?_, fun zero => ?_⟩
    · nth_rewrite 3 [dividend]
      rw [mul_mul_mul_comm]
      exact mul_nonneg (mul_self_nonneg q) alike
    · rw [none (by rw [zero, zero_div]), mul_zero]

/-- A number between the integers next to another one has the same integral parts, if it is an integer
only where that is the same one. -/
theorem integralPart_eq_of_between {q r : ℚ} (lower : ⌊q⌋ ≤ r) (upper : r ≤ ⌈q⌉)
    (whole : ∀ n : ℤ, r = n → q = n) (down : Bool) : integralPart down r = integralPart down q := by
  by_cases integral : ∃ n : ℤ, q = n
  · obtain ⟨n, rfl⟩ := integral
    rw [Int.floor_intCast] at lower
    rw [Int.ceil_intCast] at upper
    rw [le_antisymm upper lower]
  · have next : ⌈q⌉ = ⌊q⌋ + 1 := by
      refine (Int.ceil_eq_floor_add_one_iff_notMem q).mpr ?_
      rintro ⟨n, same⟩
      exact integral ⟨n, same.symm⟩
    rw [next] at upper
    have apart (n : ℤ) : r ≠ n := fun same => integral ⟨n, whole n same⟩
    have above : (⌊q⌋ : ℚ) < r := lower.lt_of_ne (apart _).symm
    have below : r < ⌊q⌋ + 1 := by
      have strict := upper.lt_of_ne (apart _)
      push_cast at strict
      exact strict
    have floors : ⌊r⌋ = ⌊q⌋ := Int.floor_eq_iff.mpr ⟨lower, below⟩
    have ceilings : ⌈r⌉ = ⌈q⌉ := by
      rw [next, Int.ceil_eq_iff]
      push_cast
      constructor <;> linarith
    have signs : 0 ≤ r ↔ 0 ≤ q := by
      rw [← Int.floor_nonneg, floors, Int.floor_nonneg]
    unfold integralPart truncated
    rw [floors, ceilings]
    simp only [signs]

namespace Decimal

variable {x y : Decimal} {precision : Precision}

/-! ## Leading digits -/

/-- The exponent of a moderate number is moderate. -/
theorem abs_exponent_le (moderate : x.Moderate (2 ^ 56)) : |x.exponent.toInt| ≤ 2 ^ 57 := by
  by_cases zero : x.mantissa = 0
  · rw [exponent, if_pos (by simpa [isZero] using zero)]
    decide
  · obtain ⟨few, lower, upper⟩ := moderate
    rw [toInt_exponent (fun _ => by omega) zero, abs_le]
    omega

/-- How far the leading digit of a dividend is to the left of that of a divisor. -/
def spread (x y : Decimal) : ℤ := x.exponent.toInt - y.exponent.toInt

/-- The spread of moderate numbers, as a machine word. -/
theorem toInt_spread (dividend : x.Moderate (2 ^ 56)) (divisor : y.Moderate (2 ^ 56)) :
    (x.exponent - y.exponent).toInt = x.spread y := by
  obtain ⟨lower, upper⟩ := abs_le.mp (abs_exponent_le dividend)
  obtain ⟨lowerToo, upperToo⟩ := abs_le.mp (abs_exponent_le divisor)
  exact toInt_sub_of_fits (by omega) (by omega)

/-- The spread bounds the quotient. -/
theorem abs_quotient_lt (dividend : x.Moderate (2 ^ 60)) (divisor : y.Moderate (2 ^ 60))
    (nonzero : y.mantissa ≠ 0) : |x.rational / y.rational| < 10 ^ (x.spread y + 1) := by
  by_cases zero : x.mantissa = 0
  · rw [(rational_eq_zero_iff x).mpr zero, zero_div, abs_zero]
    exact ten_zpow_pos _
  · obtain ⟨-, upper⟩ := exponent_bounds dividend.exponentFits zero
    obtain ⟨lower, -⟩ := exponent_bounds divisor.exponentFits nonzero
    have positive := (ten_zpow_pos y.exponent.toInt).trans_le lower
    rw [abs_div, div_lt_iff₀ positive]
    calc |x.rational|
      _ < 10 ^ (x.exponent.toInt + 1) := upper
      _ = 10 ^ (x.spread y + 1) * 10 ^ y.exponent.toInt := by
        rw [ten_zpow_mul, spread]
        congr 1
        omega
      _ ≤ 10 ^ (x.spread y + 1) * |y.rational| := mul_le_mul_of_nonneg_left lower (ten_zpow_pos _).le

/-- The scale of what is left when a multiple is taken away is one of the two, or zero. -/
theorem scale_subtract_multiple (x y : Decimal) (n : ℤ) :
    (x.subtract (y.multiply (.ofInt n))).scale.toInt = x.scale.toInt ∨
      (x.subtract (y.multiply (.ofInt n))).scale.toInt = y.scale.toInt ∨
      (x.subtract (y.multiply (.ofInt n))).scale.toInt = 0 := by
  have product : (y.multiply (.ofInt n)).scale.toInt = y.scale.toInt ∨
      (y.multiply (.ofInt n)).scale.toInt = 0 := by
    unfold multiply
    split_ifs
    · exact .inr rfl
    · exact .inl rfl
    · left
      change (y.scale + 0).toInt = _
      rw [Int64.add_zero]
  have common : (x.subtract (y.multiply (.ofInt n))).scale =
      commonScale x (y.multiply (.ofInt n)).negated := rfl
  rw [common]
  unfold commonScale
  split
  · exact .inr product
  · exact .inl rfl

/-! ## The computed quotient -/

/-- Whether the remainder of two decimals is computed exactly at a tier. Their sizes leave room for the
scales, the digits that are asked for are no more than a division gives, and where the quotient is no
integer, it keeps away from all of them but zero. -/
structure Clear (x y : Decimal) (precision : Precision) : Prop where
  dividend : x.Moderate (2 ^ 56)
  divisor : y.Moderate (2 ^ 56)
  nonzero : y.mantissa ≠ 0
  zero : x.mantissa = 0 → x.scale = 0
  narrow : precision.workingDigits + x.spread y ≤ quotientDigits
  apart : ∀ n : ℤ, n ≠ 0 → x.rational / y.rational ≠ n →
    10 ^ (3 - (precision.workingDigits : ℤ)) ≤ |x.rational / y.rational - n|

/-- The digits of a computation are some, and fewer than those of a quotient. -/
theorem workingDigits_bounds (precision : Precision) :
    15 ≤ precision.workingDigits ∧ precision.workingDigits ≤ 42 := by
  cases precision <;> decide

/-- The digits to which the quotient is computed for a remainder. -/
def computedDigits (x y : Decimal) (precision : Precision) : ℕ :=
  precision.workingDigits + (x.spread y).toNat

/-- The quotient that is computed for a remainder. -/
def computedQuotient (x y : Decimal) (precision : Precision) : Decimal :=
  (x.divide y).withDigits (computedDigits x y precision)

namespace Clear

variable (clear : Clear x y precision)
include clear

/-- The quotient in the powers of ten in which it is computed. -/
theorem abs_quotient_le : |x.rational / y.rational| ≤ ((10 ^ (x.spread y + 1).toNat : ℤ) : ℚ) := by
  have bound := abs_quotient_lt (clear.dividend.mono (by decide)) (clear.divisor.mono (by decide))
    clear.nonzero
  rw [Int.cast_pow, Int.cast_ofNat, ← zpow_natCast]
  exact bound.le.trans (ten_zpow_le (Int.self_le_toNat _))

/-- The integers next to the quotient are short. -/
theorem short_floor_ceil :
    Short ⌊x.rational / y.rational⌋ ∧ Short ⌈x.rational / y.rational⌉ := by
  obtain ⟨some, few⟩ := workingDigits_bounds precision
  have narrow := clear.narrow
  have hundred : quotientDigits = 100 := rfl
  obtain ⟨lower, upper⟩ := abs_le.mp clear.abs_quotient_le
  have power : (10 : ℤ) ^ (x.spread y + 1).toNat < 10 ^ 99 :=
    pow_lt_pow_right₀ (by norm_num) (by omega)
  rw [← Int.cast_neg] at lower
  refine ⟨short_intCast (lt_of_le_of_lt (abs_le.mpr ⟨?_, ?_⟩) power),
    short_intCast (lt_of_le_of_lt (abs_le.mpr ⟨?_, ?_⟩) power)⟩
  · exact Int.le_floor.mpr lower
  · exact Int.cast_le.mp ((Int.floor_le _).trans upper)
  · exact Int.cast_le.mp (lower.trans (Int.le_ceil _))
  · exact Int.ceil_le.mpr upper

/-- Division passes neither of the integers next to the quotient. -/
theorem divide_between :
    ⌊x.rational / y.rational⌋ ≤ (x.divide y).rational ∧
      (x.divide y).rational ≤ ⌈x.rational / y.rational⌉ := by
  obtain ⟨shortFloor, shortCeil⟩ := clear.short_floor_ceil
  rcases rational_divide clear.dividend.le_scale clear.dividend.scale_le clear.divisor clear.nonzero
    with exact | rounds
  · rw [exact]
    exact ⟨Int.floor_le _, Int.le_ceil _⟩
  · exact ⟨rounds.ge_of_ge shortFloor (Int.floor_le _), rounds.le_of_le shortCeil (Int.le_ceil _)⟩

/-- What is between the integers next to the quotient is in the same powers of ten. -/
theorem abs_le_of_between {r : ℚ} (lower : ⌊x.rational / y.rational⌋ ≤ r)
    (upper : r ≤ ⌈x.rational / y.rational⌉) : |r| ≤ 10 ^ ((x.spread y + 1).toNat : ℤ) := by
  obtain ⟨below, above⟩ := abs_le.mp clear.abs_quotient_le
  rw [← Int.cast_neg] at below
  have floor : ((-10 ^ (x.spread y + 1).toNat : ℤ) : ℚ) ≤ ⌊x.rational / y.rational⌋ :=
    Int.cast_le.mpr (Int.le_floor.mpr below)
  have ceiling : (⌈x.rational / y.rational⌉ : ℚ) ≤ (10 ^ (x.spread y + 1).toNat : ℤ) :=
    Int.cast_le.mpr (Int.ceil_le.mpr above)
  rw [zpow_natCast, abs_le]
  push_cast at floor ceiling
  constructor <;> linarith

/-- Division moves the quotient by half a unit of the computation at most. -/
theorem abs_divide_sub_le :
    |(x.divide y).rational - x.rational / y.rational| ≤
      10 ^ (2 - (precision.workingDigits : ℤ)) / 2 := by
  obtain ⟨lower, upper⟩ := clear.divide_between
  obtain ⟨some, few⟩ := workingDigits_bounds precision
  have narrow := clear.narrow
  have hundred : quotientDigits = 100 := rfl
  have power := ten_zpow_pos (2 - (precision.workingDigits : ℤ))
  rcases rational_divide clear.dividend.le_scale clear.dividend.scale_le clear.divisor clear.nonzero
    with exact | rounds
  · rw [exact, sub_self, abs_zero]
    positivity
  · have size : |(x.divide y).rational| ≤ 10 ^ (2 - (precision.workingDigits : ℤ)) * 10 ^ 99 := by
      refine (clear.abs_le_of_between lower upper).trans ?_
      rw [← zpow_natCast _ 99, ten_zpow_mul]
      exact ten_zpow_le (by push_cast; omega)
    refine rounds.error_le.trans ?_
    rw [div_le_iff₀ (by positivity)]
    linarith

/-- A quotient of a dividend that is not zero is not zero. -/
theorem divide_nonzero (some : x.mantissa ≠ 0) : (x.divide y).mantissa ≠ 0 := by
  have divisor : y.sign ≠ 0 := fun zero => clear.nonzero (Int.sign_eq_zero_iff_zero.mp zero)
  have dividend : x.sign ≠ 0 := fun zero => some (Int.sign_eq_zero_iff_zero.mp zero)
  have signs := sign_divide x divisor
  intro zero
  rw [sign, zero, Int.sign_zero, eq_comm, mul_eq_zero] at signs
  exact signs.elim dividend divisor

/-- The digits to which the quotient is computed are some, and no more than a division gives. -/
theorem computedDigits_bounds :
    0 < computedDigits x y precision ∧ computedDigits x y precision ≤ quotientDigits := by
  obtain ⟨some, few⟩ := workingDigits_bounds precision
  have narrow := clear.narrow
  have hundred : quotientDigits = 100 := rfl
  unfold computedDigits
  omega

/-- The unit to which the quotient is computed is fine. -/
theorem unit_le (some : x.mantissa ≠ 0) :
    ((x.divide y).digits : ℤ) - computedDigits x y precision - (x.divide y).scale.toInt ≤
      2 - precision.workingDigits := by
  obtain ⟨lower, upper⟩ := clear.divide_between
  have above : |(x.divide y).rational| < 10 ^ ((x.spread y + 1).toNat + 1 : ℤ) :=
    (clear.abs_le_of_between lower upper).trans_lt
      (zpow_lt_zpow_right₀ (by norm_num) (by omega))
  have position := position_le (clear.divide_nonzero some) above
  unfold computedDigits
  omega

/-- The computed quotient as the quotient of the division, rounded. -/
theorem rational_computedQuotient :
    (computedQuotient x y precision).rational =
      lopsided ((x.divide y).rational / (x.divide y).lastUnit (computedDigits x y precision)) *
        (x.divide y).lastUnit (computedDigits x y precision) := by
  obtain ⟨-, count⟩ := clear.computedDigits_bounds
  obtain ⟨few, lower, upper⟩ := moderate_divide clear.dividend clear.divisor clear.nonzero
  have hundred : quotientDigits = 100 := rfl
  exact rational_withDigits (by omega) (by omega)

/-- A quotient of zero is computed as zero. -/
theorem computedQuotient_eq_zero_iff :
    (computedQuotient x y precision).rational = 0 ↔ x.mantissa = 0 := by
  have divisor : y.sign ≠ 0 := fun zero => clear.nonzero (Int.sign_eq_zero_iff_zero.mp zero)
  rw [rational_eq_zero_iff, ← Int.sign_eq_zero_iff_zero, ← Int.sign_eq_zero_iff_zero (a := x.mantissa)]
  change (computedQuotient x y precision).sign = 0 ↔ x.sign = 0
  rw [computedQuotient, sign_withDigits clear.computedDigits_bounds.1, sign_divide x divisor,
    mul_eq_zero_iff_right divisor]

/-- The computed quotient is between the integers next to the quotient, and is an integer only where
the quotient is that integer. -/
theorem computedQuotient_between :
    ⌊x.rational / y.rational⌋ ≤ (computedQuotient x y precision).rational ∧
      (computedQuotient x y precision).rational ≤ ⌈x.rational / y.rational⌉ ∧
      ∀ n : ℤ, (computedQuotient x y precision).rational = n → x.rational / y.rational = n := by
  by_cases zero : x.mantissa = 0
  · rw [clear.computedQuotient_eq_zero_iff.mpr zero, (rational_eq_zero_iff x).mpr zero, zero_div]
    exact ⟨by simp, by simp, fun _ same => same⟩
  obtain ⟨some, few⟩ := workingDigits_bounds precision
  have fine := clear.unit_le zero
  have value := clear.rational_computedQuotient
  have positive := (x.divide y).lastUnit_pos (computedDigits x y precision)
  have small : (x.divide y).lastUnit (computedDigits x y precision) ≤
      10 ^ (2 - (precision.workingDigits : ℤ)) := ten_zpow_le fine
  have multiple (n : ℤ) :
      ∃ other : ℤ, (n : ℚ) = other * (x.divide y).lastUnit (computedDigits x y precision) := by
    have below : 2 - (precision.workingDigits : ℤ) ≤ 0 := by omega
    obtain ⟨other, same⟩ := exists_multiple n (fine.trans below)
    exact ⟨other, by rwa [zpow_zero, mul_one] at same⟩
  obtain ⟨lower, upper⟩ := clear.divide_between
  refine ⟨?_, ?_, fun n same => ?_⟩
  · obtain ⟨other, form⟩ := multiple ⌊x.rational / y.rational⌋
    rw [value]
    rw [form] at lower ⊢
    exact (rounded_between positive other).1 lower
  · obtain ⟨other, form⟩ := multiple ⌈x.rational / y.rational⌉
    rw [value]
    rw [form] at upper ⊢
    exact (rounded_between positive other).2 upper
  · by_contra different
    have apart : n ≠ 0 := by
      rintro rfl
      rw [Int.cast_zero, clear.computedQuotient_eq_zero_iff] at same
      exact zero same
    have away := clear.apart n apart different
    have divided := clear.abs_divide_sub_le
    have moved := abs_rounded_sub_lt positive (x.divide y).rational
    rw [← value, same] at moved
    have power := ten_zpow_pos (2 - (precision.workingDigits : ℤ))
    have exponent : (3 : ℤ) - precision.workingDigits = 2 - precision.workingDigits + 1 := by omega
    rw [exponent, zpow_add_one₀ (by norm_num)] at away
    have triangle := abs_sub_le (x.rational / y.rational) (x.divide y).rational n
    rw [abs_sub_comm] at divided moved
    linarith

/-- The computed quotient is small, or its scale is one for which a power of ten is formed. -/
theorem computedQuotient_usable :
    (computedQuotient x y precision).Moderate (2 ^ 60) ∧
      ((computedQuotient x y precision).isSmall = true ∨
        (computedQuotient x y precision).scale.toInt.natAbs ≤ integerDigits) := by
  obtain ⟨counted, count⟩ := clear.computedDigits_bounds
  obtain ⟨some, -⟩ := workingDigits_bounds precision
  obtain ⟨few, low, high⟩ := moderate_divide clear.dividend clear.divisor clear.nonzero
  have narrow := clear.narrow
  have hundred : quotientDigits = 100 := rfl
  have thousand : integerDigits = 1000 := rfl
  have scale : (computedQuotient x y precision).scale.toInt =
      (x.divide y).scale.toInt + computedDigits x y precision - (x.divide y).digits :=
    toInt_scale_withDigits _ (by omega) (by omega)
  have digits : (computedQuotient x y precision).digits ≤ computedDigits x y precision + 1 :=
    digits_withDigits_le counted
  have moderate : (computedQuotient x y precision).Moderate (2 ^ 60) :=
    ⟨by omega, by omega, by omega⟩
  refine ⟨moderate, or_iff_not_imp_left.mpr fun large => ?_⟩
  by_cases zero : x.mantissa = 0
  · have whole : x.divide y = x := by rw [divide, if_pos (by simp [isZero, zero])]
    have single := digits_of_zero zero
    have none : x.scale.toInt = 0 := by
      rw [clear.zero zero]
      rfl
    rw [whole, single, none] at scale
    omega
  · obtain ⟨lower, upper, -⟩ := clear.computedQuotient_between
    have bound := clear.abs_le_of_between lower upper
    have apart : (computedQuotient x y precision).mantissa ≠ 0 := fun none =>
      zero (clear.computedQuotient_eq_zero_iff.mp ((rational_eq_zero_iff _).mpr none))
    rw [isSmall_iff moderate.exponentFits, not_and, not_lt] at large
    have position := position_le apart (bound.trans_lt
      (zpow_lt_zpow_right₀ (by norm_num) (lt_add_one ((x.spread y + 1).toNat : ℤ))))
    obtain ⟨more, -⟩ := Digits.count_succ (computedQuotient x y precision).mantissa.natAbs
    have above := (large apart).trans_lt (rational_bounds apart).2
    rw [← zpow_zero (10 : ℚ), zpow_lt_zpow_iff_right₀ (by norm_num)] at above
    omega

/-- The integral part of the computed quotient is that of the quotient, and there is one. -/
theorem integralPart_computedQuotient (down : Bool) :
    (if down then (computedQuotient x y precision).floor
      else (computedQuotient x y precision).truncate) =
        .ok (integralPart down (x.rational / y.rational)) := by
  obtain ⟨moderate, usable⟩ := clear.computedQuotient_usable
  obtain ⟨floor, truncate⟩ := floor_truncate_eq moderate.exponentFits usable
  obtain ⟨lower, upper, whole⟩ := clear.computedQuotient_between
  rw [← integralPart_eq_of_between lower upper whole down]
  cases down with
  | true => exact floor
  | false => exact truncate

/-- The remainder is what is left of the dividend when the divisor is taken away as many times as the
integral part of the quotient says, and its scale is moderate. -/
theorem remainderBy_eq (down : Bool) :
    ∃ rest, x.remainderBy y precision.workingDigits down = .ok rest ∧
      rest.rational =
        x.rational - y.rational * integralPart down (x.rational / y.rational) ∧
      -2 ^ 56 ≤ rest.scale.toInt ∧ rest.scale.toInt ≤ 2 ^ 56 := by
  have spread := toInt_spread clear.dividend clear.divisor
  have narrow := clear.narrow
  have hundred : quotientDigits = 100 := rfl
  have within : ¬ Int64.ofNat integerDigits < x.exponent - y.exponent := by
    rw [Int64.lt_iff_toInt_lt, spread]
    have thousand : (Int64.ofNat integerDigits).toInt = 1000 := rfl
    omega
  have divides : y.requireDivisor = .ok () := by
    rw [requireDivisor, if_neg (by simpa [isZero] using clear.nonzero)]
  have part := clear.integralPart_computedQuotient down
  unfold computedQuotient computedDigits at part
  refine ⟨x.subtract (y.multiply (.ofInt (integralPart down (x.rational / y.rational)))), ?_, ?_, ?_⟩
  · unfold remainderBy
    rw [divides]
    simp only [Outcome.ok_bind, if_neg within, spread]
    cases down with
    | true =>
      simp only [if_true] at part ⊢
      rw [part]
      rfl
    | false =>
      simp only [Bool.false_eq_true, if_false] at part ⊢
      rw [part]
      rfl
  · have zero : (0 : Int64).toInt = 0 := rfl
    have low := clear.divisor.le_scale
    have high := clear.divisor.scale_le
    rw [rational_subtract, rational_multiply, rational_ofInt]
    · rw [ofInt, zero]
      omega
    · rw [ofInt, zero]
      omega
  · obtain ⟨-, low, high⟩ := clear.dividend
    obtain ⟨-, lowToo, highToo⟩ := clear.divisor
    rcases scale_subtract_multiple x y (integralPart down (x.rational / y.rational))
      with same | same | same <;> omega

end Clear

/-! ## Decimals of a tier -/

/-- The quotient of two decimals with few digits is an integer, or keeps away from all integers but
zero. -/
theorem quotient_apart {digits : ℕ} (left : x.mantissa.natAbs < 10 ^ digits)
    (right : y.mantissa.natAbs < 10 ^ digits) (nonzero : y.mantissa ≠ 0) {n : ℤ} (some : n ≠ 0)
    (apart : x.rational / y.rational ≠ n) :
    10 ^ (-(digits : ℤ)) / 2 ≤ |x.rational / y.rational - n| := by
  have divisor : y.rational ≠ 0 := fun zero => nonzero ((rational_eq_zero_iff y).mp zero)
  have positive : 0 < |y.rational| := abs_pos.mpr divisor
  have power := ten_zpow_pos (-(digits : ℤ))
  have inverse : (10 : ℚ) ^ (-(digits : ℤ)) * 10 ^ (digits : ℤ) = 1 := by
    rw [ten_zpow_mul, neg_add_cancel, zpow_zero]
  have size {z : Decimal} (few : z.mantissa.natAbs < 10 ^ digits) :
      10 ^ (-(digits : ℤ)) * |z.rational| ≤ 10 ^ (-z.scale.toInt) := by
    have count : (z.mantissa.natAbs : ℚ) ≤ 10 ^ (digits : ℤ) := by
      rw [zpow_natCast]
      exact_mod_cast few.le
    rw [abs_rational, ← mul_assoc]
    refine mul_le_of_le_one_left (ten_zpow_pos _).le ?_
    rw [← inverse]
    exact mul_le_mul_of_nonneg_left count power.le
  have split : x.rational / y.rational - n = (x.rational - n * y.rational) / y.rational := by
    rw [sub_div, mul_div_cancel_right₀ _ divisor]
  -- What is left of the dividend is a multiple of the last digit of both numbers.
  have rest {scale : ℤ} (leftScale : x.scale.toInt ≤ scale) (rightScale : y.scale.toInt ≤ scale) :
      (10 : ℚ) ^ (-scale) ≤ |x.rational - n * y.rational| := by
    obtain ⟨first, formLeft⟩ := exists_multiple x.mantissa (neg_le_neg leftScale)
    obtain ⟨second, formRight⟩ := exists_multiple (n * y.mantissa) (neg_le_neg rightScale)
    have form : x.rational - n * y.rational = ((first - second : ℤ) : ℚ) * 10 ^ (-scale) := by
      rw [rational, rational, formLeft, ← mul_assoc, ← Int.cast_mul, formRight, ← sub_mul,
        Int.cast_sub]
    have different : first - second ≠ 0 := by
      intro same
      rw [same, Int.cast_zero, zero_mul, sub_eq_zero] at form
      exact apart (by rw [form, mul_div_cancel_right₀ _ divisor])
    rw [form, abs_mul, abs_of_pos (ten_zpow_pos _)]
    refine le_mul_of_one_le_left (ten_zpow_pos _).le ?_
    exact_mod_cast Int.one_le_abs different
  rcases le_or_gt x.scale.toInt y.scale.toInt with coarse | fine
  · rw [split, abs_div, le_div_iff₀ positive]
    have away := rest coarse le_rfl
    have bound := size right
    have magnitude := mul_pos power positive
    linarith
  · by_contra near
    have close : |x.rational / y.rational - n| < 1 / 2 := by
      have small : (10 : ℚ) ^ (-(digits : ℤ)) ≤ 1 := by
        rw [← zpow_zero (10 : ℚ)]
        exact ten_zpow_le (by omega)
      linarith [not_le.mp near]
    have large : (1 : ℚ) ≤ |(n : ℚ)| := by exact_mod_cast Int.one_le_abs some
    have half : 1 / 2 ≤ |x.rational / y.rational| := by
      have triangle := abs_sub_abs_le_abs_sub (n : ℚ) (x.rational / y.rational)
      rw [abs_sub_comm] at triangle
      linarith
    rw [abs_div, le_div_iff₀ positive] at half
    have away := rest le_rfl fine.le
    have bound := size left
    rw [split, abs_div, not_le, div_lt_iff₀ positive] at near
    have scaled := mul_le_mul_of_nonneg_left half power.le
    linarith

/-- The remainder of two decimals that a tier holds is computed exactly, unless their leading digits are
further apart than the digits of a division reach. -/
theorem clear_of_settled {countX countY : ℕ} (settledX : x.Settled countX)
    (settledY : y.Settled countY) (fewX : countX ≤ precision.digits)
    (fewY : countY ≤ precision.digits) (dividend : x.Moderate (2 ^ 56))
    (divisor : y.Moderate (2 ^ 56)) (nonzero : y.mantissa ≠ 0)
    (narrow : precision.workingDigits + x.spread y ≤ quotientDigits) : Clear x y precision := by
  refine ⟨dividend, divisor, nonzero, ?_, narrow, fun n some apart => ?_⟩
  · intro zero
    rcases settledX with rfl | ⟨last, -⟩
    · rfl
    · simp [zero] at last
  · refine le_trans ?_ (quotient_apart (settledX.natAbs_lt fewX) (settledY.natAbs_lt fewY) nonzero
      some apart)
    have exponent : 3 - (precision.workingDigits : ℤ) = -precision.digits + -5 := by
      rw [Precision.workingDigits, guardDigits]
      push_cast
      ring
    rw [exponent, ← ten_zpow_mul, div_eq_mul_inv]
    refine mul_le_mul_of_nonneg_left ?_ (ten_zpow_pos _).le
    norm_num

/-- Rounding to a tier takes nothing beyond a number of the tier. -/
theorem abs_make_le {bound : Decimal} (roomy : x.Roomy) (small : |x.rational| < |bound.rational|)
    (few : bound.mantissa.natAbs < 10 ^ precision.digits) :
    |(Rounded.make x precision).value.rational| ≤ |bound.rational| := by
  rw [Rounded.rational_make roomy]
  have positive := x.lastUnit_pos precision.digits
  have apart : bound.mantissa ≠ 0 := by
    intro zero
    rw [(rational_eq_zero_iff bound).mpr zero, abs_zero] at small
    exact (abs_nonneg _).not_gt small
  by_cases zero : x.mantissa = 0
  · rw [(rational_eq_zero_iff x).mpr zero, zero_div, lopsided_zero, Int.cast_zero, zero_mul, abs_zero]
    exact abs_nonneg _
  · have position := position_le zero (small.trans (rational_bounds apart).2)
    have count := (Digits.count_le_iff _ _ (Int.natAbs_pos.mpr apart)).mpr few
    rw [show Digits.count bound.mantissa.natAbs = bound.digits from rfl] at count
    -- The digits of the bound are not behind the last digit that is kept.
    have finer : (x.digits : ℤ) - precision.digits - x.scale.toInt ≤ -bound.scale.toInt := by omega
    obtain ⟨multiple, form⟩ := exists_multiple (bound.mantissa.natAbs : ℤ) finer
    have value : |bound.rational| = multiple * x.lastUnit precision.digits := by
      rw [abs_rational, lastUnit, ← form, Int.cast_natCast]
    obtain ⟨lower, upper⟩ := abs_le.mp small.le
    rw [value] at lower upper ⊢
    rw [← neg_mul, ← Int.cast_neg] at lower
    refine abs_le.mpr ⟨?_, (rounded_between positive multiple).2 upper⟩
    rw [← neg_mul, ← Int.cast_neg]
    exact (rounded_between positive _).1 lower

end Decimal

/-! ## Real numbers -/

/-- Which way the remainders round the quotient, down or toward zero. -/
def Command.roundsDown? : Command → Option Bool
  | .modulo => some true
  | .remainder => some false
  | _ => none

/-- There are two remainders. -/
theorem Command.roundsDown?_eq_some {command : Command} {down : Bool}
    (known : command.roundsDown? = some down) :
    command = .modulo ∧ down = true ∨ command = .remainder ∧ down = false := by
  cases command <;> simp only [roundsDown?, Option.some.injEq, reduceCtorEq] at known
  · exact .inl ⟨rfl, known.symm⟩
  · exact .inr ⟨rfl, known.symm⟩

/-- A decimal has the sign of what it denotes. -/
theorem Decimal.sign_eq (x : Decimal) : x.sign = SignType.sign x.rational := by
  rcases lt_trichotomy x.mantissa 0 with negative | zero | positive
  · rw [sign_neg ((rational_neg_iff x).mpr negative), sign, Int.sign_eq_neg_one_of_neg negative]
    rfl
  · rw [(rational_eq_zero_iff x).mpr zero, sign_zero, sign, zero]
    rfl
  · rw [sign_pos ((rational_pos_iff x).mpr positive), sign, Int.sign_eq_one_of_pos positive]
    rfl

/-- A number whose product with another one is not negative has no sign or that of the other one, if it
is zero wherever the other one is. -/
theorem sign_agrees {r q : ℚ} (agree : 0 ≤ r * q) (none : q = 0 → r = 0) :
    (SignType.sign r : ℤ) = 0 ∨ (SignType.sign r : ℤ) = SignType.sign q := by
  rcases lt_trichotomy r 0 with negative | rfl | positive
  · have below : q < 0 := lt_of_le_of_ne (nonpos_of_mul_nonneg_right agree negative)
      fun zero => negative.ne (none zero)
    rw [sign_neg negative, sign_neg below]
    exact .inr rfl
  · exact .inl (by rw [sign_zero]; rfl)
  · have above : 0 < q := lt_of_le_of_ne (nonneg_of_mul_nonneg_right agree positive)
      fun zero => positive.ne' (none zero.symm)
    rw [sign_pos positive, sign_pos above]
    exact .inr rfl

namespace Real

variable {x y : Real} {settings : Preferences} {command : Command} {down : Bool}

/-- Whether the remainder of two numbers is the exact one, at most rounded at the end: both are exact,
or both are decimals that are made, and these are not further apart than the digits of a division reach,
or the remainder is computed exactly for another reason. -/
inductive Resolved (settings : Preferences) : Real → Real → Prop
  | exact {x y : Real} (left : x.isExact = true) (right : y.isExact = true) : Resolved settings x y
  | decimals {a b : Rounded} (madeA : a.IsMade) (madeB : b.IsMade)
      (dividend : a.value.Moderate (2 ^ 56)) (divisor : b.value.Moderate (2 ^ 56))
      (narrow : (Precision.widest a.precision b.precision).workingDigits + a.value.spread b.value ≤
        Decimal.quotientDigits) : Resolved settings (.decimal a) (.decimal b)
  | clear {x y : Real} (inexact : (∃ value, x = .decimal value) ∨ ∃ value, y = .decimal value)
      (clear : Decimal.Clear x.toDecimal y.toDecimal (tier x y settings)) : Resolved settings x y

/-- The digits of the wider of two tiers. -/
theorem digits_le_widest (a b : Precision) :
    a.digits ≤ (Precision.widest a b).digits ∧ b.digits ≤ (Precision.widest a b).digits := by
  cases a <;> cases b <;> decide

/-- Where a remainder is the exact one, both numbers are exact, or else it is computed exactly. -/
theorem Resolved.exact_or_clear (resolved : Resolved settings x y) (nonzero : y.sign ≠ 0) :
    (x.isExact = true ∧ y.isExact = true) ∨
      ((∃ value, x = .decimal value) ∨ ∃ value, y = .decimal value) ∧
        Decimal.Clear x.toDecimal y.toDecimal (tier x y settings) := by
  cases resolved with
  | exact left right => exact .inl ⟨left, right⟩
  | @decimals a b madeA madeB dividend divisor narrow =>
    obtain ⟨left, right⟩ := digits_le_widest a.precision b.precision
    have apart : b.value.mantissa ≠ 0 := fun zero => nonzero (Int.sign_eq_zero_iff_zero.mpr zero)
    exact .inr ⟨.inl ⟨a, rfl⟩, Decimal.clear_of_settled ((Rounded.isMade_iff a).mp madeA)
      ((Rounded.isMade_iff b).mp madeB) left right dividend divisor apart narrow⟩
  | clear inexact clear => exact .inr ⟨inexact, clear⟩

/-- The remainder of exact numbers. -/
theorem remainder_exact (known : command.roundsDown? = some down) {p q : ℚ}
    (left : x.rational? = some p) (right : y.rational? = some q) (nonzero : q ≠ 0) :
    operate command x y settings =
      .ok ((ofRational (p - q * integralPart down (p / q))).finished settings) := by
  have divides : command.divides = true ∧ q = 0 ↔ False := by simp [nonzero]
  obtain ⟨rfl, rfl⟩ | ⟨rfl, rfl⟩ := Command.roundsDown?_eq_some known
  all_goals
    rw [operate_exact rfl left right settings, exactResult, if_neg divides.mp]
    rfl

/-- The remainder of numbers that are not both exact, where it is computed exactly. -/
theorem remainder_clear (known : command.roundsDown? = some down)
    (inexact : (∃ value, x = .decimal value) ∨ ∃ value, y = .decimal value)
    (clear : Decimal.Clear x.toDecimal y.toDecimal (tier x y settings)) :
    ∃ rest : Decimal, operate command x y settings = .ok (.ofDecimal rest (tier x y settings)) ∧
      rest.rational = x.toDecimal.rational - y.toDecimal.rational *
        integralPart down (x.toDecimal.rational / y.toDecimal.rational) ∧ rest.Roomy := by
  obtain ⟨rest, computed, value, low, high⟩ := clear.remainderBy_eq down
  refine ⟨rest, ?_, value, ?_⟩
  · rw [operate_decimal command inexact]
    obtain ⟨rfl, rfl⟩ | ⟨rfl, rfl⟩ := Command.roundsDown?_eq_some known
    all_goals exact Outcome.bind_eq_ok.mpr ⟨rest, computed, rfl⟩
  · by_cases zero : rest.mantissa = 0
    · rw [Decimal.Roomy, Decimal.digits_of_zero zero]
      omega
    · have divisor : y.toDecimal.rational ≠ 0 := fun none =>
        clear.nonzero ((Decimal.rational_eq_zero_iff _).mp none)
      have small := (remainder_bounds down x.toDecimal.rational divisor).1
      rw [← value] at small
      have position := Decimal.position_le zero
        (small.trans (Decimal.rational_bounds clear.nonzero).2)
      obtain ⟨few, lowY, highY⟩ := clear.divisor
      rw [Decimal.Roomy]
      omega

end Real

namespace Arithmetic

variable {x y : Real} {settings : Preferences} {command : Command} {down : Bool}

/-- The remainders of real numbers are left to the numbers. -/
theorem binary_remainder (known : command.roundsDown? = some down) (x y : Real)
    (settings : Preferences) :
    binary command (.real x) (.real y) settings = (x.operate command y settings).map .real := by
  obtain ⟨rfl, -⟩ | ⟨rfl, -⟩ := Command.roundsDown?_eq_some known <;> rfl

/-- The remainder of exact numbers has its sign, and is below the divisor before it is put in the form
that is asked for. -/
theorem remainder_sign_exact (settings : Preferences) (known : command.roundsDown? = some down)
    (nonzero : y.sign ≠ 0) (left : x.isExact = true) (right : y.isExact = true) :
    ∃ result : Real, binary command (.real x) (.real y) settings = .ok (.real result) ∧
      (result.sign = 0 ∨ result.sign = (if down then y else x).sign) ∧
      ∃ rest : Real, rest.isExact = true ∧ result = rest.finished settings ∧
        |rest.denoted| < |y.denoted| := by
  have dividend := Real.rational?_of_isExact left
  have divisor := Real.rational?_of_isExact right
  have apart : y.rational ≠ 0 := by
    intro zero
    rw [Real.sign_of_rational? divisor, zero] at nonzero
    exact nonzero rfl
  obtain ⟨small, agree, none⟩ := remainder_bounds down x.rational apart
  have leader : ((if down then y else x).sign) =
      SignType.sign (if down then y.rational else x.rational) := by
    cases down with
    | true => exact (Real.sign_of_rational? divisor).trans (Real.sign_num _)
    | false => exact (Real.sign_of_rational? dividend).trans (Real.sign_num _)
  refine ⟨_, by rw [binary_remainder known, Real.remainder_exact known dividend divisor apart]; rfl,
    ?_, _, Real.isExact_ofRational _, rfl, ?_⟩
  · rw [Real.sign_finished, Real.sign_ofRational, Real.sign_num, leader]
    exact sign_agrees agree none
  · rwa [Real.denoted_of_rational? (Real.rational?_ofRational _), Real.denoted_of_rational? divisor]

/-- The remainder of numbers that are not both exact has its sign where it is computed exactly, and that
of decimals does not exceed the divisor. -/
theorem remainder_sign_clear (known : command.roundsDown? = some down)
    (inexact : (∃ value, x = .decimal value) ∨ ∃ value, y = .decimal value)
    (clear : Decimal.Clear x.toDecimal y.toDecimal (x.tier y settings)) :
    ∃ result : Real, binary command (.real x) (.real y) settings = .ok (.real result) ∧
      (result.sign = 0 ∨ result.sign = (if down then y else x).sign) ∧
      ∀ a b, x = .decimal a → y = .decimal b → b.IsMade → |result.denoted| ≤ |y.denoted| := by
  obtain ⟨rest, computed, value, roomy⟩ := Real.remainder_clear known inexact clear
  have apart : y.toDecimal.rational ≠ 0 := fun zero =>
    clear.nonzero ((Decimal.rational_eq_zero_iff _).mp zero)
  obtain ⟨small, agree, none⟩ := remainder_bounds down x.toDecimal.rational apart
  rw [← value] at small agree none
  have leader : ((if down then y else x).sign) =
      SignType.sign (if down then y.toDecimal.rational else x.toDecimal.rational) := by
    cases down with
    | true => exact y.sign_toDecimal.symm.trans (Decimal.sign_eq _)
    | false => exact x.sign_toDecimal.symm.trans (Decimal.sign_eq _)
  refine ⟨_, by rw [binary_remainder known, computed]; rfl, ?_, ?_⟩
  · rw [Real.sign_ofDecimal, Decimal.sign_eq, leader]
    exact sign_agrees agree none
  · rintro a b rfl rfl made
    exact Decimal.abs_make_le roomy small
      (((Rounded.isMade_iff b).mp made).natAbs_lt (Real.digits_le_widest _ _).2)

/-- The remainders of two real numbers by a divisor that is not zero: the one rounded down is zero or has
the sign of the divisor, and the one rounded toward zero is zero or has the sign of the dividend. This
holds for all exact numbers, for decimals of any tiers as long as a division has the digits for it, and
for other numbers where the quotient keeps away from the integers. The remainder of exact numbers is
below the divisor before it is put in the form that is asked for, and that of decimals does not exceed
the divisor. -/
theorem remainder_sign (known : command.roundsDown? = some down) (nonzero : y.sign ≠ 0)
    (resolved : x.Resolved settings y) :
    ∃ result : Real, binary command (.real x) (.real y) settings = .ok (.real result) ∧
      (result.sign = 0 ∨ result.sign = (if down then y else x).sign) ∧
      (x.isExact = true → y.isExact = true → ∃ rest : Real, rest.isExact = true ∧
        result = rest.finished settings ∧ |rest.denoted| < |y.denoted|) ∧
      ∀ a b, x = .decimal a → y = .decimal b → b.IsMade → |result.denoted| ≤ |y.denoted| := by
  rcases resolved.exact_or_clear nonzero with ⟨left, right⟩ | ⟨inexact, clear⟩
  · obtain ⟨result, computed, signed, small⟩ :=
      remainder_sign_exact settings known nonzero left right
    refine ⟨result, computed, signed, fun _ _ => small, ?_⟩
    rintro a b rfl
    cases left
  · obtain ⟨result, computed, signed, small⟩ := remainder_sign_clear known inexact clear
    refine ⟨result, computed, signed, fun left right => ?_, small⟩
    obtain ⟨value, rfl⟩ | ⟨value, rfl⟩ := inexact
    · cases left
    · cases right

/-- The remainder of minus seven and a half by two, decimals of different tiers, rounded down. -/
theorem remainder_sign_halves :
    let dividend : Real := .decimal ⟨⟨-75, 1⟩, .decimal64⟩
    let divisor : Real := .decimal ⟨⟨2, 0⟩, .decimal32⟩
    ∃ result : Real, binary .modulo (.real dividend) (.real divisor) {} = .ok (.real result) ∧
      (result.sign = 0 ∨ result.sign = 1) ∧ |result.denoted| ≤ 2 := by
  intro dividend divisor
  have digitsLeft : (⟨-75, 1⟩ : Decimal).digits = 2 := by simp [Decimal.digits, Digits.count]
  have digitsRight : (⟨2, 0⟩ : Decimal).digits = 1 := by simp [Decimal.digits, Digits.count]
  have one : (1 : Int64).toInt = 1 := rfl
  have zero : (0 : Int64).toInt = 0 := rfl
  have moderate : (⟨-75, 1⟩ : Decimal).Moderate (2 ^ 56) :=
    ⟨by rw [digitsLeft]; decide, by rw [one]; decide, by rw [one]; decide⟩
  have moderateToo : (⟨2, 0⟩ : Decimal).Moderate (2 ^ 56) :=
    ⟨by rw [digitsRight]; decide, by rw [zero]; decide, by rw [zero]; decide⟩
  have spread : (⟨-75, 1⟩ : Decimal).spread ⟨2, 0⟩ = 0 := by
    rw [Decimal.spread, Decimal.exponent, Decimal.exponent, digitsLeft, digitsRight]
    decide
  have resolved : dividend.Resolved {} divisor := by
    refine .decimals ?_ ?_ moderate moderateToo ?_
    · exact (Rounded.isMade_iff _).mpr (.inr ⟨by decide, by decide⟩)
    · exact (Rounded.isMade_iff _).mpr (.inr ⟨by decide, by decide⟩)
    · rw [spread]
      decide
  have known : Command.roundsDown? .modulo = some true := rfl
  obtain ⟨result, computed, signed, -, small⟩ := remainder_sign known (by decide) resolved
  have two : divisor.denoted = 2 := by simp [divisor, Real.denoted, Decimal.rational, zero]
  have bound := small _ _ rfl rfl ((Rounded.isMade_iff _).mpr (.inr ⟨by decide, by decide⟩))
  rw [two, abs_two] at bound
  exact ⟨result, computed, signed, bound⟩

/-- The quotient of twice the hundredth power of ten by three stops at a hundred digits, and is rounded
up. -/
theorem remainderBy_beyond_digits :
    Decimal.remainderBy ⟨2, -100⟩ ⟨3, 0⟩ 24 false = .ok ⟨-1, 0⟩ := by
  have digitsLeft : (⟨2, -100⟩ : Decimal).digits = 1 := by simp [Decimal.digits, Digits.count]
  have digitsRight : (⟨3, 0⟩ : Decimal).digits = 1 := by simp [Decimal.digits, Digits.count]
  have spread : (⟨2, -100⟩ : Decimal).exponent - (⟨3, 0⟩ : Decimal).exponent = 100 := by
    rw [Decimal.exponent, Decimal.exponent, digitsLeft, digitsRight]
    decide
  have one : (⟨3, 0⟩ : Decimal).isOne = false := by
    have zero : (0 : Int64).toInt = 0 := rfl
    rw [← Bool.not_eq_true, Decimal.isOne_iff]
    norm_num [Decimal.rational, zero]
  have quotient : (⟨2, -100⟩ : Decimal).divide ⟨3, 0⟩ = ⟨(2 * 10 ^ 100 + 1) / 3, 0⟩ := by
    have division : Decimal.divideMagnitudes 2 3 = ((2 * 10 ^ 100 + 1) / 3, 100) := by
      simp [Decimal.divideMagnitudes, Decimal.missingZeros, tenTo, Decimal.quotientDigits,
        Digits.count]
    have two : (2 : ℤ).natAbs = 2 := rfl
    have three : (3 : ℤ).natAbs = 3 := rfl
    simp only [Decimal.divide, Decimal.isZero, one, two, three, division]
    rfl
  have computed : (⟨(2 * 10 ^ 100 + 1) / 3, 0⟩ : Decimal).withDigits 124 =
      ⟨(2 * 10 ^ 100 + 1) / 3 * 10 ^ 24, 24⟩ := by
    have digits : (⟨(2 * 10 ^ 100 + 1) / 3, 0⟩ : Decimal).digits = 100 := by
      simp [Decimal.digits, Digits.count]
    rw [Decimal.withDigits, digits]
    rfl
  have whole : (⟨(2 * 10 ^ 100 + 1) / 3 * 10 ^ 24, 24⟩ : Decimal).truncate =
      .ok ((2 * 10 ^ 100 + 1) / 3) := by
    have digits : (⟨(2 * 10 ^ 100 + 1) / 3 * 10 ^ 24, 24⟩ : Decimal).digits = 124 := by
      simp [Decimal.digits, Digits.count]
    have large : (⟨(2 * 10 ^ 100 + 1) / 3 * 10 ^ 24, 24⟩ : Decimal).isSmall = false := by
      rw [Decimal.isSmall, Decimal.exponent, digits]
      decide
    rw [Decimal.truncate, large]
    rfl
  have times : (⟨3, 0⟩ : Decimal).multiply (.ofInt ((2 * 10 ^ 100 + 1) / 3)) =
      ⟨2 * 10 ^ 100 + 1, 0⟩ := by
    have other : (Decimal.ofInt ((2 * 10 ^ 100 + 1) / 3)).isOne = false := by
      rw [← Bool.not_eq_true, Decimal.isOne_iff, Decimal.rational_ofInt]
      norm_num
    rw [Decimal.multiply, one, other]
    rfl
  have divides : (⟨3, 0⟩ : Decimal).requireDivisor = .ok () := rfl
  have within : ¬ Int64.ofNat Decimal.integerDigits < 100 := by decide
  have count : 24 + (100 : Int64).toInt.toNat = 124 := rfl
  simp only [Decimal.remainderBy, divides, spread, if_neg within, quotient, count, computed,
    Outcome.ok_bind, Bool.false_eq_true, if_false, whole, times]
  rfl

/-- A remainder toward zero that has not the sign of the dividend, since the hundred digits of the
quotient are one too much. -/
theorem remainder_sign_lost :
    let dividend : Real := .decimal ⟨⟨2, -100⟩, .decimal64⟩
    let divisor : Real := .decimal ⟨⟨3, 0⟩, .decimal64⟩
    let result : Real := .decimal ⟨⟨-1, 0⟩, .decimal64⟩
    dividend.IsMade ∧ divisor.IsMade ∧ dividend.sign = 1 ∧ result.sign = -1 ∧
      binary .remainder (.real dividend) (.real divisor) {} = .ok (.real result) := by
  intro dividend divisor result
  refine ⟨(Rounded.isMade_iff _).mpr (.inr ⟨by decide, by decide⟩),
    (Rounded.isMade_iff _).mpr (.inr ⟨by decide, by decide⟩), by decide, by decide, ?_⟩
  have settled : Decimal.Settled Precision.decimal64.digits ⟨-1, 0⟩ := .inr ⟨by decide, by decide⟩
  have rounded : Real.ofDecimal ⟨-1, 0⟩ .decimal64 = result :=
    congrArg Real.decimal (Rounded.make_of_settled ⟨-1, 0⟩ .decimal64 settled)
  have computed : dividend.operate .remainder divisor {} = .ok (Real.ofDecimal ⟨-1, 0⟩ .decimal64) :=
    Outcome.bind_eq_ok.mpr ⟨_, remainderBy_beyond_digits, rfl⟩
  rw [binary_remainder rfl, computed, rounded]
  rfl

end Arithmetic

end Calculator
