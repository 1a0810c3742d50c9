import Calculator.Arithmetic
import Calculator.Proofs.Number.Denotation
import Calculator.Proofs.Number.Gaussian
import Calculator.Proofs.Number.Made
import Mathlib

/-!
# Rounding to the nearest

Rounding takes a decimal to an integral multiple of the unit of its last digit that is kept. A value
above zero goes to the nearest multiple, a half upward, and a value below zero goes to the next
multiple toward zero. Rounding therefore commutes with a change of sign exactly where the digits that
are dropped are worth less than half a unit.
-/

namespace Calculator

/-! ## Rounding to integers -/

/-- The nearest integer of a number above zero, a half rounded up, and the next integer toward zero
of a number below zero. -/
def lopsided (q : ℚ) : ℤ := if 0 ≤ q then round q else ⌈q⌉

/-- An integer is rounded to itself. -/
theorem lopsided_intCast (n : ℤ) : lopsided (n : ℚ) = n := by
  unfold lopsided
  split
  · exact round_intCast n
  · exact Int.ceil_intCast n

/-- Zero is rounded to itself. -/
theorem lopsided_zero : lopsided 0 = 0 := lopsided_intCast 0

/-- Rounding commutes with a change of sign exactly where less than a half is dropped. -/
theorem lopsided_neg_iff (q : ℚ) : lopsided (-q) = -lopsided q ↔ Int.fract |q| < 1 / 2 := by
  have positive {p : ℚ} (above : 0 < p) : lopsided p = -lopsided (-p) ↔ Int.fract p < 1 / 2 := by
    rw [lopsided, lopsided, if_pos above.le, if_neg (by linarith), Int.ceil_neg, neg_neg, round_eq,
      Int.floor_eq_iff]
    have split := Int.floor_add_fract p
    have nonneg := Int.fract_nonneg p
    constructor
    · rintro ⟨-, upper⟩
      linarith
    · intro small
      constructor <;> linarith
  rcases lt_trichotomy q 0 with negative | rfl | above
  · rw [abs_of_neg negative, positive (neg_pos.mpr negative) |>.symm, neg_neg]
  · rw [neg_zero, lopsided_zero, abs_zero, Int.fract_zero]
    norm_num
  · rw [abs_of_pos above, ← positive above, eq_neg_iff_add_eq_zero, eq_neg_iff_add_eq_zero, add_comm]

/-- An integer that is not above a number is not above what that is rounded to. -/
theorem le_lopsided {n : ℤ} {q : ℚ} (below : n ≤ q) : n ≤ lopsided q := by
  unfold lopsided
  split_ifs
  · rw [round_eq, Int.le_floor]
    linarith
  · exact Int.cast_le.mp (below.trans (Int.le_ceil q))

/-- An integer that is not below a number is not below what that is rounded to. -/
theorem lopsided_le {n : ℤ} {q : ℚ} (above : q ≤ n) : lopsided q ≤ n := by
  unfold lopsided
  split_ifs
  · refine Int.lt_add_one_iff.mp ?_
    rw [round_eq, Int.floor_lt]
    push_cast
    linarith
  · exact Int.ceil_le.mpr above

/-- Rounding moves a number by less than one. -/
theorem abs_lopsided_sub_lt (q : ℚ) : |lopsided q - q| < 1 := by
  unfold lopsided
  split_ifs
  · rw [abs_sub_comm]
    exact (abs_sub_round q).trans_lt (by norm_num)
  · rw [abs_of_nonneg (sub_nonneg.mpr (Int.le_ceil q))]
    linarith [Int.ceil_lt_add_one q]

/-- Rounding to multiples of a unit passes none of them. -/
theorem rounded_between {unit q : ℚ} (positive : 0 < unit) (n : ℤ) :
    (n * unit ≤ q → n * unit ≤ lopsided (q / unit) * unit) ∧
      (q ≤ n * unit → lopsided (q / unit) * unit ≤ n * unit) := by
  constructor
  · intro below
    exact mul_le_mul_of_nonneg_right
      (Int.cast_le.mpr (le_lopsided ((le_div_iff₀ positive).mpr below))) positive.le
  · intro above
    exact mul_le_mul_of_nonneg_right
      (Int.cast_le.mpr (lopsided_le ((div_le_iff₀ positive).mpr above))) positive.le

/-- Rounding to multiples of a unit moves a number by less than the unit. -/
theorem abs_rounded_sub_lt {unit : ℚ} (positive : 0 < unit) (q : ℚ) :
    |lopsided (q / unit) * unit - q| < unit := by
  have moved := mul_lt_mul_of_pos_right (abs_lopsided_sub_lt (q / unit)) positive
  have split : lopsided (q / unit) * unit - q = (lopsided (q / unit) - q / unit) * unit := by
    rw [sub_mul, div_mul_cancel₀ _ positive.ne']
  rw [one_mul] at moved
  rwa [split, abs_mul, abs_of_pos positive]

/-- Rounding to multiples of a unit moves a number that is not negative by half of the unit at most. -/
theorem abs_rounded_sub_le_half {unit q : ℚ} (positive : 0 < unit) (nonneg : 0 ≤ q) :
    |lopsided (q / unit) * unit - q| ≤ unit / 2 := by
  have near := abs_sub_round (q / unit)
  have split : lopsided (q / unit) * unit - q = (lopsided (q / unit) - q / unit) * unit := by
    rw [sub_mul, div_mul_cancel₀ _ positive.ne']
  rw [split, lopsided, if_pos (div_nonneg nonneg positive.le), abs_mul, abs_of_pos positive,
    abs_sub_comm]
  linarith [mul_le_mul_of_nonneg_right near positive.le]

namespace Decimal

variable {x y : Decimal}

/-- Cutting digits off a mantissa rounds the number of units that it is. -/
theorem cut_eq_lopsided (mantissa : ℤ) (unit : ℕ) (positive : 0 < unit) :
    (if (unit : ℤ) ≤ 2 * mantissa.tmod unit then mantissa.tdiv unit + 1 else mantissa.tdiv unit) =
      lopsided (mantissa / unit) := by
  have cast : (0 : ℚ) < unit := Nat.cast_pos.mpr positive
  rcases le_or_gt 0 mantissa with nonneg | negative
  · have share : (0 : ℚ) ≤ (mantissa : ℚ) / unit := div_nonneg (Int.cast_nonneg nonneg) cast.le
    rw [lopsided, if_pos share, round_eq, eq_comm, Int.floor_eq_iff, ← sub_le_iff_le_add,
      ← lt_sub_iff_add_lt, le_div_iff₀ cast, div_lt_iff₀ cast]
    have division : (mantissa : ℚ) = mantissa.tdiv unit * unit + mantissa.tmod unit := by
      exact_mod_cast (Int.tdiv_mul_add_tmod mantissa unit).symm
    have lower : (0 : ℚ) ≤ mantissa.tmod unit := Int.cast_nonneg (Int.tmod_nonneg _ nonneg)
    have upper : (mantissa.tmod unit : ℚ) < unit := by
      exact_mod_cast Int.tmod_lt_of_pos mantissa (Int.natCast_pos.mpr positive)
    split_ifs with half
    · have half : (unit : ℚ) ≤ 2 * mantissa.tmod unit := by exact_mod_cast half
      constructor <;> push_cast <;> linarith
    · have half : 2 * (mantissa.tmod unit : ℚ) < unit := by exact_mod_cast not_le.mp half
      constructor <;> linarith
  · have share : (mantissa : ℚ) / unit < 0 := div_neg_of_neg_of_pos (Int.cast_lt_zero.mpr negative) cast
    have opposite := Int.neg_tmod mantissa unit
    have rest := Int.tmod_nonneg (a := -mantissa) (unit : ℤ) (by omega)
    rw [if_neg (by omega), lopsided, if_neg share.not_ge, ← truncated_div_eq_tdiv, truncated,
      Int.cast_natCast, if_neg share.not_ge]

/-- The unit of the last one of so many leading digits of a decimal. -/
def lastUnit (x : Decimal) (count : ℕ) : ℚ := 10 ^ ((x.digits : ℤ) - count - x.scale.toInt)

/-- Units are positive. -/
theorem lastUnit_pos (x : Decimal) (count : ℕ) : 0 < x.lastUnit count := ten_zpow_pos _

/-- A value in units is the mantissa, shifted by the digits that are dropped or filled up. -/
theorem rational_div_lastUnit (x : Decimal) (count : ℕ) :
    x.rational / x.lastUnit count = x.mantissa * 10 ^ ((count : ℤ) - x.digits) := by
  rw [rational, lastUnit, mul_div_assoc, ← zpow_sub₀ (by norm_num)]
  congr 2
  omega

/-- A decimal without excess digits is a multiple of the unit. -/
theorem lopsided_mul_lastUnit_of_le {count : ℕ} (enough : x.digits ≤ count) :
    lopsided (x.rational / x.lastUnit count) * x.lastUnit count = x.rational := by
  obtain ⟨missing, rfl⟩ : ∃ missing, count = x.digits + missing := ⟨count - x.digits, by omega⟩
  have whole : x.rational / x.lastUnit (x.digits + missing) =
      ((x.mantissa * 10 ^ missing : ℤ) : ℚ) := by
    rw [rational_div_lastUnit, Nat.cast_add, add_sub_cancel_left, zpow_natCast]
    push_cast
    rfl
  rw [whole, lopsided_intCast, ← whole, div_mul_cancel₀ _ (lastUnit_pos _ _).ne']

/-- Filling digits up does not change what is denoted, if the scale does not wrap. -/
theorem rational_withDigits_of_le {count : ℕ} (enough : x.digits ≤ count)
    (fits : x.scale.toInt + count - x.digits < 2 ^ 63) : (x.withDigits count).rational = x.rational := by
  rw [withDigits, if_neg (not_lt.mpr enough), rational, toInt_add_ofNat_of_fits (by omega), neg_add,
    ← ten_zpow_mul, Int.cast_mul, Int.cast_natCast, cast_tenTo, zpow_neg _ ((_ : ℕ) : ℤ), rational]
  field_simp

/-- Cutting excess digits off rounds in units, if the scale does not wrap. -/
theorem rational_withDigits_of_lt {count : ℕ} (excessive : count < x.digits)
    (fits : -2 ^ 63 ≤ x.scale.toInt + count - x.digits) :
    (x.withDigits count).rational = lopsided (x.rational / x.lastUnit count) * x.lastUnit count := by
  have power : (10 : ℚ) ^ ((count : ℤ) - x.digits) = (tenTo (x.digits - count) : ℚ)⁻¹ := by
    rw [cast_tenTo, ← zpow_neg]
    congr 1
    omega
  rw [withDigits, if_pos excessive]
  dsimp only
  rw [cut_eq_lopsided x.mantissa (tenTo (x.digits - count)) (Nat.pow_pos (by decide)),
    rational, toInt_sub_ofNat_of_fits (by omega), rational_div_lastUnit, power, lastUnit,
    div_eq_mul_inv]
  congr 2
  omega

/-- With so many digits a decimal is rounded in units, if no scale wraps. -/
theorem rational_withDigits {count : ℕ} (lower : -2 ^ 63 ≤ x.scale.toInt + count - x.digits)
    (upper : x.scale.toInt + count - x.digits < 2 ^ 63) :
    (x.withDigits count).rational = lopsided (x.rational / x.lastUnit count) * x.lastUnit count := by
  rcases Nat.lt_or_ge count x.digits with excessive | enough
  · exact rational_withDigits_of_lt excessive lower
  · rw [rational_withDigits_of_le enough upper, lopsided_mul_lastUnit_of_le enough]

/-- Taking so many digits keeps the sign. -/
theorem sign_withDigits {count : ℕ} (counted : 0 < count) : (x.withDigits count).sign = x.sign := by
  rcases Nat.lt_or_ge count x.digits with excessive | enough
  · have nonzero : x.mantissa ≠ 0 := by
      intro zero
      rw [digits_of_zero zero] at excessive
      omega
    obtain ⟨cut, form, sign, -⟩ := withDigits_of_lt nonzero counted excessive
    rw [form]
    exact sign
  · rw [withDigits, if_neg (not_lt.mpr enough)]
    exact (mantissa_tenTo _ _).2

/-- With so many digits a decimal has no more than one digit more, which rounding may carry to. -/
theorem digits_withDigits_le {count : ℕ} (counted : 0 < count) :
    (x.withDigits count).digits ≤ count + 1 := by
  by_cases zero : x.mantissa = 0
  · have single := digits_of_zero zero
    rw [withDigits, if_neg (by omega)]
    simp [digits, zero, Digits.count]
  have apart : 0 < (x.withDigits count).mantissa.natAbs := by
    refine Int.natAbs_pos.mpr fun none => zero (Int.sign_eq_zero_iff_zero.mp ?_)
    have kept := sign_withDigits (x := x) counted
    rw [sign, none] at kept
    exact kept.symm
  have limited : (x.withDigits count).mantissa.natAbs ≤ 10 ^ count := by
    rcases Nat.lt_or_ge count x.digits with excessive | enough
    · obtain ⟨cut, form, -, -, limited⟩ := withDigits_of_lt zero counted excessive
      rwa [form]
    · have below := (Digits.count_bounds x.mantissa.natAbs (Int.natAbs_pos.mpr zero)).2
      have filled : x.digits + (count - x.digits) = count := by omega
      rw [withDigits, if_neg (not_lt.mpr enough)]
      dsimp only
      rw [(mantissa_tenTo _ _).1]
      nth_rewrite 2 [← filled]
      rw [Nat.pow_add]
      exact Nat.mul_le_mul_right _ below.le
  exact (Digits.count_le_iff _ _ apart).mpr
    (limited.trans_lt (Nat.pow_lt_pow_right (by decide) (Nat.lt_succ_self count)))

/-- The scale with so many digits, if it does not wrap. -/
theorem toInt_scale_withDigits (count : ℕ) (lower : -2 ^ 63 ≤ x.scale.toInt + count - x.digits)
    (upper : x.scale.toInt + count - x.digits < 2 ^ 63) :
    (x.withDigits count).scale.toInt = x.scale.toInt + count - x.digits := by
  rcases Nat.lt_or_ge count x.digits with excessive | enough
  · rw [withDigits, if_pos excessive]
    dsimp only
    rw [toInt_sub_ofNat_of_fits (by omega)]
    omega
  · rw [withDigits, if_neg (not_lt.mpr enough)]
    dsimp only
    rw [toInt_add_ofNat_of_fits (by omega)]
    omega

/-- Filling digits up does not change the form without trailing zeros. -/
theorem normalized_withDigits_of_le {count : ℕ} (enough : x.digits ≤ count) :
    (x.withDigits count).normalized = x.normalized := by
  rw [withDigits, if_neg (not_lt.mpr enough)]
  dsimp only
  by_cases zero : x.mantissa = 0
  · simp [normalized, isZero, zero]
  · obtain ⟨rest, zeros, factor, last⟩ := exists_factor x.mantissa.natAbs (Int.natAbs_pos.mpr zero)
    obtain ⟨padded, sign⟩ := mantissa_tenTo x.mantissa (count - x.digits)
    rw [factor, Nat.mul_assoc, ← Nat.pow_add] at padded
    rw [normalized_factor x rest zeros factor last, normalized_factor _ rest _ padded last, sign,
      Int64.ofNat_add, Int64.add_comm (Int64.ofNat zeros), ← Int64.sub_sub, Int64.add_sub_cancel]

/-- Rounding takes a decimal to a multiple of the unit of the last digit, if there is room below the
scale. -/
theorem rational_rounded {count : ℕ} (counted : 0 < count)
    (roomy : -2 ^ 63 < x.scale.toInt - x.digits) :
    (x.withDigits count).normalized.rational =
      lopsided (x.rational / x.lastUnit count) * x.lastUnit count := by
  rcases Nat.lt_or_ge count x.digits with excessive | enough
  · have few := digits_withDigits_le (x := x) counted
    have bound := x.scale.toInt_lt
    have scale := toInt_scale_withDigits (x := x) count (by omega) (by omega)
    have room : -2 ^ 63 ≤ (x.withDigits count).scale.toInt - (x.withDigits count).digits := by omega
    rw [rational_normalized room, rational_withDigits_of_lt excessive (by omega)]
  · rw [normalized_withDigits_of_le enough, rational_normalized roomy.le,
      lopsided_mul_lastUnit_of_le enough]

/-- Of two ways to write a value as a multiple of a power of ten, one whose factor does not end in a
zero has not the smaller power. -/
theorem exponent_le_of_last {left right a b : ℤ} (last : right.natAbs % 10 ≠ 0)
    (same : (left : ℚ) * 10 ^ a = right * 10 ^ b) : a ≤ b := by
  by_contra larger
  obtain ⟨further, split⟩ : ∃ further : ℕ, a = further + 1 + b := ⟨(a - b - 1).toNat, by omega⟩
  have factor : right = left * 10 ^ further * 10 := by
    rw [split, ← ten_zpow_mul, ← ten_zpow_mul, zpow_natCast, zpow_one, ← mul_assoc, ← mul_assoc] at same
    exact_mod_cast (mul_right_cancel₀ (ten_zpow_pos b).ne' same).symm
  refine last ?_
  rw [factor, Int.natAbs_mul]
  exact Nat.mul_mod_left _ 10

/-- Of two forms of a value, one that does not end in a zero has not the larger scale. -/
theorem scale_le_of_last (last : y.mantissa.natAbs % 10 ≠ 0) (same : x.rational = y.rational) :
    y.scale.toInt ≤ x.scale.toInt :=
  neg_le_neg_iff.mp (exponent_le_of_last last same)

/-- A value has one settled form. -/
theorem Settled.eq_of_rational {count : ℕ} (left : x.Settled count) (right : y.Settled count)
    (same : x.rational = y.rational) : x = y := by
  rcases left with rfl | ⟨lastLeft, -⟩ <;> rcases right with rfl | ⟨lastRight, -⟩
  · rfl
  · rw [rational_zero, eq_comm, rational_eq_zero_iff] at same
    simp [same] at lastRight
  · rw [rational_zero, rational_eq_zero_iff] at same
    simp [same] at lastLeft
  · have scale : x.scale = y.scale := Int64.toInt_inj.mp
      (le_antisymm (scale_le_of_last lastLeft same.symm) (scale_le_of_last lastRight same))
    have power := (ten_zpow_pos (-y.scale.toInt)).ne'
    rw [rational, rational, scale] at same
    have mantissa := Int.cast_injective (mul_right_cancel₀ power same)
    cases x
    cases y
    simp_all

/-- Whether there is room below the scale for the digits. -/
def Roomy (x : Decimal) : Prop := -2 ^ 63 < x.scale.toInt - x.digits

/-- Whether the digits behind the first ones are worth less than half a unit of the last of these. -/
def DropsLittle (x : Decimal) (count : ℕ) : Prop :=
  Int.fract (|x.rational| / x.lastUnit count) < 1 / 2

end Decimal

/-! ## Rounding to a tier -/

namespace Rounded

variable {value : Decimal} {precision : Precision}

/-- Rounding to a tier takes a decimal to a multiple of the unit of the last digit of the tier. -/
theorem rational_make (roomy : value.Roomy) :
    (make value precision).value.rational =
      lopsided (value.rational / value.lastUnit precision.digits) *
        value.lastUnit precision.digits := by
  by_cases zero : value.mantissa = 0
  · rw [make, if_pos (by simpa [Decimal.isZero] using zero), Decimal.rational_zero,
      (Decimal.rational_eq_zero_iff value).mpr zero, zero_div, lopsided_zero, Int.cast_zero, zero_mul]
  · rw [make, if_neg (by simpa [Decimal.isZero] using zero)]
    exact Decimal.rational_rounded (by cases precision <;> decide) roomy

/-- A value that is not negative is rounded to the nearest. -/
theorem abs_make_sub_le (roomy : value.Roomy) (nonneg : 0 ≤ value.rational) :
    |(make value precision).value.rational - value.rational| ≤
      value.lastUnit precision.digits / 2 := by
  rw [rational_make roomy]
  exact abs_rounded_sub_le_half (value.lastUnit_pos _) nonneg

/-- A value that is not positive is rounded toward zero, by less than a unit. -/
theorem make_toward_zero (roomy : value.Roomy) (nonpos : value.rational ≤ 0) :
    value.rational ≤ (make value precision).value.rational ∧
      (make value precision).value.rational ≤ 0 ∧
      (make value precision).value.rational < value.rational + value.lastUnit precision.digits := by
  have unit := value.lastUnit_pos precision.digits
  have share := div_nonpos_of_nonpos_of_nonneg nonpos unit.le
  have split : value.rational =
      value.rational / value.lastUnit precision.digits * value.lastUnit precision.digits :=
    (div_mul_cancel₀ _ unit.ne').symm
  have ceiling : lopsided (value.rational / value.lastUnit precision.digits) =
      ⌈value.rational / value.lastUnit precision.digits⌉ := by
    unfold lopsided
    split_ifs with nonneg
    · rw [le_antisymm share nonneg, round_zero, Int.ceil_zero]
    · rfl
  rw [rational_make roomy, ceiling]
  refine ⟨?_, ?_, ?_⟩
  · nth_rewrite 1 [split]
    exact mul_le_mul_of_nonneg_right (Int.le_ceil _) unit.le
  · exact mul_nonpos_of_nonpos_of_nonneg (Int.cast_nonpos.mpr (Int.ceil_le.mpr (by simpa using share)))
      unit.le
  · have below := mul_lt_mul_of_pos_right (Int.ceil_lt_add_one
      (value.rational / value.lastUnit precision.digits)) unit
    rwa [add_mul, one_mul, ← split] at below

/-- The decimal with the opposite sign. -/
def opposite (rounded : Rounded) : Rounded := ⟨rounded.value.negated, rounded.precision⟩

/-- Rounding commutes with a change of sign exactly where less than half a unit is dropped. -/
theorem make_negated_iff (roomy : value.Roomy) :
    make value.negated precision = (make value precision).opposite ↔
      value.DropsLittle precision.digits := by
  have magnitude : |value.rational / value.lastUnit precision.digits| =
      |value.rational| / value.lastUnit precision.digits := by
    rw [abs_div, abs_of_pos (value.lastUnit_pos _)]
  have digits : value.negated.digits = value.digits := by
    rw [Decimal.digits, Decimal.negated, Int.natAbs_neg, Decimal.digits]
  have roomyToo : value.negated.Roomy := by
    rw [Decimal.Roomy, digits]
    exact roomy
  have unit : value.negated.lastUnit precision.digits = value.lastUnit precision.digits := by
    rw [Decimal.lastUnit, digits]
    rfl
  have values : (make value.negated precision).value.rational =
      (make value precision).opposite.value.rational ↔ value.DropsLittle precision.digits := by
    have opposite : (make value precision).opposite.value.rational =
        -(make value precision).value.rational := Decimal.rational_negated _
    rw [rational_make roomyToo, opposite, rational_make roomy, unit, Decimal.rational_negated,
      neg_div, ← neg_mul, mul_left_inj' (value.lastUnit_pos _).ne', ← Int.cast_neg, Int.cast_inj,
      lopsided_neg_iff, magnitude, Decimal.DropsLittle]
  rw [← values]
  constructor
  · intro same
    rw [same]
  · intro same
    have settled := (make_settled value precision).negated
    have form := (make_settled value.negated precision).eq_of_rational settled same
    exact congrArg (fun value => Rounded.mk value precision) form

end Rounded

/-! ## Opposites -/

namespace Decimal

/-- The sum of the opposites is the opposite of the sum. -/
theorem negated_add (x y : Decimal) : x.negated.add y.negated = (x.add y).negated := by
  simp only [add, negated, mantissaAt, neg_mul, neg_add]
  rfl

/-- The opposites have the opposite quotient, unless one of the numbers is the other or its
opposite. -/
theorem negated_divide {x y : Decimal} (apart : x.mantissa ≠ y.mantissa)
    (apartToo : -x.mantissa ≠ y.mantissa) : x.negated.divide y = (x.divide y).negated := by
  have zero : x.negated.isZero = x.isZero := by
    rw [Bool.eq_iff_iff]
    simp [isZero, negated]
  unfold divide
  rw [zero]
  by_cases plain : (x.isZero || y.isOne) = true
  · rw [if_pos plain, if_pos plain]
  · dsimp only
    rw [if_neg plain, if_neg plain, if_neg apart, negated, if_neg apartToo, Int.natAbs_neg,
      Int.sign_neg, neg_mul, neg_mul]
    rfl

end Decimal

/-- The sums among the operations. -/
def Command.sum? : Command → Option (Decimal → Decimal → Decimal)
  | .add => some Decimal.add
  | .subtract => some Decimal.subtract
  | _ => none

/-- There are two sums. -/
theorem Command.sum?_eq_some {command : Command} {operation : Decimal → Decimal → Decimal}
    (known : command.sum? = some operation) :
    command = .add ∧ operation = .add ∨ command = .subtract ∧ operation = .subtract := by
  cases command <;> simp only [sum?, Option.some.injEq, reduceCtorEq] at known
  · exact .inl ⟨rfl, known.symm⟩
  · exact .inr ⟨rfl, known.symm⟩

namespace Real

variable {x y : Real}

/-- An integer is the same as a decimal. -/
theorem toDecimal_ofInt (value : ℤ) : (ofInt value).toDecimal = .ofInt value := by
  by_cases small : value.natAbs < UInt64.size
  · obtain ⟨word, form, same⟩ := ofInt_of_small small
    rw [form, toDecimal, same]
  · rw [ofInt, dif_pos (Nat.le_of_not_lt small), toDecimal]

/-- The opposite is the opposite as a decimal. -/
theorem toDecimal_negated (x : Real) : x.negated.toDecimal = x.toDecimal.negated := by
  cases x with
  | word value => rw [negated, toDecimal, value.toInt_negated, toDecimal]; rfl
  | wide value => rw [negated, toDecimal_ofInt, toDecimal]; rfl
  | decimal value => rfl
  | fraction value =>
    -- Lowest terms keep the parts of a fraction apart.
    have apart : value.numerator.natAbs ≠ value.denominator := by
      intro same
      have reduced := value.reduced
      have proper := value.proper
      rw [same, Nat.gcd_self] at reduced
      omega
    have apartToo : (-value.numerator).natAbs ≠ value.denominator := by rwa [Int.natAbs_neg]
    exact Decimal.negated_divide (x := .ofInt value.numerator) (y := .ofNat value.denominator)
      (fun same => apart (congrArg Int.natAbs same))
      fun same => apartToo (congrArg Int.natAbs same)

/-- The opposite belongs to the same tier. -/
theorem precision_negated (x : Real) (settings : Preferences) :
    x.negated.precision settings = x.precision settings := by
  cases x with
  | wide value =>
    rw [negated, ofInt]
    split <;> rfl
  | _ => rfl

/-- The tier of the result of an operation. -/
def tier (x y : Real) (settings : Preferences) : Precision :=
  Precision.widest (x.precision settings) (y.precision settings)

/-- A sum of which an operand is a decimal is the exact sum, rounded to the wider tier. -/
theorem operate_sum {command : Command} {operation : Decimal → Decimal → Decimal}
    (known : command.sum? = some operation)
    (inexact : (∃ value, x = .decimal value) ∨ ∃ value, y = .decimal value)
    (settings : Preferences) :
    operate command x y settings =
      .ok (.ofDecimal (operation x.toDecimal y.toDecimal) (tier x y settings)) := by
  rw [operate_decimal command inexact]
  obtain ⟨rfl, rfl⟩ | ⟨rfl, rfl⟩ := Command.sum?_eq_some known <;> rfl

/-- The sum of the opposites is the opposite of the sum exactly where rounding the sum drops less
than half a unit. -/
theorem operate_sum_negated_iff {command : Command} {operation : Decimal → Decimal → Decimal}
    (known : command.sum? = some operation)
    (inexact : (∃ value, x = .decimal value) ∨ ∃ value, y = .decimal value)
    (settings : Preferences) (roomy : (operation x.toDecimal y.toDecimal).Roomy) :
    operate command x.negated y.negated settings =
        (operate command x y settings).map Real.negated ↔
      (operation x.toDecimal y.toDecimal).DropsLittle (tier x y settings).digits := by
  have opposites : operation x.negated.toDecimal y.negated.toDecimal =
      (operation x.toDecimal y.toDecimal).negated := by
    rw [toDecimal_negated, toDecimal_negated]
    obtain ⟨-, rfl⟩ | ⟨-, rfl⟩ := Command.sum?_eq_some known <;> exact Decimal.negated_add _ _
  have inexactToo : (∃ value, x.negated = .decimal value) ∨ ∃ value, y.negated = .decimal value :=
    inexact.imp (fun ⟨value, form⟩ => ⟨value.opposite, form ▸ rfl⟩)
      fun ⟨value, form⟩ => ⟨value.opposite, form ▸ rfl⟩
  have same : tier x.negated y.negated settings = tier x y settings := by
    rw [tier, precision_negated, precision_negated, tier]
  rw [operate_sum known inexactToo, operate_sum known inexact, opposites, same,
    ← Rounded.make_negated_iff roomy]
  constructor
  · intro sums
    exact Real.decimal.inj (Except.ok.inj sums)
  · intro made
    exact congrArg (fun value => Except.ok (Real.decimal value)) made

end Real

namespace Arithmetic

/-- Conversion of a number that is exact to a decimal. -/
theorem toDecimal_exact {x : Real} (exact : x.isExact = true) (settings : Preferences) :
    toDecimal settings (.real x) = .ok (.real (.ofDecimal x.toDecimal settings.precision)) := by
  cases x with
  | decimal value => cases exact
  | _ => rfl

/-- The decimal of the opposite is the opposite of the decimal exactly where rounding drops less than
half a unit. -/
theorem toDecimal_negated_iff {x : Real} (exact : x.isExact = true) (settings : Preferences)
    (roomy : x.toDecimal.Roomy) :
    toDecimal settings (.real x.negated) =
        .ok (.real (Real.ofDecimal x.toDecimal settings.precision).negated) ↔
      x.toDecimal.DropsLittle settings.precision.digits := by
  rw [toDecimal_exact (x.isExact_negated.trans exact), Real.toDecimal_negated,
    ← Rounded.make_negated_iff roomy]
  constructor
  · intro same
    exact Real.decimal.inj (Value.real.inj (Except.ok.inj same))
  · intro made
    exact congrArg (fun value => Except.ok (Value.real (.decimal value))) made

/-- Rounding to a tier, the sums that are rounded and the conversion to decimals. A value that is not
negative is rounded to the nearest decimal of the tier, and a value that is not positive is cut toward
zero. For each of the three a change of sign before is a change of sign behind exactly where the digits
that are dropped are worth less than half a unit of the last digit. -/
theorem rounding_opposite (value : Decimal) (tier : Precision) (x y : Real)
    (settings : Preferences) :
    (value.Roomy →
      (0 ≤ value.rational →
        |(Rounded.make value tier).value.rational - value.rational| ≤
          value.lastUnit tier.digits / 2) ∧
      (value.rational ≤ 0 →
        value.rational ≤ (Rounded.make value tier).value.rational ∧
          (Rounded.make value tier).value.rational ≤ 0 ∧
          (Rounded.make value tier).value.rational < value.rational + value.lastUnit tier.digits) ∧
      (Rounded.make value.negated tier = (Rounded.make value tier).opposite ↔
        value.DropsLittle tier.digits)) ∧
    (∀ command operation, Command.sum? command = some operation →
      ((∃ value, x = .decimal value) ∨ ∃ value, y = .decimal value) →
      (operation x.toDecimal y.toDecimal).Roomy →
      ∃ sum : Real, binary command (.real x) (.real y) settings = .ok (.real sum) ∧
        (binary command (.real x.negated) (.real y.negated) settings = .ok (.real sum.negated) ↔
          (operation x.toDecimal y.toDecimal).DropsLittle (x.tier y settings).digits)) ∧
    (x.isExact = true → x.toDecimal.Roomy →
      ∃ rounded : Real, toDecimal settings (.real x) = .ok (.real rounded) ∧
        (toDecimal settings (.real x.negated) = .ok (.real rounded.negated) ↔
          x.toDecimal.DropsLittle settings.precision.digits)) := by
  refine ⟨fun roomy => ⟨Rounded.abs_make_sub_le roomy, Rounded.make_toward_zero roomy,
    Rounded.make_negated_iff roomy⟩, ?_, ?_⟩
  · intro command operation known inexact roomy
    have real (a b : Real) :
        binary command (.real a) (.real b) settings = (a.operate command b settings).map .real := by
      obtain ⟨rfl, -⟩ | ⟨rfl, -⟩ := Command.sum?_eq_some known <;> exact binary_real rfl a b settings
    have opposites := Real.operate_sum_negated_iff known inexact settings roomy
    have sum := Real.operate_sum known inexact settings
    rw [sum] at opposites
    refine ⟨_, by rw [real, sum]; rfl, ?_⟩
    rw [real, ← opposites]
    constructor
    · intro same
      obtain ⟨_, found, form⟩ := Outcome.map_eq_ok.mp same
      rw [found, Value.real.inj form]
      rfl
    · intro same
      rw [same]
      rfl
  · intro exact roomy
    exact ⟨_, toDecimal_exact exact settings, toDecimal_negated_iff exact settings roomy⟩

/-- Four tenths are dropped on either side of zero. -/
theorem rounding_opposite_tenths :
    let whole : Real := .decimal ⟨⟨1234567, 0⟩, .decimal32⟩
    let part : Real := .decimal ⟨⟨4, 1⟩, .decimal32⟩
    |(Rounded.make ⟨12345674, 1⟩ .decimal32).value.rational - 12345674 / 10| ≤ 1 / 2 ∧
      (∃ sum : Real, binary .add (.real whole) (.real part) {} = .ok (.real sum) ∧
        binary .add (.real whole.negated) (.real part.negated) {} = .ok (.real sum.negated)) ∧
      ∃ rounded : Real, toDecimal {} (.real (.ofInt 7)) = .ok (.real rounded) ∧
        toDecimal {} (.real (Real.ofInt 7).negated) = .ok (.real rounded.negated) := by
  intro whole part
  obtain ⟨rounding, sums, -⟩ := rounding_opposite ⟨12345674, 1⟩ .decimal32 whole part {}
  have one : (1 : Int64).toInt = 1 := rfl
  have zero : (0 : Int64).toInt = 0 := rfl
  have digits : (⟨12345674, 1⟩ : Decimal).digits = 8 := by simp [Decimal.digits, Digits.count]
  have value : (⟨12345674, 1⟩ : Decimal).rational = 12345674 / 10 := by
    simp [Decimal.rational, one, div_eq_mul_inv]
  have unit : (⟨12345674, 1⟩ : Decimal).lastUnit Precision.decimal32.digits = 1 := by
    simp [Decimal.lastUnit, digits, one, Precision.digits]
  have roomy : (⟨12345674, 1⟩ : Decimal).Roomy := by
    rw [Decimal.Roomy, digits]
    decide
  have little : (⟨12345674, 1⟩ : Decimal).DropsLittle Precision.decimal32.digits := by
    rw [Decimal.DropsLittle, value, unit]
    norm_num
  refine ⟨?_, ?_, ?_⟩
  · have near := (rounding roomy).1 (by rw [value]; norm_num)
    rwa [unit, value] at near
  · have together : whole.toDecimal.add part.toDecimal = ⟨12345674, 1⟩ := by decide
    obtain ⟨sum, found, opposite⟩ :=
      sums .add _ rfl (.inl ⟨_, rfl⟩) (by rwa [together])
    rw [together] at opposite
    exact ⟨sum, found, opposite.mpr little⟩
  · have single : (Real.ofInt 7).toDecimal = .ofInt 7 := Real.toDecimal_ofInt 7
    have count : (Decimal.ofInt 7).digits = 1 := by simp [Decimal.ofInt, Decimal.digits, Digits.count]
    have fits : (Real.ofInt 7).toDecimal.Roomy := by
      rw [single, Decimal.Roomy, count]
      decide
    obtain ⟨-, -, conversion⟩ := rounding_opposite (.ofInt 7) .decimal32 (.ofInt 7) (.ofInt 7) {}
    obtain ⟨rounded, found, opposite⟩ := conversion (by decide) fits
    refine ⟨rounded, found, opposite.mpr ?_⟩
    rw [single, Decimal.DropsLittle, Decimal.lastUnit, count, Decimal.rational_ofInt]
    norm_num [Decimal.ofInt, zero, Precision.digits]

/-- Rounding cuts a value below zero at a digit of six that two thirds of a unit follow, where it
rounds the opposite value up. -/
theorem rounding_lopsided :
    let value : Decimal := ⟨66666666666666666666, 20⟩
    Rounded.make value .decimal64 = ⟨⟨6666666666666667, 16⟩, .decimal64⟩ ∧
      Rounded.make value.negated .decimal64 = ⟨⟨-6666666666666666, 16⟩, .decimal64⟩ ∧
      value.negated.lastUnit Precision.decimal64.digits / 2 <
        |(Rounded.make value.negated .decimal64).value.rational - value.negated.rational| := by
  intro value
  have scale : (20 : Int64) - 4 = 16 := rfl
  have cut : (-66666666666666666666 : ℤ).tdiv 10000 = -6666666666666666 := by decide
  have rest : (-66666666666666666666 : ℤ).tmod 10000 = -6666 := by decide
  have below : Rounded.make value.negated .decimal64 = ⟨⟨-6666666666666666, 16⟩, .decimal64⟩ := by
    simp [value, Decimal.negated, Rounded.make, Decimal.isZero, Decimal.withDigits, Decimal.digits,
      Digits.count, Precision.digits, tenTo, Decimal.normalized, Decimal.dropZeros, scale, cut, rest]
  have above : Rounded.make value .decimal64 = ⟨⟨6666666666666667, 16⟩, .decimal64⟩ := by
    simp [value, Rounded.make, Decimal.isZero, Decimal.withDigits, Decimal.digits, Digits.count,
      Precision.digits, tenTo, Decimal.normalized, Decimal.dropZeros, scale]
  have twenty : (20 : Int64).toInt = 20 := rfl
  have sixteen : (16 : Int64).toInt = 16 := rfl
  have digits : value.negated.digits = 20 := by
    simp [value, Decimal.negated, Decimal.digits, Digits.count]
  refine ⟨above, below, ?_⟩
  rw [below, Decimal.lastUnit, digits]
  norm_num [value, Decimal.negated, Decimal.rational, Precision.digits, twenty, sixteen, abs_of_pos]

end Arithmetic

end Calculator
