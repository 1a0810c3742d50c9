import Calculator.Proofs.Number.Nearest
import Mathlib

/-!
# Rounding as a projection

Rounding leaves a value at most the digits of its tier and no zero at the end, and rounding once more
changes nothing. Between two powers of ten it goes to multiples of one unit, and the powers of ten are
multiples of the units on either side of them, so that it never brings two values into the opposite
order. The scale of the result has to fit a machine word for that: where it wraps, a huge value becomes
a tiny one.
-/

namespace Calculator

/-- Rounding to integers keeps the order. -/
theorem lopsided_mono : Monotone lopsided := by
  intro p q below
  rcases le_or_gt 0 p with nonneg | negative
  · rw [lopsided, lopsided, if_pos nonneg, if_pos (nonneg.trans below), round_eq, round_eq]
    exact Int.floor_le_floor (by linarith)
  · rcases le_or_gt 0 q with above | negativeToo
    · have zero : ((0 : ℤ) : ℚ) = 0 := Int.cast_zero
      exact (lopsided_le (zero ▸ negative.le)).trans (le_lopsided (zero ▸ above))
    · rw [lopsided, lopsided, if_neg negative.not_ge, if_neg negativeToo.not_ge]
      exact Int.ceil_le_ceil below

namespace Decimal

variable {x y : Decimal} {count : ℕ}

/-! ## What rounding leads to -/

/-- The multiple of the unit of the last one of so many digits that a decimal is rounded to. -/
def rounded (x : Decimal) (count : ℕ) : ℚ := lopsided (x.rational / x.lastUnit count) * x.lastUnit count

/-- A power of ten from the last digit that is kept upward is not passed by rounding. -/
theorem rounded_power {position : ℤ} (coarse : (x.digits : ℤ) - count - x.scale.toInt ≤ position) :
    (10 ^ position ≤ x.rational → 10 ^ position ≤ x.rounded count) ∧
      (x.rational ≤ 10 ^ position → x.rounded count ≤ 10 ^ position) ∧
      (-10 ^ position ≤ x.rational → -10 ^ position ≤ x.rounded count) ∧
      (x.rational ≤ -10 ^ position → x.rounded count ≤ -10 ^ position) := by
  obtain ⟨multiple, form⟩ := exists_multiple 1 coarse
  have opposite : -(10 : ℚ) ^ position = ((-multiple : ℤ) : ℚ) * x.lastUnit count := by
    rw [lastUnit, Int.cast_neg, neg_mul, ← form, Int.cast_one, one_mul]
  rw [Int.cast_one, one_mul, ← lastUnit] at form
  have positive := rounded_between (q := x.rational) (x.lastUnit_pos count) multiple
  have negative := rounded_between (q := x.rational) (x.lastUnit_pos count) (-multiple)
  rw [← form] at positive
  rw [← opposite] at negative
  exact ⟨positive.1, positive.2, negative.1, negative.2⟩

/-- Rounding does not pass zero. -/
theorem rounded_sign (x : Decimal) (count : ℕ) :
    (0 ≤ x.rational → 0 ≤ x.rounded count) ∧ (x.rational ≤ 0 → x.rounded count ≤ 0) := by
  have between := rounded_between (q := x.rational) (x.lastUnit_pos count) 0
  rwa [Int.cast_zero, zero_mul] at between

/-- Rounding keeps the order of values whose digits begin at the same power of ten. -/
theorem rounded_le_of_position (same : (x.digits : ℤ) - x.scale.toInt = y.digits - y.scale.toInt)
    (below : x.rational ≤ y.rational) : x.rounded count ≤ y.rounded count := by
  have unit : x.lastUnit count = y.lastUnit count := by
    rw [lastUnit, lastUnit]
    congr 1
    omega
  have positive := y.lastUnit_pos count
  rw [rounded, rounded, unit]
  exact mul_le_mul_of_nonneg_right
    (Int.cast_le.mpr (lopsided_mono (div_le_div_of_nonneg_right below positive.le))) positive.le

/-- Rounding keeps the order of values above zero. -/
theorem rounded_le_of_pos (counted : 0 < count) (positive : 0 < x.rational)
    (below : x.rational ≤ y.rational) : x.rounded count ≤ y.rounded count := by
  have left := rational_bounds ((rational_pos_iff x).mp positive).ne'
  have right := rational_bounds ((rational_pos_iff y).mp (positive.trans_le below)).ne'
  rw [abs_of_pos positive] at left
  rw [abs_of_pos (positive.trans_le below)] at right
  have order := (zpow_lt_zpow_iff_right₀ (by norm_num : (1 : ℚ) < 10)).mp
    (left.1.trans_lt (below.trans_lt right.2))
  by_cases same : (x.digits : ℤ) - x.scale.toInt = y.digits - y.scale.toInt
  · exact rounded_le_of_position same below
  · -- The power of ten below which the digits of the smaller value begin lies between the two.
    calc x.rounded count
      _ ≤ 10 ^ ((x.digits : ℤ) - x.scale.toInt) := (rounded_power (by omega)).2.1 left.2.le
      _ ≤ 10 ^ ((y.digits : ℤ) - 1 - y.scale.toInt) := ten_zpow_le (by omega)
      _ ≤ y.rounded count := (rounded_power (by omega)).1 right.1

/-- Rounding keeps the order of values below zero. -/
theorem rounded_le_of_neg (counted : 0 < count) (negative : y.rational < 0)
    (below : x.rational ≤ y.rational) : x.rounded count ≤ y.rounded count := by
  have left := rational_bounds ((rational_neg_iff x).mp (below.trans_lt negative)).ne
  have right := rational_bounds ((rational_neg_iff y).mp negative).ne
  rw [abs_of_neg (below.trans_lt negative)] at left
  rw [abs_of_neg negative] at right
  have order := (zpow_lt_zpow_iff_right₀ (by norm_num : (1 : ℚ) < 10)).mp
    (right.1.trans_lt ((neg_le_neg below).trans_lt left.2))
  by_cases same : (x.digits : ℤ) - x.scale.toInt = y.digits - y.scale.toInt
  · exact rounded_le_of_position same below
  · calc x.rounded count
      _ ≤ -10 ^ ((x.digits : ℤ) - 1 - x.scale.toInt) :=
        (rounded_power (by omega)).2.2.2 (le_neg.mp left.1)
      _ ≤ -10 ^ ((y.digits : ℤ) - y.scale.toInt) := neg_le_neg (ten_zpow_le (by omega))
      _ ≤ y.rounded count := (rounded_power (by omega)).2.2.1 (neg_le.mp right.2.le)

/-- Rounding keeps the order. -/
theorem rounded_mono (counted : 0 < count) (below : x.rational ≤ y.rational) :
    x.rounded count ≤ y.rounded count := by
  rcases lt_or_ge 0 x.rational with positive | nonpos
  · exact rounded_le_of_pos counted positive below
  · rcases lt_or_ge y.rational 0 with negative | nonneg
    · exact rounded_le_of_neg counted negative below
    · exact ((x.rounded_sign count).2 nonpos).trans ((y.rounded_sign count).1 nonneg)

/-! ## Results whose scale fits -/

/-- Whether a settled decimal denotes what rounding to so many digits leads to. Where there is none,
its scale would not fit a machine word. -/
def Representable (x : Decimal) (count : ℕ) : Prop :=
  ∃ y : Decimal, y.Settled count ∧ y.rational = x.rounded count

/-- The form without trailing zeros of a value whose scale may have wrapped is the settled form of the
value, if there is one. -/
theorem normalized_of_settled {mantissa exponent : ℤ} (settled : y.Settled count)
    (same : y.rational = mantissa * 10 ^ exponent) :
    (⟨mantissa, Int64.ofInt (-exponent)⟩ : Decimal).normalized = y := by
  by_cases none : mantissa = 0
  · rw [none, Int.cast_zero, zero_mul, rational_eq_zero_iff] at same
    obtain rfl | ⟨last, -⟩ := settled
    · simp [normalized, isZero, none]
    · simp [same] at last
  · obtain rfl | ⟨lastToo, -⟩ := settled
    · rw [rational_zero, zero_eq_mul, Int.cast_eq_zero] at same
      exact absurd (same.resolve_right (ten_zpow_pos exponent).ne') none
    obtain ⟨rest, zeros, factor, last⟩ := exists_factor mantissa.natAbs (Int.natAbs_pos.mpr none)
    have shortest : y.rational = (mantissa.sign * rest : ℤ) * 10 ^ (zeros + exponent) := by
      have split : mantissa = mantissa.sign * rest * 10 ^ zeros := by
        nth_rewrite 1 [← Int.sign_mul_natAbs mantissa]
        rw [factor]
        push_cast
        ring
      rw [same, ← ten_zpow_mul, zpow_natCast, ← mul_assoc]
      congr 1
      exact_mod_cast split
    -- Neither form ends in a zero, so that the exact exponents agree.
    have exponents : -y.scale.toInt = zeros + exponent :=
      le_antisymm (exponent_le_of_last (by rwa [natAbs_sign_mul none]) shortest)
        (exponent_le_of_last lastToo shortest.symm)
    have mantissas : y.mantissa = mantissa.sign * rest := by
      rw [rational, exponents] at shortest
      exact_mod_cast mul_right_cancel₀ (ten_zpow_pos _).ne' shortest
    have scales : Int64.ofInt (-exponent) - Int64.ofNat zeros = y.scale := by
      rw [← Int64.ofInt_toInt y.scale, ← neg_neg y.scale.toInt, exponents, neg_add_rev,
        ← sub_eq_add_neg, Int64.ofInt_sub]
      rfl
    rw [normalized_factor _ rest zeros factor last, ← mantissas, scales]

/-- Rounding finds the settled form of what it leads to. -/
theorem normalized_withDigits_eq (settled : y.Settled count) (same : y.rational = x.rounded count) :
    (x.withDigits count).normalized = y := by
  rcases Nat.lt_or_ge count x.digits with excessive | enough
  · have power : (10 : ℚ) ^ ((count : ℤ) - x.digits) = (tenTo (x.digits - count) : ℚ)⁻¹ := by
      rw [cast_tenTo, ← zpow_neg]
      congr 1
      omega
    have scale : x.scale - Int64.ofNat (x.digits - count) =
        Int64.ofInt (-((x.digits : ℤ) - count - x.scale.toInt)) := by
      have exact : -((x.digits : ℤ) - count - x.scale.toInt) =
          x.scale.toInt - ((x.digits - count : ℕ) : ℤ) := by omega
      rw [exact, Int64.ofInt_sub, Int64.ofInt_toInt]
      rfl
    rw [withDigits, if_pos excessive]
    dsimp only
    rw [cut_eq_lopsided x.mantissa (tenTo (x.digits - count)) (Nat.pow_pos (by decide)), scale]
    refine normalized_of_settled settled ?_
    rw [same, rounded, rational_div_lastUnit, power, ← div_eq_mul_inv]
    rfl
  · rw [normalized_withDigits_of_le enough]
    rw [rounded, lopsided_mul_lastUnit_of_le enough] at same
    have form := normalized_of_settled settled same
    rwa [neg_neg, Int64.ofInt_toInt] at form

end Decimal

/-! ## Rounding to a tier -/

namespace Rounded

variable {value y : Decimal} {tier : Precision}

/-- Rounding to a tier finds the settled form of what it leads to. -/
theorem value_make_eq (settled : y.Settled tier.digits)
    (same : y.rational = value.rounded tier.digits) : (make value tier).value = y := by
  by_cases zero : value.mantissa = 0
  · have none := (Decimal.rational_eq_zero_iff value).mpr zero
    rw [make, if_pos (by simpa [Decimal.isZero] using zero)]
    refine Decimal.Settled.eq_of_rational (.inl rfl) settled ?_
    rw [Decimal.rational_zero, same]
    exact le_antisymm ((value.rounded_sign _).1 none.ge) ((value.rounded_sign _).2 none.le)
  · rw [make, if_neg (by simpa [Decimal.isZero] using zero)]
    exact Decimal.normalized_withDigits_eq settled same

/-- Rounding to a tier is exact where the result has a scale that fits. -/
theorem rational_make_iff :
    (make value tier).value.rational = value.rounded tier.digits ↔
      value.Representable tier.digits := by
  constructor
  · intro exact
    exact ⟨_, make_settled value tier, exact⟩
  · rintro ⟨y, settled, same⟩
    rw [value_make_eq settled same, same]

/-- Rounding to a tier is a projection that respects the order. It gives a form that has at most the
digits of the tier and does not end in a zero, and rounding that once more changes nothing. Where a
value has room below its scale the result represents what rounding leads to; wherever it does so for two
values, these do not come into the opposite order. -/
theorem make_projection (value other : Decimal) (tier : Precision) :
    ((make value tier).value.digits ≤ tier.digits ∧
      ((make value tier).value = .zero ∨ (make value tier).value.mantissa % 10 ≠ 0)) ∧
    make (make value tier).value tier = make value tier ∧
    (value.Roomy → value.Representable tier.digits) ∧
    (value.Representable tier.digits →
      (make value tier).value.rational = value.rounded tier.digits) ∧
    (value.Representable tier.digits → other.Representable tier.digits →
      value.order other ≠ .gt → (make value tier).value.order (make other tier).value ≠ .gt) := by
  have counted : 0 < tier.digits := by cases tier <;> decide
  refine ⟨?_, make_of_isMade ⟨value, rfl⟩, fun roomy => ?_, rational_make_iff.mpr, ?_⟩
  · obtain zero | ⟨last, below⟩ := make_settled value tier
    · rw [zero]
      refine ⟨?_, .inl rfl⟩
      rwa [Decimal.digits_of_zero rfl]
    · exact ⟨(Digits.count_le_iff _ _ (by omega)).mpr below, .inr (by omega)⟩
  · exact ⟨_, make_settled value tier, rational_make roomy⟩
  · intro left right order
    rw [Decimal.order_eq, compare_le_iff_le] at order ⊢
    rw [rational_make_iff.mpr left, rational_make_iff.mpr right]
    exact Decimal.rounded_mono counted order

/-- Of two values on either side of a power of ten the smaller one is carried up to it and the larger
one is cut down to it. -/
theorem make_projection_seam :
    let below : Decimal := ⟨99999996, 1⟩
    let above : Decimal := ⟨100000004, 1⟩
    below.Roomy ∧ above.Roomy ∧ below.order above ≠ .gt ∧
      (make below .decimal32).value.order (make above .decimal32).value ≠ .gt := by
  intro below above
  have digitsBelow : below.digits = 8 := by simp [below, Decimal.digits, Digits.count]
  have digitsAbove : above.digits = 9 := by simp [above, Decimal.digits, Digits.count]
  have roomyBelow : below.Roomy := by
    rw [Decimal.Roomy, digitsBelow]
    decide
  have roomyAbove : above.Roomy := by
    rw [Decimal.Roomy, digitsAbove]
    decide
  have order : below.order above ≠ .gt := by
    rw [Decimal.order_eq, compare_le_iff_le]
    exact mul_le_mul_of_nonneg_right (by norm_num [below, above]) (ten_zpow_pos _).le
  obtain ⟨-, -, representable, -, ordered⟩ := make_projection below above .decimal32
  obtain ⟨-, -, representableToo, -, -⟩ := make_projection above below .decimal32
  exact ⟨roomyBelow, roomyAbove, order,
    ordered (representable roomyBelow) (representableToo roomyAbove) order⟩

/-- At the end of the range of scales the zeros that rounding drops from a huge value take its scale to
the other end of the range, and it comes below one half. -/
theorem make_disordered :
    let other : Decimal := ⟨100, -9223372036854775807⟩
    Decimal.half.order other = .lt ∧
      (make other .decimal64).value.order (make .half .decimal64).value = .lt := by
  intro other
  have kept : (make .half .decimal64).value = .half := by
    have settled : Decimal.half.Settled Precision.decimal64.digits := .inr ⟨by decide, by decide⟩
    rw [make_of_settled .half .decimal64 settled]
  have wrapped : (make other .decimal64).value = ⟨1, Int64.maxValue⟩ := by
    have short : other.digits ≤ Precision.decimal64.digits := by
      simp [other, Decimal.digits, Digits.count, Precision.digits]
    have factor : other.mantissa.natAbs = 1 * 10 ^ 2 := by decide
    rw [make, if_neg (by decide)]
    exact (Decimal.normalized_withDigits short factor (by decide)).trans (by decide)
  have large : (1 : ℚ) ≤ 10 ^ (-other.scale.toInt) := one_le_zpow₀ (by norm_num) (by decide)
  have small : (10 : ℚ) ^ (-Int64.maxValue.toInt) ≤ 10 ^ (-1 : ℤ) := ten_zpow_le (by decide)
  rw [kept, wrapped, Decimal.order_eq, Decimal.order_eq, compare_lt_iff_lt, compare_lt_iff_lt,
    Decimal.rational_half]
  constructor
  · change 1 / 2 < ((100 : ℤ) : ℚ) * _
    push_cast
    linarith
  · change ((1 : ℤ) : ℚ) * _ < 1 / 2
    rw [Int.cast_one, one_mul]
    exact small.trans_lt (by norm_num)

end Rounded

end Calculator
