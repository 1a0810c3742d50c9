import Calculator.Number.Operation
import Calculator.Proofs.Number.Root
import Calculator.Proofs.Number.Rounding
import Calculator.Proofs.Number.Tower
import Calculator.Proofs.Outcome
import Mathlib

/-!
# Signs

Digits may be dropped on the way to a result, but never its sign: rounding, the division of
decimals and the numerical form of a fraction keep it. So the sign of a product or a quotient is
the product of the signs, whatever the kinds of the operands, and neither a sum of numbers that are
not negative nor a square root is negative.
-/

namespace Calculator

/-! ## Decimals -/

namespace Decimal

variable {x y : Decimal}

/-- The sign of a decimal. -/
def sign (x : Decimal) : ℤ := x.mantissa.sign

/-- Zero is the decimal without a sign. -/
theorem isZero_iff (x : Decimal) : x.isZero = true ↔ x.sign = 0 := by
  rw [isZero, beq_iff_eq, sign, Int.sign_eq_zero_iff_zero]

/-- The negative decimals are those of negative sign. -/
theorem isNegative_iff (x : Decimal) : x.isNegative = true ↔ x.sign < 0 := by
  rw [isNegative, decide_eq_true_iff, sign, Int.sign_neg_iff]

/-- The opposite has the opposite sign. -/
theorem sign_negated (x : Decimal) : x.negated.sign = -x.sign := Int.sign_neg _

/-- An integer has its sign as a decimal. -/
theorem sign_ofInt (value : ℤ) : (ofInt value).sign = value.sign := rfl

/-- Rounding keeps the sign. -/
theorem sign_rounded {count : ℕ} (counted : 0 < count) (nonzero : x.mantissa ≠ 0) :
    (x.withDigits count).normalized.sign = x.sign := by
  obtain ⟨rest, dropped, form, last, -⟩ := rounded_shape x count nonzero counted
  have positive : (0 : ℤ) < rest := by omega
  rw [form, sign, Int.sign_mul, Int.sign_sign, Int.sign_eq_one_of_pos positive, mul_one]
  rfl

/-- A value of one is positive. -/
theorem sign_of_isOne (single : x.isOne = true) : x.sign = 1 := by
  unfold isOne isSame order at single
  split at single
  · rename_i same
    exact compare_eq_iff_eq.mp same
  · rename_i apart
    exact absurd (eq_of_beq single) apart

/-- A product has the product of the signs. -/
theorem sign_multiply (x y : Decimal) : (x.multiply y).sign = x.sign * y.sign := by
  unfold multiply
  split
  · rename_i single
    rw [sign_of_isOne single, one_mul]
  · split
    · rename_i single
      rw [sign_of_isOne single, mul_one]
    · exact Int.sign_mul _ _

/-- A sum of decimals that are not negative is not negative. -/
theorem sign_add_nonneg (left : 0 ≤ x.sign) (right : 0 ≤ y.sign) : 0 ≤ (x.add y).sign := by
  simp only [sign, Int.sign_nonneg_iff] at left right ⊢
  exact Int.add_nonneg (Int.mul_nonneg left (Int.natCast_nonneg _))
    (Int.mul_nonneg right (Int.natCast_nonneg _))

/-- Cutting digits off makes no decimal negative that is not. -/
theorem sign_withDigits_nonneg (nonneg : 0 ≤ x.sign) (count : ℕ) :
    0 ≤ (x.withDigits count).sign := by
  rw [sign, Int.sign_nonneg_iff] at nonneg
  unfold withDigits
  dsimp only
  split
  · rw [sign, Int.sign_nonneg_iff]
    have quotient := Int.tdiv_nonneg nonneg
      (Int.natCast_nonneg (tenTo (x.digits - count)))
    split
    · exact Int.le_add_one quotient
    · exact quotient
  · rw [sign, Int.sign_nonneg_iff]
    exact Int.mul_nonneg nonneg (Int.natCast_nonneg _)

/-- A square root is not negative. -/
theorem sign_rootTo_nonneg {digits : ℕ} {root : Decimal} (done : x.rootTo digits = .ok root) :
    0 ≤ root.sign := by
  unfold rootTo at done
  split at done
  · cases done
  · rename_i nonneg
    rw [isNegative_iff, not_lt] at nonneg
    split at done <;> obtain rfl := Except.ok.inj done
    · exact le_rfl
    · refine sign_withDigits_nonneg ?_ digits
      unfold squareRoot
      split
      · exact nonneg
      · exact Int.sign_nonneg_iff.mpr (Int.natCast_nonneg _)

/-- A dividend with the missing zeros is at least as large as the divisor. -/
theorem le_missingZeros {dividend divisor : ℕ} (some : 0 < dividend) (divides : 0 < divisor) :
    divisor ≤ dividend * tenTo (missingZeros dividend divisor) := by
  obtain ⟨lower, -⟩ := Digits.count_bounds dividend some
  obtain ⟨-, upper⟩ := Digits.count_bounds divisor divides
  obtain ⟨digits, counted⟩ := Digits.count_succ dividend
  unfold missingZeros
  dsimp only
  split
  · rw [counted, Nat.add_sub_cancel] at lower
    -- One zero more than the difference in digits makes up for any leading digits.
    calc divisor
      _ ≤ 10 ^ Digits.count divisor := upper.le
      _ ≤ 10 ^ (digits + (Digits.count divisor - Digits.count dividend + 1)) :=
        Nat.pow_le_pow_right (by decide) (by omega)
      _ = 10 ^ digits * 10 ^ (Digits.count divisor - Digits.count dividend + 1) := Nat.pow_add _ _ _
      _ ≤ dividend * tenTo (Digits.count divisor - Digits.count dividend + 1) :=
        Nat.mul_le_mul_right _ lower
  · rename_i enough
    exact Nat.not_lt.mp enough

/-- Dropping zeros leaves something of a positive number. -/
theorem dropZeros_pos {limit number : ℕ} (positive : 0 < number) :
    0 < (dropZeros limit number).1 := by
  induction limit generalizing number with
  | zero => exact positive
  | succ limit inductionHypothesis =>
    rw [dropZeros]
    split
    · exact inductionHypothesis (by omega)
    · exact positive

/-- A quotient of positive numbers is positive. -/
theorem divideMagnitudes_pos {dividend divisor : ℕ} (some : 0 < dividend) (divides : 0 < divisor) :
    0 < (divideMagnitudes dividend divisor).1 := by
  have lifted := le_missingZeros some divides
  have extended (further : ℕ) :
      0 < dividend * tenTo (missingZeros dividend divisor) * tenTo further / divisor :=
    Nat.div_pos (lifted.trans (Nat.le_mul_of_pos_right _ (Nat.pow_pos (by decide)))) divides
  unfold divideMagnitudes
  dsimp only
  split
  · exact Nat.div_pos lifted divides
  · split
    · exact dropZeros_pos (extended _)
    · split
      · exact Nat.succ_pos _
      · exact extended _

/-- A quotient has the product of the signs. -/
theorem sign_divide (x : Decimal) (apart : y.sign ≠ 0) : (x.divide y).sign = x.sign * y.sign := by
  have nonzero : y.mantissa ≠ 0 := fun zero => apart (Int.sign_eq_zero_iff_zero.mpr zero)
  unfold divide
  split
  · rename_i plain
    rcases Bool.or_eq_true_iff.mp plain with zero | single
    · rw [(isZero_iff x).mp zero, zero_mul]
    · rw [sign_of_isOne single, mul_one]
  · rename_i general
    have zero : x.mantissa ≠ 0 := by
      rintro zero
      simp [isZero, zero] at general
    dsimp only
    split
    · rename_i same
      rw [sign, sign, sign, same, ← Int.sign_mul, Int.sign_eq_one_of_pos (mul_self_pos.mpr nonzero)]
      rfl
    · have positive : (0 : ℤ) < (divideMagnitudes x.mantissa.natAbs y.mantissa.natAbs).1 :=
        Int.natCast_pos.mpr
          (divideMagnitudes_pos (Int.natAbs_pos.mpr zero) (Int.natAbs_pos.mpr nonzero))
      rw [sign, Int.sign_mul, Int.sign_eq_one_of_pos positive, mul_one, Int.sign_mul, Int.sign_sign,
        Int.sign_sign]
      rfl

end Decimal

/-- A decimal of a tier has the sign of the value it is made from. -/
theorem Rounded.sign_make (value : Decimal) (precision : Precision) :
    (make value precision).value.sign = value.sign := by
  unfold make
  split
  · rename_i zero
    exact ((Decimal.isZero_iff value).mp zero).symm
  · rename_i apart
    refine Decimal.sign_rounded (by cases precision <;> decide) fun zero => apart ?_
    rw [Decimal.isZero, zero]
    rfl

/-! ## Real numbers -/

namespace Real

variable {x y result : Real} {settings : Preferences}

/-- The sign of a real number. -/
def sign : Real → ℤ
  | word value => value.toInt.sign
  | wide value => value.value.sign
  | fraction value => value.numerator.sign
  | decimal value => value.value.sign

/-- Zero is the number without a sign. -/
theorem isZero_iff (x : Real) : x.isZero = true ↔ x.sign = 0 := by
  cases x with
  | word value => rw [isZero, value.isZero_iff, sign, Int.sign_eq_zero_iff_zero]
  | wide value =>
    have large := value.wide
    have apart : value.value ≠ 0 := by
      rintro zero
      simp [zero] at large
    simpa [isZero, sign] using apart
  | fraction value =>
    have proper := value.proper
    have reduced := value.reduced
    have apart : value.numerator ≠ 0 := by
      rintro zero
      rw [zero, Int.natAbs_zero, Nat.gcd_zero_left] at reduced
      omega
    simpa [isZero, sign] using apart
  | decimal value => exact Decimal.isZero_iff value.value

/-- The negative numbers are those of negative sign. -/
theorem isNegative_iff (x : Real) : x.isNegative = true ↔ x.sign < 0 := by
  cases x with
  | word value => rw [isNegative, value.negative_iff, sign, Int.sign_neg_iff]
  | wide value => rw [isNegative, decide_eq_true_iff, sign, Int.sign_neg_iff]
  | fraction value => rw [isNegative, Fraction.isNegative, decide_eq_true_iff, sign, Int.sign_neg_iff]
  | decimal value => exact Decimal.isNegative_iff value.value

/-- A number that is not negative has no negative sign. -/
theorem isNegative_eq_false_iff (x : Real) : x.isNegative = false ↔ 0 ≤ x.sign := by
  rw [← Bool.not_eq_true, isNegative_iff, not_lt]

/-- An integer has its sign. -/
theorem sign_ofInt (value : ℤ) : (ofInt value).sign = value.sign := by
  by_cases small : value.natAbs < UInt64.size
  · obtain ⟨word, form, same⟩ := ofInt_of_small small
    rw [form, sign, same]
  · rw [ofInt, dif_pos (Nat.le_of_not_lt small), sign]

/-- A rational number has its sign. -/
theorem sign_ofRational (q : ℚ) : (ofRational q).sign = q.num.sign := by
  unfold ofRational
  split
  · exact sign_ofInt q.num
  · rfl

/-- An exact number has the sign of what it denotes. -/
theorem sign_of_rational? {q : ℚ} (denotes : x.rational? = some q) : x.sign = q.num.sign := by
  rw [(rational?_eq_some_iff x q).mp denotes, sign_ofRational]

/-- An exact number is below zero if what it denotes is. -/
theorem isNegative_eq {p : ℚ} (denotes : x.rational? = some p) : x.isNegative = decide (p < 0) := by
  rw [Bool.eq_iff_iff, isNegative_iff, sign_of_rational? denotes, Int.sign_neg_iff, Rat.num_neg,
    decide_eq_true_iff]

/-- An exact number is not below zero if what it denotes is not. -/
theorem isNegative_of_nonneg {p : ℚ} (denotes : x.rational? = some p) (nonneg : 0 ≤ p) :
    x.isNegative = false := by
  rw [isNegative_eq denotes, decide_eq_false_iff_not, not_lt]
  exact nonneg

/-- The opposite has the opposite sign. -/
theorem sign_negated (x : Real) : x.negated.sign = -x.sign := by
  cases x with
  | word value => rw [negated, sign, value.toInt_negated, Int.sign_neg, sign]
  | wide value => rw [negated, sign_ofInt, Int.sign_neg, sign]
  | fraction value => exact Int.sign_neg _
  | decimal value => exact Decimal.sign_negated value.value

/-- Rounding to a tier keeps the sign. -/
theorem sign_ofDecimal (value : Decimal) (precision : Precision) :
    (ofDecimal value precision).sign = value.sign := Rounded.sign_make value precision

/-- A number has its sign as a decimal. -/
theorem sign_toDecimal (x : Real) : x.toDecimal.sign = x.sign := by
  cases x with
  | fraction value =>
    have positive : (0 : ℤ) < value.denominator := by
      have := value.proper
      omega
    have below : (Decimal.ofNat value.denominator).sign = 1 := Int.sign_eq_one_of_pos positive
    rw [toDecimal, Decimal.sign_divide _ (by rw [below]; decide), below, mul_one]
    rfl
  | _ => rfl

/-- The form that is asked for has the same sign. -/
theorem sign_finished (x : Real) (settings : Preferences) : (x.finished settings).sign = x.sign := by
  unfold finished
  split
  · split
    · rw [sign_ofDecimal, sign_toDecimal]
    · rfl
  · rfl

/-! ## Operations -/

/-- A number is exact or a decimal. -/
theorem exact_or_decimal (x : Real) : (∃ q, x.rational? = some q) ∨ ∃ value, x = .decimal value := by
  cases x with
  | decimal value => exact .inr ⟨value, rfl⟩
  | _ => exact .inl ⟨_, rfl⟩

/-- An operation of which an operand is a decimal is one on decimals. -/
theorem operate_decimal (command : Command)
    (inexact : (∃ value, x = .decimal value) ∨ ∃ value, y = .decimal value) :
    operate command x y settings = operateDecimals command x y settings := by
  obtain ⟨value, rfl⟩ | ⟨value, rfl⟩ := inexact
  · cases y <;> rfl
  · cases x <;> rfl

/-- The result of an operation of exact arithmetic is the exact one, or else it comes of an
operation on decimals. -/
theorem operate_eq_ok {command : Command} {operation : ℚ → ℚ → ℚ}
    (known : command.rational? = some operation)
    (done : operate command x y settings = .ok result) :
    (∃ p q, x.rational? = some p ∧ y.rational? = some q ∧ ¬ (command.divides = true ∧ q = 0) ∧
      result = (ofRational (operation p q)).finished settings) ∨
    ∃ precision value, x.toDecimal.operate command y.toDecimal precision.workingDigits = .ok value ∧
      result = .ofDecimal value precision := by
  have decimals (inexact : (∃ value, x = .decimal value) ∨ ∃ value, y = .decimal value) :
      ∃ precision value, x.toDecimal.operate command y.toDecimal precision.workingDigits =
        .ok value ∧ result = .ofDecimal value precision := by
    rw [operate_decimal command inexact] at done
    obtain ⟨value, operated, same⟩ := Outcome.bind_eq_ok.mp done
    exact ⟨_, value, operated, (Except.ok.inj same).symm⟩
  rcases x.exact_or_decimal with ⟨p, left⟩ | inexact
  · rcases y.exact_or_decimal with ⟨q, right⟩ | inexact
    · rw [operate_exact known left right, exactResult] at done
      split at done
      · cases done
      · rename_i apart
        exact .inl ⟨p, q, left, right, apart, (Except.ok.inj done).symm⟩
    · exact .inr (decimals (.inr inexact))
  · exact .inr (decimals (.inl inexact))

/-- The numerator has the sign of the rational number. -/
theorem sign_num (q : ℚ) : q.num.sign = (SignType.sign q : ℤ) := by
  rcases lt_trichotomy q 0 with negative | rfl | positive
  · simp [negative]
  · rfl
  · simp [positive, Int.sign_eq_one_of_pos]

/-- The inverse of a rational number has the same sign. -/
theorem sign_inverse (q : ℚ) : SignType.sign q⁻¹ = SignType.sign q := by
  rcases lt_trichotomy q 0 with negative | rfl | positive
  · rw [sign_neg negative, sign_neg (inv_neg''.mpr negative)]
  · rw [inv_zero]
  · rw [sign_pos positive, sign_pos (inv_pos.mpr positive)]

/-- A product has the product of the signs. -/
theorem sign_operate_multiply (done : operate .multiply x y settings = .ok result) :
    result.sign = x.sign * y.sign := by
  rcases operate_eq_ok rfl done with ⟨p, q, left, right, -, rfl⟩ | ⟨precision, value, operated, rfl⟩
  · rw [sign_finished, sign_ofRational, sign_of_rational? left, sign_of_rational? right, sign_num,
      sign_num, sign_num, sign_mul, SignType.coe_mul]
  · obtain rfl := Except.ok.inj operated
    rw [sign_ofDecimal, Decimal.sign_multiply, sign_toDecimal, sign_toDecimal]

/-- A quotient has the product of the signs. -/
theorem sign_operate_divide (done : operate .divide x y settings = .ok result) :
    result.sign = x.sign * y.sign := by
  rcases operate_eq_ok rfl done with ⟨p, q, left, right, -, rfl⟩ | ⟨precision, value, operated, rfl⟩
  · rw [sign_finished, sign_ofRational, sign_of_rational? left, sign_of_rational? right, sign_num,
      sign_num, sign_num, div_eq_mul_inv, sign_mul, sign_inverse, SignType.coe_mul]
  · obtain ⟨_, required, same⟩ := Outcome.bind_eq_ok.mp operated
    obtain rfl := Except.ok.inj same
    unfold Decimal.requireDivisor at required
    split at required
    · cases required
    · rename_i apart
      rw [Decimal.isZero_iff] at apart
      rw [sign_ofDecimal, Decimal.sign_divide _ apart, sign_toDecimal, sign_toDecimal]

/-- A sum of numbers that are not negative is not negative. -/
theorem sign_operate_add_nonneg (left : 0 ≤ x.sign) (right : 0 ≤ y.sign)
    (done : operate .add x y settings = .ok result) : 0 ≤ result.sign := by
  rcases operate_eq_ok rfl done with ⟨p, q, first, second, -, rfl⟩ | ⟨precision, value, operated, rfl⟩
  · rw [sign_of_rational? first, Int.sign_nonneg_iff, Rat.num_nonneg] at left
    rw [sign_of_rational? second, Int.sign_nonneg_iff, Rat.num_nonneg] at right
    rw [sign_finished, sign_ofRational, Int.sign_nonneg_iff, Rat.num_nonneg]
    exact add_nonneg left right
  · obtain rfl := Except.ok.inj operated
    rw [sign_ofDecimal]
    exact Decimal.sign_add_nonneg (by rwa [sign_toDecimal]) (by rwa [sign_toDecimal])

/-- A square root is not negative. -/
theorem sign_squareRoot_nonneg (done : x.squareRoot settings = .ok result) : 0 ≤ result.sign := by
  unfold squareRoot at done
  split at done
  · rename_i exact found
    obtain rfl := Except.ok.inj done
    rcases x.exact_or_decimal with ⟨p, denotes⟩ | ⟨value, rfl⟩
    · rw [ratio?_eq denotes, Option.bind_some] at found
      obtain ⟨r, nonneg, -, rfl⟩ := (Ratio.squareRoot?_eq_some_iff p _).mp found
      rwa [sign_ofRational, Int.sign_nonneg_iff, Rat.num_nonneg]
    · cases found
  · obtain ⟨value, rooted, same⟩ := Outcome.bind_eq_ok.mp done
    obtain rfl := Except.ok.inj same
    rw [sign_ofDecimal]
    exact Decimal.sign_rootTo_nonneg rooted

/-- The function that is the square root is not negative. -/
theorem sign_apply_squareRoot_nonneg (done : x.apply .squareRoot settings = .ok result) :
    0 ≤ result.sign := by
  obtain ⟨root, rooted, same⟩ := Outcome.bind_eq_ok.mp done
  obtain rfl := Except.ok.inj same
  rw [sign_finished]
  exact sign_squareRoot_nonneg rooted

end Real

end Calculator
