import Calculator.Proofs.Number.Nearest
import Calculator.Proofs.Number.Ordinary
import Mathlib

/-!
# Commutation

Sums and products do not depend on the order of the operands, whatever the operands are: exact
numbers, decimals of any tiers or complex numbers in either form. They are the same down to the form
of every decimal in them, and where the parts of a polar number cannot be computed, both orders are
refused alike.
-/

namespace Calculator

namespace Decimal

variable {x y : Decimal}

/-- The larger of two scales does not depend on their order. -/
theorem commonScale_swap (x y : Decimal) : commonScale x y = commonScale y x := by
  unfold commonScale
  by_cases less : x.scale < y.scale
  · rw [if_pos less, if_neg (Int64.lt_asymm less)]
  · by_cases greater : y.scale < x.scale
    · rw [if_neg less, if_pos greater]
    · rw [if_neg less, if_neg greater]
      exact Int64.le_antisymm (Int64.not_lt.mp greater) (Int64.not_lt.mp less)

/-- The sum does not depend on the order, nor does its form. -/
theorem add_swap (x y : Decimal) : x.add y = y.add x := by
  simp only [add, commonScale_swap x y, Int.add_comm]

/-- The product does not depend on the order, nor does its form, unless both factors are one. -/
theorem multiply_swap (apart : ¬ (x.isOne = true ∧ y.isOne = true)) :
    x.multiply y = y.multiply x := by
  unfold multiply
  by_cases left : x.isOne = true
  · rw [if_pos left, if_neg fun right => apart ⟨left, right⟩, if_pos left]
  · rw [if_neg left, if_neg left, Int.mul_comm, Int64.add_comm]

/-- The leading digit of a form of a value has the position that the value tells. -/
theorem position_eq (nonzero : x.mantissa ≠ 0) (same : x.rational = y.rational) :
    (x.digits : ℤ) - x.scale.toInt = y.digits - y.scale.toInt := by
  have nonzeroToo : y.mantissa ≠ 0 := by
    rwa [Ne, ← rational_eq_zero_iff, ← same, rational_eq_zero_iff]
  apply le_antisymm
  · exact position_le nonzero (same ▸ (rational_bounds nonzeroToo).2)
  · exact position_le nonzeroToo (same ▸ (rational_bounds nonzero).2)

/-- A form of one leaves room below its scale. -/
theorem roomy_of_isOne (single : x.isOne = true) : x.Roomy := by
  have value := (isOne_iff x).mp single
  have nonzero : x.mantissa ≠ 0 := by
    rw [Ne, ← rational_eq_zero_iff, value]
    exact one_ne_zero
  have position := position_eq (y := one) nonzero (value.trans rational_one.symm)
  have leading : (one.digits : ℤ) - one.scale.toInt = 1 := by
    simp [one, digits, Digits.count]
  unfold Roomy
  omega

end Decimal

namespace Rounded

variable {x y : Decimal}

/-- What a decimal is rounded to is told by its value, if there is room below the scale. -/
theorem make_congr (left : x.Roomy) (right : y.Roomy) (same : x.rational = y.rational)
    (precision : Precision) : make x precision = make y precision := by
  by_cases zero : x.mantissa = 0
  · have zeroToo : y.mantissa = 0 := by
      rwa [← Decimal.rational_eq_zero_iff, ← same, Decimal.rational_eq_zero_iff]
    simp [make, Decimal.isZero, zero, zeroToo]
  · have position := Decimal.position_eq zero same
    have unit : x.lastUnit precision.digits = y.lastUnit precision.digits := by
      rw [Decimal.lastUnit, Decimal.lastUnit]
      congr 1
      omega
    have values : (make x precision).value.rational = (make y precision).value.rational := by
      rw [rational_make left, rational_make right, same, unit]
    have forms := (make_settled x precision).eq_of_rational (make_settled y precision) values
    exact congrArg (fun value => Rounded.mk value precision) forms

/-- The rounded product does not depend on the order, nor does its form. -/
theorem make_multiply_swap (x y : Decimal) (precision : Precision) :
    make (x.multiply y) precision = make (y.multiply x) precision := by
  by_cases ones : x.isOne = true ∧ y.isOne = true
  · obtain ⟨left, right⟩ := ones
    -- Each order gives the second one, and the two may be written differently.
    rw [Decimal.multiply, if_pos left, Decimal.multiply, if_pos right]
    refine make_congr (Decimal.roomy_of_isOne right) (Decimal.roomy_of_isOne left) ?_ precision
    rw [(Decimal.isOne_iff x).mp left, (Decimal.isOne_iff y).mp right]
  · rw [Decimal.multiply_swap ones]

end Rounded

/-- The wider of two tiers does not depend on their order. -/
theorem Precision.widest_swap (left right : Precision) : left.widest right = right.widest left := by
  cases left <;> cases right <;> rfl

/-- The operations whose operands may be exchanged. -/
def Command.commutes : Command → Bool
  | .add | .multiply => true
  | _ => false

/-- The operations that have a result on all real numbers. -/
def Command.isTotal : Command → Bool
  | .add | .subtract | .multiply => true
  | _ => false

namespace Real

variable {command : Command} {settings : Preferences}

/-- Exact results do not depend on the order of the operands. -/
theorem exactResult_swap (commutes : command.commutes = true) {operation : ℚ → ℚ → ℚ}
    (known : command.rational? = some operation) (p q : ℚ) :
    exactResult command operation p q = exactResult command operation q p := by
  cases command <;> cases commutes <;> cases known
  · simp only [exactResult, Command.divides, Bool.false_eq_true, false_and, if_false, add_comm]
  · simp only [exactResult, Command.divides, Bool.false_eq_true, false_and, if_false, mul_comm]

/-- Decimal results do not depend on the order of the operands. -/
theorem operateDecimals_swap (commutes : command.commutes = true) (x y : Real) :
    operateDecimals command x y settings = operateDecimals command y x settings := by
  cases command <;> cases commutes <;>
    simp only [operateDecimals, Decimal.operate, Precision.widest_swap (x.precision settings)]
  · rw [Decimal.add_swap]
  · exact congrArg (fun made => Except.ok (Real.decimal made)) (Rounded.make_multiply_swap _ _ _)

/-- Sums and products of real numbers do not depend on the order of the operands. -/
theorem operate_swap (commutes : command.commutes = true) (x y : Real) :
    operate command x y settings = operate command y x settings := by
  obtain ⟨operation, known⟩ : ∃ operation, command.rational? = some operation := by
    cases command <;> cases commutes <;> exact ⟨_, rfl⟩
  rcases x.exact_or_decimal with ⟨p, left⟩ | inexact
  · rcases y.exact_or_decimal with ⟨q, right⟩ | inexact
    · rw [operate_exact known left right, operate_exact known right left,
        exactResult_swap commutes known]
    · rw [operate_decimal command (.inr inexact), operate_decimal command (.inl inexact),
        operateDecimals_swap commutes]
  · rw [operate_decimal command (.inl inexact), operate_decimal command (.inr inexact),
      operateDecimals_swap commutes]

/-- Sums, differences and products of real numbers have a result. -/
theorem operate_answers (total : command.isTotal = true) (x y : Real) (settings : Preferences) :
    ∃ result, operate command x y settings = .ok result := by
  obtain ⟨operation, known⟩ : ∃ operation, command.rational? = some operation := by
    cases command <;> cases total <;> exact ⟨_, rfl⟩
  have undivided : command.divides = false := by cases command <;> cases total <;> rfl
  have decimals : ∃ result, operateDecimals command x y settings = .ok result := by
    cases command <;> cases total <;> exact ⟨_, rfl⟩
  rcases x.exact_or_decimal with ⟨p, left⟩ | inexact
  · rcases y.exact_or_decimal with ⟨q, right⟩ | inexact
    · rw [operate_exact known left right, exactResult, undivided, if_neg (by simp)]
      exact ⟨_, rfl⟩
    · rwa [operate_decimal command (.inr inexact)]
  · rwa [operate_decimal command (.inl inexact)]

end Real

/-! ## Complex numbers -/

namespace Value

/-- A number whose parts are real: a real number, or a complex number in either form. -/
inductive HasRealParts : Value → Prop
  | real (x : Real) : HasRealParts (.real x)
  | complex (form : ComplexForm) (a b : Real) : HasRealParts (.complex form (.real a) (.real b))

end Value

namespace Decimal

/-- An angle is reduced, or it is too large for that. -/
theorem reduceAngle_eq_error {x : Decimal} {work : ℕ} {fault : Fault}
    (failed : x.reduceAngle work = .error fault) : fault = .badArgumentValue := by
  have power {exponent : ℕ} (failed : powerOfTen exponent = .error fault) :
      fault = .badArgumentValue := by
    unfold powerOfTen at failed
    split at failed <;> cases failed
    rfl
  unfold reduceAngle at failed
  dsimp only at failed
  split at failed
  · cases failed
    rfl
  · obtain failed | ⟨_, _, answered⟩ := Outcome.bind_eq_error.mp failed
    · unfold floor at failed
      split at failed
      · cases failed
      · obtain failed | ⟨_, _, answered⟩ := Outcome.bind_eq_error.mp failed
        · exact power failed
        · split at answered <;> cases answered
    · cases answered

/-- Sine and cosine fail only for an angle that is too large. -/
theorem circular_eq_error {x : Decimal} {digits : ℕ} {fault : Fault}
    (failed : x.sine digits = .error fault ∨ x.cosine digits = .error fault) :
    fault = .badArgumentValue := by
  rcases failed with failed | failed
  · unfold sine at failed
    split at failed
    · cases failed
    · obtain failed | ⟨_, _, answered⟩ := Outcome.bind_eq_error.mp failed
      · exact reduceAngle_eq_error failed
      · split at answered <;> cases answered
  · obtain failed | ⟨_, _, answered⟩ := Outcome.bind_eq_error.mp failed
    · exact reduceAngle_eq_error failed
    · cases answered

end Decimal

namespace Arithmetic

open Value
open Calculator.Complex

variable {settings : Preferences} {x y : Value} {command : Command}

/-- Sine and cosine of a real number fail only for an angle that is too large. -/
theorem apply_eq_error (circular : command = .sine ∨ command = .cosine) {x : Real} {fault : Fault}
    (failed : x.apply command settings = .error fault) : fault = .badArgumentValue := by
  have decimals (failed : x.applyDecimal command settings = .error fault) :
      fault = .badArgumentValue := by
    obtain failed | ⟨_, _, answered⟩ := Outcome.bind_eq_error.mp failed
    · obtain rfl | rfl := circular
      · exact Decimal.circular_eq_error (.inl failed)
      · exact Decimal.circular_eq_error (.inr failed)
    · cases answered
  obtain rfl | rfl := circular
  all_goals
    unfold Real.apply at failed
    dsimp only at failed
    split at failed
    · cases failed
    · obtain failed | ⟨_, _, answered⟩ := Outcome.bind_eq_error.mp failed
      · exact decimals failed
      · cases answered

/-- The arithmetic of the parts is that of the real numbers, where they are real. -/
theorem upTo_binary (combining : combines command = true) (level : ℕ) (a b : Real) :
    (upTo settings (level + 1)).binary command (.real a) (.real b) =
      (a.operate command b settings).map .real := binaryOver_real combining a b

/-- Functions of the parts are those of the real numbers, where they are real everywhere. -/
theorem upTo_unary (everywhere : realEverywhere command = true) (level : ℕ) (a : Real) :
    (upTo settings (level + 1)).unary command (.real a) =
      (a.apply command settings).map .real := unaryOver_real _ _ everywhere a

/-- Parts may be exchanged in sums and products. -/
theorem upTo_binary_swap (settings : Preferences) (commutes : command.commutes = true) (level : ℕ)
    (a b : Real) :
    (upTo settings (level + 1)).binary command (.real a) (.real b) =
      (upTo settings (level + 1)).binary command (.real b) (.real a) := by
  have combining : combines command = true := by cases command <;> cases commutes <;> rfl
  rw [upTo_binary combining, upTo_binary combining, Real.operate_swap commutes]

/-- Sums, differences and products of parts have a result. -/
theorem upTo_binary_answers (settings : Preferences) (total : command.isTotal = true) (level : ℕ)
    (a b : Real) :
    ∃ c : Real, (upTo settings (level + 1)).binary command (.real a) (.real b) = .ok (.real c) := by
  have combining : combines command = true := by cases command <;> cases total <;> rfl
  obtain ⟨c, operated⟩ := Real.operate_answers total a b settings
  exact ⟨c, by rw [upTo_binary combining, operated]; rfl⟩

end Arithmetic

namespace Complex

open Value Arithmetic

variable {settings : Preferences} {level : ℕ} {x y : Value}

/-- A number with real parts has a real and an imaginary part that are real, or it is a polar number
whose argument is too large. -/
theorem rectangularParts_cases (settings : Preferences) (level : ℕ) (real : HasRealParts x) :
    (∃ a b : Real, rectangularParts (upTo settings (level + 1)) x = .ok (.real a, .real b)) ∨
      rectangularParts (upTo settings (level + 1)) x = .error .badArgumentValue := by
  cases real with
  | real a => exact .inl ⟨a, _, rfl⟩
  | complex form a b =>
    cases form with
    | rectangular => exact .inl ⟨a, b, rfl⟩
    | polar =>
      have circular {command : Command} (known : command = .sine ∨ command = .cosine) :
          (∃ c : Real, (upTo settings (level + 1)).unary command (.real b) = .ok (.real c)) ∨
            (upTo settings (level + 1)).unary command (.real b) = .error .badArgumentValue := by
        have everywhere : realEverywhere command = true := by obtain rfl | rfl := known <;> rfl
        rw [upTo_unary everywhere]
        cases applied : b.apply command settings with
        | ok c => exact .inl ⟨c, rfl⟩
        | error fault => exact .inr (apply_eq_error known applied ▸ rfl)
      obtain ⟨c, cosine⟩ | cosine := circular (.inr rfl)
      · obtain ⟨s, sine⟩ | sine := circular (.inl rfl)
        · obtain ⟨re, first⟩ :=
            upTo_binary_answers settings (show Command.multiply.isTotal = true from rfl) level a c
          obtain ⟨im, second⟩ :=
            upTo_binary_answers settings (show Command.multiply.isTotal = true from rfl) level a s
          refine .inl ⟨re, im, ?_⟩
          simp only [rectangularParts, cosine, sine, Outcome.ok_bind, first, second]
          rfl
        · refine .inr ?_
          simp only [rectangularParts, cosine, sine]
          rfl
      · refine .inr ?_
        simp only [rectangularParts, cosine]
        rfl

/-- The sum does not depend on the order of the terms. -/
theorem combine_swap (left : HasRealParts x) (right : HasRealParts y) :
    combine (upTo settings (level + 1)) .add x y = combine (upTo settings (level + 1)) .add y x := by
  unfold combine
  obtain ⟨a, b, first⟩ | first := rectangularParts_cases settings level left <;>
    obtain ⟨c, d, second⟩ | second :=
      rectangularParts_cases settings level right <;>
    rw [first, second]
  · have exchange := upTo_binary_swap settings (show Command.add.commutes = true from rfl) level
    simp only [Outcome.ok_bind, exchange c a, exchange d b]
  all_goals rfl

/-- A polar number with real parts is given by a real modulus and a real argument. -/
theorem polarParts_of_isPolar (real : HasRealParts x) (polar : isPolar x = true)
    (parts : Operations) :
    ∃ r s : Real, polarParts parts settings x = .ok (.real r, .real s) := by
  cases real with
  | real a => cases polar
  | complex form r s =>
    cases form with
    | rectangular => cases polar
    | polar => exact ⟨r, s, rfl⟩

/-- The product does not depend on the order of the factors. -/
theorem multiply_swap (left : HasRealParts x) (right : HasRealParts y) :
    multiply (upTo settings (level + 1)) settings x y =
      multiply (upTo settings (level + 1)) settings y x := by
  have exchange := upTo_binary_swap settings (show Command.multiply.commutes = true from rfl) level
  have exchangeSum := upTo_binary_swap settings (show Command.add.commutes = true from rfl) level
  unfold multiply
  rw [Bool.and_comm (isPolar y)]
  by_cases polar : (isPolar x && isPolar y) = true
  · -- Both are polar: the moduli are multiplied and the arguments added.
    obtain ⟨polarLeft, polarRight⟩ := Bool.and_eq_true_iff.mp polar
    obtain ⟨r, s, first⟩ := polarParts_of_isPolar left polarLeft (upTo settings (level + 1))
    obtain ⟨r', s', second⟩ := polarParts_of_isPolar right polarRight (upTo settings (level + 1))
    rw [if_pos polar, if_pos polar, first, second]
    simp only [Outcome.ok_bind, exchange r' r, exchangeSum s' s]
  · rw [if_neg polar, if_neg polar]
    obtain ⟨a, b, first⟩ | first :=
        rectangularParts_cases settings level left <;>
      obtain ⟨c, d, second⟩ | second :=
        rectangularParts_cases settings level right <;>
      rw [first, second]
    · -- The two mixed products change places in the imaginary part.
      have answers := upTo_binary_answers settings (show Command.multiply.isTotal = true from rfl) level
      obtain ⟨ad, mixed⟩ := answers a d
      obtain ⟨bc, mixedToo⟩ := answers b c
      simp only [Outcome.ok_bind, exchange c a, exchange d b, exchange d a, exchange c b, mixed,
        mixedToo, exchangeSum bc ad]
    all_goals rfl

end Complex

namespace Arithmetic

open Value
open Calculator.Complex

variable {x y : Value} {settings : Preferences}

/-- Arithmetic on two numbers of which one is complex is complex. -/
theorem binary_complex {command : Command} (commutes : command.commutes = true)
    (left : HasRealParts x) (right : HasRealParts y)
    (bent : ¬ ∃ a b : Real, x = .real a ∧ y = .real b) :
    binary command x y settings =
      Complex.binary (upTo settings (max x.height y.height + 7)) settings command x y := by
  cases command <;> cases commutes <;> cases left <;> cases right
  case add.refl.real.real a b | multiply.refl.real.real a b => exact absurd ⟨a, b, rfl, rfl⟩ bent
  all_goals rfl

/-- Sums and products do not depend on the order of the operands: for all numbers whose parts are
real, exact or decimal, rectangular or polar, either order gives the same number in the same form, or
the same error. -/
theorem binary_commutes (left : HasRealParts x) (right : HasRealParts y) (settings : Preferences) :
    binary .add x y settings = binary .add y x settings ∧
      binary .multiply x y settings = binary .multiply y x settings := by
  by_cases plain : ∃ a b : Real, x = .real a ∧ y = .real b
  · obtain ⟨a, b, rfl, rfl⟩ := plain
    constructor
    · rw [binary_real rfl, binary_real rfl, Real.operate_swap rfl]
    · rw [binary_real rfl, binary_real rfl, Real.operate_swap rfl]
  · have plainToo : ¬ ∃ a b : Real, y = .real a ∧ x = .real b :=
      fun ⟨a, b, first, second⟩ => plain ⟨b, a, second, first⟩
    constructor
    · rw [binary_complex rfl left right plain, binary_complex rfl right left plainToo,
        Nat.max_comm y.height]
      exact combine_swap left right
    · rw [binary_complex rfl left right plain, binary_complex rfl right left plainToo,
        Nat.max_comm y.height]
      exact multiply_swap left right

/-- A polar and a rectangular number, each with an exact part and a decimal of another tier. -/
theorem binary_commutes_polar :
    let polar : Value := .complex .polar (.real (.ofInt 2)) (.real (.decimal ⟨⟨5, 1⟩, .decimal32⟩))
    let rectangular : Value :=
      .complex .rectangular (.real (.decimal ⟨⟨-1, -3⟩, .decimal128⟩)) (.real (.ofInt 1))
    binary .add polar rectangular {} = binary .add rectangular polar {} ∧
      binary .multiply polar rectangular {} = binary .multiply rectangular polar {} :=
  binary_commutes (.complex .polar _ _) (.complex .rectangular _ _) {}

end Arithmetic

end Calculator
