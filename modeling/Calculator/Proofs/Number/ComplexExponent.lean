import Calculator.Proofs.Number.Exponent
import Calculator.Proofs.Number.Field
import Mathlib

/-!
# Integer exponents of exact numbers

A real number is raised by the arithmetic of real numbers and a complex one by repeated
multiplication, yet both find the power in the field of Gaussian rational numbers. They differ in two
respects. Only real numbers have powers that are refused for their size, and only for them is zero
raised to zero not defined: the complex zero raised to zero is one.
-/

namespace Calculator

namespace GaussianRational

attribute [local instance] GaussianRational.rootless

/-- A power of a rational number with an integer exponent is rational. -/
theorem rational_zpow (p : ℚ) (exponent : ℤ) :
    (⟨p, 0⟩ ^ exponent : GaussianRational) = ⟨p ^ exponent, 0⟩ :=
  (map_zpow₀ (algebraMap ℚ GaussianRational) p exponent).symm

end GaussianRational

namespace Complex

open Value

attribute [local instance] GaussianRational.rootless

variable {parts : Operations} {x : Value}

/-- A power that is made by multiplication is the exact power. With an exponent below zero it is the
inverse of one, so zero has none. -/
theorem integerPower_exact (exactParts : ExactParts parts) (exactQuotients : ExactQuotients parts)
    (settings : Preferences) (exact : x.IsGaussian) {exponent : ℤ}
    (bounded : exponent.natAbs ≤ largestExponent) :
    integerPower parts settings x exponent =
      if x.gaussian = 0 ∧ exponent < 0 then .error .divideByZero
      else .ok (ofGaussian (x.gaussian ^ exponent)) := by
  rw [integerPower_of_bounded exactParts settings exact bounded]
  by_cases negative : exponent < 0
  · have apart : exponent.natAbs ≠ 0 := by omega
    have inverse : 1 / x.gaussian ^ exponent.natAbs = x.gaussian ^ exponent := by
      rw [one_div, ← zpow_natCast, ← zpow_neg]
      congr 1
      omega
    rw [if_pos negative, divide_exact exactParts exactQuotients settings (isGaussian_ofInt 1)
      (isGaussian_ofGaussian _), gaussian_ofGaussian, gaussian_ofInt, Int.cast_one, inverse]
    simp only [pow_eq_zero_iff apart, negative, and_true]
  · have value : x.gaussian ^ exponent.natAbs = x.gaussian ^ exponent := by
      rw [← zpow_natCast]
      congr 1
      omega
    rw [if_neg negative, value]
    simp only [negative, and_false, if_false]

end Complex

namespace Arithmetic

open Value

attribute [local instance] GaussianRational.rootless

variable {settings : Preferences} {x : Value} {exponent : ℤ}

/-- Whether a power is refused for its size, which is asked of real numbers only. -/
def isOversized : Value → ℤ → Bool
  | .real a, exponent => !powerFits (bitLength a.rational) exponent.natAbs
  | _, _ => false

/-- With exponents up to the largest one for which powers are made by multiplication, the powers of a
real number are bearable if their parts fit: zero and the units have small parts. -/
theorem isBearable_iff_not_isOversized (a : Real)
    (bounded : exponent.natAbs ≤ Complex.largestExponent) :
    IsBearable a.rational exponent ↔ isOversized (.real a) exponent = false := by
  have within : exponent.natAbs ≤ powerBits := bounded.trans (by decide)
  rw [isOversized, Bool.not_eq_false', IsBearable]
  constructor
  · rintro (zero | ⟨unit, -⟩ | fits)
    · rw [zero]
      exact powerFits_single rfl within
    · exact powerFits_single (bitLength_unit unit) within
    · exact fits
  · intro fits
    exact .inr (.inr fits)

/-- What comes of a power of an exact number, real or complex, with an integer exponent up to the
largest one for which powers are made by multiplication. -/
theorem binary_power_gaussian (symbolic : settings.numericalResults = false) (exact : x.IsGaussian)
    (bounded : exponent.natAbs ≤ Complex.largestExponent) :
    binary .power x (.ofInt exponent) settings =
      if x.isReal = true ∧ x.gaussian = 0 ∧ exponent = 0 then .error .undefinedOperation
      else if x.gaussian = 0 ∧ exponent < 0 then .error .divideByZero
      else if isOversized x exponent = true then .error .outOfMemory
      else .ok (ofGaussian (x.gaussian ^ exponent)) := by
  cases exact with
  | real a exact =>
    have zero : gaussian (.real a) = 0 ↔ a.rational = 0 := GaussianRational.rational_eq_zero_iff _
    have power : ofGaussian (gaussian (.real a) ^ exponent) =
        .real (.ofRational (a.rational ^ exponent)) := by
      rw [gaussian, GaussianRational.rational_zpow, ofGaussian_of_im_eq_zero rfl]
    rw [binary_power_ofInt (Real.rational?_of_isExact exact) symbolic, powerResult, power]
    simp only [isBearable_iff_not_isOversized a bounded, zero, isReal, true_and]
    cases isOversized (.real a) exponent <;>
      simp only [if_true, if_false, Bool.true_eq_false, Bool.false_eq_true] <;>
      split_ifs <;> rfl
  | complex a b exactFirst exactSecond =>
    obtain ⟨level, powered⟩ := binary_power_complex exactFirst exactSecond settings exponent
    rw [powered, Complex.integerPower_exact (exactParts_upTo symbolic level)
      (exactQuotients_upTo symbolic level) settings (.complex a b exactFirst exactSecond) bounded]
    simp [isReal, isOversized]

/-- Zero is never refused for its size. -/
theorem gaussian_ne_zero_of_isOversized (exact : x.IsGaussian)
    (bounded : exponent.natAbs ≤ Complex.largestExponent)
    (oversized : isOversized x exponent = true) : x.gaussian ≠ 0 := by
  intro zero
  cases exact with
  | real a exact =>
    have bearable : IsBearable a.rational exponent :=
      .inl ((GaussianRational.rational_eq_zero_iff _).mp zero)
    rw [isBearable_iff_not_isOversized a bounded, oversized] at bearable
    cases bearable
  | complex => cases oversized

/-- There is one complex zero by exact parts. -/
theorem eq_withoutImaginary_of_gaussian_eq_zero (exact : x.IsGaussian) (complex : x.isReal = false)
    (zero : x.gaussian = 0) : x = Complex.withoutImaginary (.ofInt 0) := by
  cases exact with
  | real => cases complex
  | complex a b exactFirst exactSecond =>
    have first : a.rational = 0 := congrArg QuadraticAlgebra.re zero
    have second : b.rational = 0 := congrArg QuadraticAlgebra.im zero
    rw [← Real.ofRational_rational exactFirst, ← Real.ofRational_rational exactSecond, first, second]
    rfl

/-- A real number as a complex number is exact and denotes the same. -/
theorem withoutImaginary_exact {a : Real} (exact : a.isExact = true) :
    (Complex.withoutImaginary (.real a)).IsGaussian ∧
      (Complex.withoutImaginary (.real a)).gaussian = gaussian (.real a) := by
  have zero : Real.ofInt 0 = .ofRational 0 := rfl
  constructor
  · exact .complex a (.ofInt 0) exact rfl
  · rw [Complex.withoutImaginary, Value.ofInt, zero]
    simp [gaussian]

/-- Apart from the complex zero raised to zero, what comes of a power does not depend on whether the
base is real, but for its size. -/
theorem binary_power_regular (symbolic : settings.numericalResults = false) (exact : x.IsGaussian)
    (bounded : exponent.natAbs ≤ Complex.largestExponent)
    (regular : x = Complex.withoutImaginary (.ofInt 0) → exponent ≠ 0) :
    binary .power x (.ofInt exponent) settings =
      if x.gaussian = 0 ∧ exponent = 0 then .error .undefinedOperation
      else if x.gaussian = 0 ∧ exponent < 0 then .error .divideByZero
      else if isOversized x exponent = true then .error .outOfMemory
      else .ok (ofGaussian (x.gaussian ^ exponent)) := by
  have real (zero : x.gaussian = 0) (none : exponent = 0) : x.isReal = true := by
    by_contra complex
    exact regular (eq_withoutImaginary_of_gaussian_eq_zero exact (by simpa using complex) zero) none
  have defined : x.isReal = true ∧ x.gaussian = 0 ∧ exponent = 0 ↔ x.gaussian = 0 ∧ exponent = 0 :=
    ⟨And.right, fun undefined => ⟨real undefined.1 undefined.2, undefined⟩⟩
  rw [binary_power_gaussian symbolic exact bounded]
  simp only [defined]

/-- A real number has the same powers as a complex number without an imaginary part, where they are
defined and of bearable size. -/
theorem binary_power_withoutImaginary (symbolic : settings.numericalResults = false) {a : Real}
    (exact : a.isExact = true) (bounded : exponent.natAbs ≤ Complex.largestExponent)
    (fits : isOversized (.real a) exponent = false)
    (defined : gaussian (.real a) = 0 → exponent ≠ 0) :
    binary .power (Complex.withoutImaginary (.real a)) (.ofInt exponent) settings =
      binary .power (.real a) (.ofInt exponent) settings := by
  obtain ⟨complex, same⟩ := withoutImaginary_exact exact
  have undefined : ¬ (gaussian (.real a) = 0 ∧ exponent = 0) := fun both => defined both.1 both.2
  have notReal : (Complex.withoutImaginary (.real a)).isReal = false := rfl
  have neverOversized : isOversized (Complex.withoutImaginary (.real a)) exponent = false := rfl
  rw [binary_power_gaussian symbolic complex bounded,
    binary_power_gaussian symbolic (.real a exact) bounded]
  simp only [same, notReal, neverOversized, fits, undefined, Bool.false_eq_true, and_false,
    if_false]

/-- Powers with integer exponents mean the same for real and for complex numbers. A power is the exact
product of so many copies of the base, or the inverse of the product if the exponent is below zero,
unless zero is raised to zero, or to an exponent below zero, or the power of a real number is refused
for its size. A real number and the complex number without an imaginary part have the same powers. -/
theorem power_field (symbolic : settings.numericalResults = false) (exact : x.IsGaussian)
    (bounded : exponent.natAbs ≤ 2 ^ 20)
    (regular : x = Complex.withoutImaginary (.ofInt 0) → exponent ≠ 0) :
    (binary .power x (.ofInt exponent) settings = .error .undefinedOperation ↔
      x.gaussian = 0 ∧ exponent = 0) ∧
    (binary .power x (.ofInt exponent) settings = .error .divideByZero ↔
      x.gaussian = 0 ∧ exponent < 0) ∧
    (binary .power x (.ofInt exponent) settings = .error .outOfMemory ↔
      isOversized x exponent = true) ∧
    (¬ (x.gaussian = 0 ∧ exponent ≤ 0) → isOversized x exponent = false →
      Makes (binary .power x (.ofInt exponent) settings) (x.gaussian ^ exponent)) ∧
    (∀ a : Real, x = .real a → isOversized x exponent = false → (x = .ofInt 0 → exponent ≠ 0) →
      binary .power (Complex.withoutImaginary x) (.ofInt exponent) settings =
        binary .power x (.ofInt exponent) settings) := by
  have small : exponent.natAbs ≤ Complex.largestExponent := bounded
  have outcome := binary_power_regular symbolic exact small regular
  have sized (zero : x.gaussian = 0) : isOversized x exponent = false := by
    by_contra oversized
    exact gaussian_ne_zero_of_isOversized exact small (by simpa using oversized) zero
  refine ⟨?_, ?_, ?_, fun proper fits => ?_, ?_⟩
  · rw [outcome]
    split_ifs with undefined <;> simp [undefined]
  · rw [outcome]
    split_ifs with undefined infinite
    · simp [undefined]
    · simp [infinite]
    · simp [infinite]
    · simp [infinite]
  · rw [outcome]
    split_ifs with undefined infinite oversized
    · simp [sized undefined.1]
    · simp [sized infinite.1]
    · simp [oversized]
    · simp [oversized]
  · have defined : ¬ (x.gaussian = 0 ∧ exponent = 0) := fun undefined =>
      proper ⟨undefined.1, undefined.2.le⟩
    have finite : ¬ (x.gaussian = 0 ∧ exponent < 0) := fun infinite =>
      proper ⟨infinite.1, infinite.2.le⟩
    rw [if_neg defined, if_neg finite, if_neg (by simp [fits])] at outcome
    exact makes_ofGaussian outcome
  · rintro a rfl fits proper
    have exactReal : a.isExact = true := by
      cases exact
      assumption
    apply binary_power_withoutImaginary symbolic exactReal small fits
    intro zero
    apply proper
    rw [← ofGaussian_gaussian exactReal, zero]
    rfl

/-- The inverse of the square of a complex number, and that zero has no inverse, though it has two
parts. -/
theorem power_field_inverse_square :
    let number (a b : ℤ) := Value.complex .rectangular (.ofInt a) (.ofInt b)
    binary .power (number 1 1) (.ofInt (-2)) {} =
        .ok (.complex .rectangular (.ofInt 0) (.real (.ofRational (-1 / 2)))) ∧
      binary .power (number 0 0) (.ofInt (-1)) {} = .error .divideByZero := by
  intro number
  have exact (a b : ℤ) : (number a b).IsGaussian := by
    refine .complex _ _ ?_ ?_ <;> rw [← Real.ofRational_intCast, Real.isExact_ofRational]
  have value (a b : ℤ) : (number a b).gaussian = ⟨a, b⟩ := by
    simp only [number, Value.ofInt, gaussian, ← Real.ofRational_intCast, Real.rational_ofRational]
  have symbolic : ({} : Preferences).numericalResults = false := rfl
  have proper (a b : ℤ) {exponent : ℤ} (nonzero : exponent ≠ 0) :
      number a b = Complex.withoutImaginary (.ofInt 0) → exponent ≠ 0 := fun _ => nonzero
  have square : (number 1 1).gaussian ^ (-2 : ℤ) = ⟨0, -1 / 2⟩ := by
    have turn : (⟨(1 : ℤ), (1 : ℤ)⟩ : GaussianRational) ^ 2 * ⟨0, -1 / 2⟩ = ⟨1, 0⟩ := by
      rw [sq, QuadraticAlgebra.mk_mul_mk, QuadraticAlgebra.mk_mul_mk]
      exact QuadraticAlgebra.ext (by norm_num) (by norm_num)
    rw [value, zpow_neg, zpow_ofNat]
    exact inv_eq_of_mul_eq_one_right turn
  constructor
  · obtain ⟨-, -, -, made, -⟩ := power_field symbolic (exact 1 1)
      (by norm_num : (-2 : ℤ).natAbs ≤ 2 ^ 20) (proper 1 1 (by norm_num))
    have nonzero : ¬ ((number 1 1).gaussian = 0 ∧ (-2 : ℤ) ≤ 0) := by
      rintro ⟨zero, -⟩
      rw [value] at zero
      simpa using congrArg QuadraticAlgebra.re zero
    have computed := made nonzero rfl
    rw [Makes, square, if_neg (by norm_num)] at computed
    exact computed
  · obtain ⟨-, infinite, -⟩ := power_field symbolic (exact 0 0)
      (by norm_num : (-1 : ℤ).natAbs ≤ 2 ^ 20) (proper 0 0 (by norm_num))
    refine infinite.mpr ⟨?_, by norm_num⟩
    rw [value, Int.cast_zero]
    rfl

/-- The complex zero raised to zero is one, while it is not defined what the real zero raised to zero
is. -/
theorem power_complex_zero :
    binary .power (Complex.withoutImaginary (.ofInt 0)) (.ofInt 0) {} = .ok (.ofInt 1) ∧
      binary .power (.ofInt 0) (.ofInt 0) {} = .error .undefinedOperation := by
  have symbolic : ({} : Preferences).numericalResults = false := rfl
  have exact : (Real.ofInt 0).isExact = true := rfl
  obtain ⟨complex, same⟩ := withoutImaginary_exact exact
  have none : gaussian (.real (.ofInt 0)) = 0 := by
    rw [← Value.ofInt, gaussian_ofInt, Int.cast_zero]
  have small : (0 : ℤ).natAbs ≤ Complex.largestExponent := Nat.zero_le _
  constructor
  · have outcome := binary_power_gaussian symbolic complex small
    have one : ofGaussian 1 = .ofInt 1 := by
      rw [← Int.cast_one, ofGaussian_intCast]
    rw [same, none, if_neg (by simp [Complex.withoutImaginary, isReal]), if_neg (by simp),
      if_neg (by simp [Complex.withoutImaginary, isOversized]), zpow_zero, one] at outcome
    exact outcome
  · have outcome := binary_power_gaussian symbolic (.real _ exact) small
    rw [none, if_pos ⟨rfl, rfl, rfl⟩] at outcome
    exact outcome

end Arithmetic

end Calculator
