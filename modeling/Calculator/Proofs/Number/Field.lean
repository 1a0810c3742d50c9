import Calculator.Proofs.Number.Gaussian
import Mathlib

/-!
# The field of exact complex numbers

Where results need not be numerical, the four operations on exact numbers, real or rectangular, are
those of the field of Gaussian rational numbers. The result is real exactly if its imaginary part is
zero, and a quotient is refused exactly if the divisor is zero.
-/

namespace Calculator

namespace GaussianRational

/-- No rational number is a square root of minus one. -/
theorem sq_ne_neg_one (r : ℚ) : r ^ 2 ≠ -1 + 0 * r := by
  have nonnegative := sq_nonneg r
  intro root
  linarith

/-- So the Gaussian rational numbers are a field. -/
local instance rootless : Fact (∀ r : ℚ, r ^ 2 ≠ -1 + 0 * r) := ⟨sq_ne_neg_one⟩

/-- The sum of the squares of both parts is zero if both parts are, and only then. -/
theorem sum_squares_eq_zero_iff (z : GaussianRational) :
    z.re * z.re + z.im * z.im = 0 ↔ z = 0 := by
  rw [mul_self_add_mul_self_eq_zero, QuadraticAlgebra.ext_iff]
  rfl

/-- A rational number is zero as a complex number if it is zero. -/
theorem rational_eq_zero_iff (q : ℚ) : (⟨q, 0⟩ : GaussianRational) = 0 ↔ q = 0 :=
  map_eq_zero_iff (algebraMap ℚ GaussianRational) (algebraMap ℚ GaussianRational).injective

/-- The quotient of rational numbers is rational. -/
theorem rational_div (p q : ℚ) : (⟨p, 0⟩ / ⟨q, 0⟩ : GaussianRational) = ⟨p / q, 0⟩ :=
  (map_div₀ (algebraMap ℚ GaussianRational) p q).symm

/-- The parts of a quotient. -/
theorem mk_div_mk {a b c d : ℚ} (nonzero : (⟨c, d⟩ : GaussianRational) ≠ 0) :
    (⟨a, b⟩ / ⟨c, d⟩ : GaussianRational) =
      ⟨(a * c + b * d) / (c * c + d * d), (b * c - a * d) / (c * c + d * d)⟩ := by
  have squares : c * c + d * d ≠ 0 := (sum_squares_eq_zero_iff ⟨c, d⟩).not.mpr nonzero
  rw [div_eq_iff nonzero, QuadraticAlgebra.mk_mul_mk]
  generalize norm : c * c + d * d = n at squares ⊢
  refine QuadraticAlgebra.ext ?_ ?_
  · field_simp
    rw [← norm]
    ring
  · field_simp
    rw [← norm]
    ring

end GaussianRational

namespace Complex

open Value GaussianRational

attribute [local instance] GaussianRational.rootless

variable {parts : Operations} {x y : Value}

/-- Operations on parts whose quotients of exact parts are exact, unless the divisor is zero. -/
def ExactQuotients (parts : Operations) : Prop :=
  ∀ {a b : Real}, a.isExact = true → b.isExact = true → b.rational ≠ 0 →
    parts.binary .divide (.real a) (.real b) = .ok (.real (.ofRational (a.rational / b.rational)))

/-- The square of the modulus of a divisor. -/
theorem denominator_exact (exactParts : ExactParts parts) {c d : Real} (exactC : c.isExact = true)
    (exactD : d.isExact = true) (next : Value → Outcome Value) :
    (parts.binary .multiply (.real c) (.real c) >>= fun cc =>
      parts.binary .multiply (.real d) (.real d) >>= fun dd =>
        parts.binary .add cc dd >>= next) =
      next (.real (.ofRational (c.rational * c.rational + d.rational * d.rational))) := by
  rw [exactParts.multiply exactC exactC, exactParts.multiply exactD exactD]
  show parts.binary .add _ _ >>= next = _
  rw [exactParts.add (Real.isExact_ofRational _) (Real.isExact_ofRational _),
    Real.rational_ofRational, Real.rational_ofRational]
  rfl

/-- The quotient of exact numbers is the exact quotient, unless the divisor is zero. -/
theorem divide_exact (exactParts : ExactParts parts) (exactQuotients : ExactQuotients parts)
    (settings : Preferences) (left : x.IsGaussian) (right : y.IsGaussian) :
    divide parts settings x y =
      if y.gaussian = 0 then .error .divideByZero
      else .ok (ofGaussian (x.gaussian / y.gaussian)) := by
  obtain ⟨plainX, a, b, first, exactA, exactB, valueX⟩ := rectangularParts_gaussian parts left
  obtain ⟨plainY, c, d, second, exactC, exactD, valueY⟩ := rectangularParts_gaussian parts right
  rw [divide, plainX, Bool.false_and, if_neg Bool.false_ne_true, first, second, valueX, valueY]
  refine (denominator_exact exactParts exactC exactD _).trans ?_
  have refused :
      (Value.real (.ofRational (c.rational * c.rational + d.rational * d.rational))).isZero =
        decide ((⟨c.rational, d.rational⟩ : GaussianRational) = 0) := by
    rw [Value.isZero, Real.isZero_ofRational]
    exact decide_eq_decide.mpr (sum_squares_eq_zero_iff ⟨c.rational, d.rational⟩)
  rw [refused]
  by_cases zero : (⟨c.rational, d.rational⟩ : GaussianRational) = 0
  · rw [if_pos zero, if_pos (decide_eq_true zero)]
    rfl
  · rw [if_neg zero, if_neg (by simpa using zero)]
    have squares := (sum_squares_eq_zero_iff ⟨c.rational, d.rational⟩).not.mpr zero
    show (parts.binary .multiply (.real a) (.real c) >>= fun ac =>
      parts.binary .multiply (.real b) (.real d) >>= fun bd =>
      parts.binary .multiply (.real b) (.real c) >>= fun bc =>
      parts.binary .multiply (.real a) (.real d) >>= fun ad =>
      parts.binary .add ac bd >>= fun re =>
      parts.binary .subtract bc ad >>= fun im =>
      parts.binary .divide re _ >>= fun re =>
      parts.binary .divide im _ >>= fun im => .ok (rectangular re im)) = _
    rw [exactParts.multiply exactA exactC, exactParts.multiply exactB exactD,
      exactParts.multiply exactB exactC, exactParts.multiply exactA exactD]
    show (parts.binary .add _ _ >>= fun re =>
      parts.binary .subtract _ _ >>= fun im =>
      parts.binary .divide re _ >>= fun re =>
      parts.binary .divide im _ >>= fun im => .ok (rectangular re im)) = _
    rw [exactParts.add (Real.isExact_ofRational _) (Real.isExact_ofRational _),
      exactParts.subtract (Real.isExact_ofRational _) (Real.isExact_ofRational _)]
    simp only [Real.rational_ofRational]
    show (parts.binary .divide (.real _) (.real _) >>= fun re =>
      parts.binary .divide (.real _) (.real _) >>= fun im => .ok (rectangular re im)) = _
    rw [exactQuotients (Real.isExact_ofRational _) (Real.isExact_ofRational _)
        (by rwa [Real.rational_ofRational]),
      exactQuotients (Real.isExact_ofRational _) (Real.isExact_ofRational _)
        (by rwa [Real.rational_ofRational]), mk_div_mk zero]
    simp only [Real.rational_ofRational]
    rfl

end Complex

/-! ## Arithmetic -/

namespace Arithmetic

open Value

attribute [local instance] GaussianRational.rootless

variable {settings : Preferences} {x y : Value}

/-- The quotient of exact numbers is that of numbers. -/
theorem binaryOver_divide (parts : Operations) (settings : Preferences) (left : x.IsGaussian)
    (right : y.IsGaussian) :
    binaryOver parts settings .divide x y = numberBinary parts settings .divide x y := by
  cases left <;> cases right <;> rfl

section Quotients

variable (symbolic : settings.numericalResults = false)
include symbolic

/-- All levels have exact quotients of exact parts. -/
theorem exactQuotients_upTo (level : ℕ) : Complex.ExactQuotients (upTo settings (level + 1)) := by
  intro a b first second nonzero
  rw [upTo_binary_exact symbolic rfl level first second, exactResult,
    if_neg fun refused => nonzero refused.2]
  rfl

/-- The quotient of exact numbers is the exact quotient, unless the divisor is zero. -/
theorem binary_divide (left : x.IsGaussian) (right : y.IsGaussian) :
    binary .divide x y settings =
      if y.gaussian = 0 then .error .divideByZero
      else .ok (ofGaussian (x.gaussian / y.gaussian)) := by
  obtain ⟨level, start⟩ := exists_binaryOver .divide x y settings
  rw [start, binaryOver_divide _ _ left right]
  have complex (apart : x.isReal = false ∨ y.isReal = false) :=
    (numberBinary_complex (upTo settings (level + 1)) settings .divide left right apart).trans
      (Complex.divide_exact (exactParts_upTo symbolic level) (exactQuotients_upTo symbolic level)
        settings left right)
  cases left with
  | complex a b exactA exactB => exact complex (.inl rfl)
  | real a exactA =>
    cases right with
    | complex c d exactC exactD => exact complex (.inr rfl)
    | real b exactB =>
      show (a.operate .divide b settings).map Value.real = _
      have zero : gaussian (.real b) = 0 ↔ b.rational = 0 := GaussianRational.rational_eq_zero_iff _
      have quotient : gaussian (.real a) / gaussian (.real b) = ⟨a.rational / b.rational, 0⟩ :=
        GaussianRational.rational_div _ _
      rw [Real.operate_eq rfl (Real.rational?_of_isExact exactA) (Real.rational?_of_isExact exactB)
        symbolic, exactResult, quotient, ofGaussian_of_im_eq_zero rfl]
      simp only [zero, Command.divides, true_and]
      split <;> rfl

end Quotients

/-- Whether an outcome is the number that denotes a Gaussian rational number: a real number if the
imaginary part is zero, and a rectangular one otherwise. -/
def Makes (outcome : Outcome Value) (z : GaussianRational) : Prop :=
  outcome = .ok (if z.im = 0 then .real (.ofRational z.re)
    else .complex .rectangular (.real (.ofRational z.re)) (.real (.ofRational z.im)))

/-- What is made for a Gaussian rational number denotes it. -/
theorem makes_ofGaussian {outcome : Outcome Value} {z : GaussianRational}
    (made : outcome = .ok (ofGaussian z)) : Makes outcome z := by
  rw [made, Makes]
  split
  · rename_i real
    rw [ofGaussian_of_im_eq_zero real]
  · rename_i complex
    rw [ofGaussian_of_im_ne_zero complex]

/-- While results need not be numerical, the sum, the difference, the product and the quotient of
exact numbers, be they real or complex, are those of the Gaussian rational numbers. They are exact,
and real if they have no imaginary part and only then. A quotient is refused if both parts of the
divisor are zero, and only then. -/
theorem binary_field (symbolic : settings.numericalResults = false) (left : x.IsGaussian)
    (right : y.IsGaussian) :
    Makes (binary .add x y settings) (x.gaussian + y.gaussian) ∧
    Makes (binary .subtract x y settings) (x.gaussian - y.gaussian) ∧
    Makes (binary .multiply x y settings) (x.gaussian * y.gaussian) ∧
    (y.gaussian = 0 → binary .divide x y settings = .error .divideByZero) ∧
    (y.gaussian ≠ 0 → Makes (binary .divide x y settings) (x.gaussian / y.gaussian)) := by
  have quotient := binary_divide symbolic left right
  refine ⟨makes_ofGaussian (binary_add symbolic left right),
    makes_ofGaussian (binary_subtract symbolic left right),
    makes_ofGaussian (binary_multiply symbolic left right), fun zero => ?_, fun nonzero => ?_⟩
  · rwa [if_pos zero] at quotient
  · rw [if_neg nonzero] at quotient
    exact makes_ofGaussian quotient

/-- The product of two conjugate numbers is real, their quotient is not, and zero divides neither,
though it has two parts. -/
theorem binary_field_conjugates :
    let number (a b : ℤ) := Value.complex .rectangular (.ofInt a) (.ofInt b)
    binary .multiply (number 1 1) (number 1 (-1)) {} = .ok (.ofInt 2) ∧
      binary .divide (number 1 1) (number 1 (-1)) {} = .ok (number 0 1) ∧
      binary .divide (number 1 1) (number 0 0) {} = .error .divideByZero := by
  intro number
  have exact (a b : ℤ) : (number a b).IsGaussian := by
    refine .complex _ _ ?_ ?_ <;> rw [← Real.ofRational_intCast, Real.isExact_ofRational]
  have value (a b : ℤ) : (number a b).gaussian = ⟨a, b⟩ := by
    simp only [number, Value.ofInt, gaussian, ← Real.ofRational_intCast, Real.rational_ofRational]
  have symbolic : ({} : Preferences).numericalResults = false := rfl
  obtain ⟨-, -, product, -, quotient⟩ := binary_field symbolic (exact 1 1) (exact 1 (-1))
  obtain ⟨-, -, -, refused, -⟩ := binary_field symbolic (exact 1 1) (exact 0 0)
  have two : (number 1 1).gaussian * (number 1 (-1)).gaussian = ⟨(2 : ℤ), 0⟩ := by
    rw [value, value, QuadraticAlgebra.mk_mul_mk]
    exact QuadraticAlgebra.ext (by norm_num) (by norm_num)
  have nonzero : (number 1 (-1)).gaussian ≠ 0 := by
    rw [value]
    intro zero
    simpa using congrArg QuadraticAlgebra.re zero
  have turn : (number 1 1).gaussian / (number 1 (-1)).gaussian = ⟨(0 : ℤ), (1 : ℤ)⟩ := by
    rw [value] at nonzero
    rw [value, value, GaussianRational.mk_div_mk nonzero]
    exact QuadraticAlgebra.ext (by norm_num) (by norm_num)
  refine ⟨?_, ?_, refused ?_⟩
  · rw [product, two, if_pos rfl, Real.ofRational_intCast]
    rfl
  · rw [quotient nonzero, turn, if_neg (by norm_num), Real.ofRational_intCast,
      Real.ofRational_intCast]
    rfl
  · rw [value, Int.cast_zero]
    rfl

end Arithmetic

end Calculator
