import Calculator.Proofs.Polynomial.Evaluation
import Mathlib

/-!
# The elements that polynomials denote

A polynomial with exact real factors denotes an element of the ring of polynomials in all names over
the rational numbers. In normal form it is the only one that denotes this element: a name occurs if
the element has a monomial with a positive exponent for it, and the terms are the monomials of the
element, of which the factors are the coefficients. What decides the order of names and terms does
not leave a choice.
-/

namespace Calculator

/-! ## Exact real numbers as values -/

namespace Value

/-- The rational number that an exact real number denotes. -/
def rational (value : Value) : ℚ := value.gaussian.re

/-- The exact real number that denotes a rational number. -/
def ofRational (q : ℚ) : Value := .real (.ofRational q)

/-- What is made for a rational number denotes it. -/
@[simp]
theorem rational_ofRational (q : ℚ) : (ofRational q).rational = q := Real.rational_ofRational q

/-- What is made for a rational number is exact. -/
@[simp]
theorem isExact_ofRational (q : ℚ) : (ofRational q).isExact = true := Real.isExact_ofRational q

/-- What is made for an integer is the integer. -/
theorem ofRational_intCast (n : ℤ) : ofRational n = ofInt n :=
  congrArg Value.real (Real.ofRational_intCast n)

/-- An integer denotes itself. -/
@[simp]
theorem rational_ofInt (n : ℤ) : (ofInt n).rational = n := by
  rw [← ofRational_intCast, rational_ofRational]

/-- An integer is exact. -/
theorem isExact_ofInt (n : ℤ) : (ofInt n).isExact = true := by
  rw [← ofRational_intCast, isExact_ofRational]

variable {value : Value}

/-- An exact value is what is made for the rational number that it denotes. -/
theorem ofRational_rational (exact : value.isExact = true) : ofRational value.rational = value := by
  cases value with
  | real x => exact congrArg Value.real (Real.ofRational_rational exact)
  | _ => cases exact

/-- An exact value is a Gaussian rational number without an imaginary part. -/
theorem gaussian_of_isExact (exact : value.isExact = true) :
    value.IsGaussian ∧ value.gaussian = ⟨value.rational, 0⟩ := by
  cases value with
  | real x => exact ⟨.real x exact, rfl⟩
  | _ => cases exact

/-- An exact value is zero if it denotes zero, and only then. -/
theorem isZero_iff (exact : value.isExact = true) : value.isZero = true ↔ value.rational = 0 := by
  rw [← ofRational_rational exact, rational_ofRational]
  exact (Real.isZero_ofRational _ ▸ decide_eq_true_iff : Real.isZero _ = true ↔ _)

end Value

/-- Operations that compute sums, products and opposites of exact real numbers. -/
structure Operations.AreRational (operations : Operations) : Prop where
  add {x y : Value} (left : x.isExact = true) (right : y.isExact = true) :
    operations.binary .add x y = .ok (.ofRational (x.rational + y.rational))
  multiply {x y : Value} (left : x.isExact = true) (right : y.isExact = true) :
    operations.binary .multiply x y = .ok (.ofRational (x.rational * y.rational))
  negate {x : Value} (exact : x.isExact = true) :
    operations.unary .negate x = .ok (.ofRational (-x.rational))

/-- The operations of arithmetic do. -/
theorem Arithmetic.areRational_operations {settings : Preferences}
    (symbolic : settings.numericalResults = false) : (operations settings).AreRational where
  add {x y} left right := by
    obtain ⟨gaussianLeft, valueLeft⟩ := Value.gaussian_of_isExact left
    obtain ⟨gaussianRight, valueRight⟩ := Value.gaussian_of_isExact right
    rw [operations_binary, binary_add symbolic gaussianLeft gaussianRight, valueLeft, valueRight]
    exact congrArg Except.ok (Value.ofGaussian_of_im_eq_zero (add_zero 0))
  multiply {x y} left right := by
    obtain ⟨gaussianLeft, valueLeft⟩ := Value.gaussian_of_isExact left
    obtain ⟨gaussianRight, valueRight⟩ := Value.gaussian_of_isExact right
    rw [operations_binary, binary_multiply symbolic gaussianLeft gaussianRight, valueLeft,
      valueRight, GaussianRational.rational_mul]
    exact congrArg Except.ok (Value.ofGaussian_of_im_eq_zero rfl)
  negate {x} exact := by
    obtain ⟨gaussian, value⟩ := Value.gaussian_of_isExact exact
    have negated : (operations settings).unary .negate x = unary .negate x settings := rfl
    rw [negated, unary_negate symbolic gaussian, value]
    exact congrArg Except.ok (Value.ofGaussian_of_im_eq_zero neg_zero)

namespace Polynomial

open MvPolynomial (C X)
open PolynomialOver

/-! ## Elements -/

/-- What polynomials with exact real factors stand for in the ring of polynomials in all names. -/
noncomputable def elementReading : Reading Value (MvPolynomial Symbol ℚ) where
  factor value := C value.rational
  name := X
  Reads value := value.isExact = true
  Knows _ := True

/-- The same, if only some names are understood. -/
noncomputable def elementReadingOver (Knows : Symbol → Prop) :
    Reading Value (MvPolynomial Symbol ℚ) :=
  { elementReading with Knows := Knows }

/-- Terms stand for the same, whichever names are understood. -/
theorem sum_elementReadingOver (Knows : Symbol → Prop) (names : List Symbol)
    (terms : List (Term Value)) :
    (elementReadingOver Knows).sum names terms = elementReading.sum names terms := by
  have monomial (names : List Symbol) (exponents : List UInt32) :
      (elementReadingOver Knows).monomial names exponents =
        elementReading.monomial names exponents := by
    fun_induction elementReading.monomial names exponents with
    | case1 name names exponent exponents inductionHypothesis =>
      rw [Reading.monomial, inductionHypothesis]
      rfl
    | case2 => unfold Reading.monomial; grind
  have term : (elementReadingOver Knows).term names = elementReading.term names :=
    funext fun term => congrArg (C term.factor.rational * ·) (monomial names term.exponents)
  rw [Reading.sum, term, Reading.sum]

/-- Whether no two of the names that are understood count as the same. -/
def Distinguishes (caseSensitive : Bool) (Knows : Symbol → Prop) : Prop :=
  ∀ x y, Knows x → Knows y → x.compare y caseSensitive = .eq → x = y

/-- Where capital letters count, no two names do. -/
theorem distinguishes_of_sensitive {caseSensitive : Bool} (sensitive : caseSensitive = true)
    (Knows : Symbol → Prop) : Distinguishes caseSensitive Knows := by
  rintro x y - - same
  rw [sensitive] at same
  exact Symbol.eq_of_compare same

/-- Among names in descending order, no two do. -/
theorem distinguishes_of_namesDescend {caseSensitive : Bool} {names : List Symbol}
    (descend : NamesDescend caseSensitive names) : Distinguishes caseSensitive (· ∈ names) := by
  have symmetric : Std.Symm fun x y : Symbol => x.compare y caseSensitive = .eq → x = y := by
    refine ⟨fun x y apart same => (apart ?_).symm⟩
    rwa [@Std.OrientedCmp.eq_swap _ (fun x y : Symbol => x.compare y caseSensitive),
      Ordering.swap_eq_eq]
  have later : names.Pairwise fun x y => x.compare y caseSensitive = .eq → x = y :=
    descend.imp fun {x y} above same => absurd (above.symm.trans same) (by decide)
  exact fun x y first second =>
    later.forall_of_forall (fun _ _ _ => rfl) first second

/-- The element that a polynomial denotes. -/
noncomputable def element (p : Polynomial) : MvPolynomial Symbol ℚ :=
  elementReading.sum p.names p.terms

/-- Whether a polynomial is in normal form and has exact real factors. -/
structure IsCanonical (operations : Operations) (settings : Preferences) (p : Polynomial) :
    Prop where
  normal : Normal (factors operations) settings.caseSensitive p
  exact : ∀ term ∈ p.terms, term.factor.isExact = true

instance (operations : Operations) (settings : Preferences) (p : Polynomial) :
    Decidable (IsCanonical operations settings p) :=
  decidable_of_iff
    (Normal (factors operations) settings.caseSensitive p ∧
      ∀ term ∈ p.terms, term.factor.isExact = true)
    ⟨fun ⟨normal, exact⟩ => ⟨normal, exact⟩,
      fun canonical => ⟨canonical.normal, canonical.exact⟩⟩

/-- A polynomial in normal form, and the element that it denotes. -/
structure Denotes (operations : Operations) (settings : Preferences) (p : Polynomial)
    (f : MvPolynomial Symbol ℚ) : Prop extends IsCanonical operations settings p where
  element : p.element = f

/-- A polynomial in normal form over names that are understood, and the element that it denotes. -/
structure DenotesOver (Knows : Symbol → Prop) (operations : Operations) (settings : Preferences)
    (p : Polynomial) (f : MvPolynomial Symbol ℚ) : Prop
    extends Denotes operations settings p f where
  names : ∀ name ∈ p.names, Knows name

variable {Knows : Symbol → Prop}
variable {operations : Operations} {settings : Preferences} {p q result : Polynomial}
variable {f g : MvPolynomial Symbol ℚ}

/-- A polynomial in normal form denotes its element. -/
theorem IsCanonical.denotes (canonical : IsCanonical operations settings p) :
    Denotes operations settings p p.element := ⟨canonical, rfl⟩

/-- What denotes an element stands for it. -/
theorem Denotes.means (denotes : Denotes operations settings p f) :
    elementReading.Means settings.caseSensitive p f where
  orderly := denotes.normal.toOrderly
  factors := denotes.exact
  names _ _ := trivial
  value := denotes.element

/-- If all names are understood, so are those of a polynomial. -/
theorem Denotes.over (denotes : Denotes operations settings p f) :
    DenotesOver (fun _ => True) operations settings p f := ⟨denotes, fun _ _ => trivial⟩

/-- What denotes an element over names that are understood stands for it. -/
theorem DenotesOver.means (denotes : DenotesOver Knows operations settings p f) :
    (elementReadingOver Knows).Means settings.caseSensitive p f where
  orderly := denotes.normal.toOrderly
  factors := denotes.exact
  names := denotes.names
  value := (sum_elementReadingOver ..).trans denotes.element

/-- What stands for an element denotes it, if it is in normal form. -/
theorem denotesOver_of_means (normal : Normal (factors operations) settings.caseSensitive p)
    (means : (elementReadingOver Knows).Means settings.caseSensitive p f) :
    DenotesOver Knows operations settings p f :=
  ⟨⟨⟨normal, means.factors⟩, (sum_elementReadingOver ..).symm.trans means.value⟩, means.names⟩

/-- A change of sign keeps normal form and exact factors. -/
theorem IsCanonical.negate (rational : operations.AreRational)
    (canonical : IsCanonical operations settings p) (done : negate operations p = .ok result) :
    IsCanonical operations settings result := by
  have opposite (term) (among : term ∈ result.terms) : ∃ before ∈ p.terms,
      term.factor = .ofRational (-before.factor.rational) := by
    obtain ⟨before, listed, changed⟩ := exists_of_mem_negate done among
    exact ⟨before, listed, (Except.ok.inj
      ((rational.negate (canonical.exact before listed)).symm.trans changed)).symm⟩
  refine ⟨⟨orderly_negate canonical.normal.toOrderly done, fun term among => ?_⟩,
    fun term among => ?_⟩
  · obtain ⟨before, listed, changed⟩ := opposite term among
    have nonzero : ¬ before.factor.isZero = true :=
      Bool.eq_false_iff.mp (canonical.normal.nonzero before listed)
    rw [Value.isZero_iff (canonical.exact before listed)] at nonzero
    refine Bool.eq_false_iff.mpr fun zero => nonzero ?_
    rw [changed] at zero
    simpa using (Value.isZero_iff (Value.isExact_ofRational _)).mp zero
  · obtain ⟨before, -, changed⟩ := opposite term among
    rw [changed, Value.isExact_ofRational]

section Over

variable (rational : operations.AreRational)
variable (apart : Distinguishes settings.caseSensitive Knows)
include rational apart

/-- Arithmetic is that of the ring. -/
theorem respects_elementReadingOver :
    (elementReadingOver Knows).Respects (factors operations) settings.caseSensitive where
  add {x y _} left right done := by
    obtain rfl := Except.ok.inj ((rational.add left right).symm.trans done)
    exact ⟨Value.isExact_ofRational _, by simp [elementReadingOver, elementReading]⟩
  multiply {x y _} left right done := by
    obtain rfl := Except.ok.inj ((rational.multiply left right).symm.trans done)
    exact ⟨Value.isExact_ofRational _, by simp [elementReadingOver, elementReading]⟩
  negate {x _} exact done := by
    obtain rfl := Except.ok.inj ((rational.negate exact).symm.trans done)
    exact ⟨Value.isExact_ofRational _, by simp [elementReadingOver, elementReading]⟩
  isZero exact zero := by
    have none := (Value.isZero_iff exact).mp zero
    simp [elementReadingOver, elementReading, none]
  name {x y} left right same := congrArg X (apart x y left right same)

/-- A number denotes a constant. -/
theorem denotesOver_ofConstant {value : Value} (exact : value.isExact = true) :
    DenotesOver Knows operations settings (ofConstant value) (C value.rational) :=
  denotesOver_of_means (normal_ofConstant value)
    (Reading.means_constant (respects_elementReadingOver rational apart) exact)

/-- A change of sign denotes the opposite. -/
theorem DenotesOver.negate (denotes : DenotesOver Knows operations settings p f)
    (done : negate operations p = .ok result) :
    DenotesOver Knows operations settings result (-f) :=
  denotesOver_of_means (denotes.toIsCanonical.negate rational done).normal
    (Reading.means_negate (respects_elementReadingOver rational apart) denotes.means done)

/-- A sum denotes the sum. -/
theorem DenotesOver.add (left : DenotesOver Knows operations settings p f)
    (right : DenotesOver Knows operations settings q g)
    (done : add operations settings p q = .ok result) :
    DenotesOver Knows operations settings result (f + g) :=
  denotesOver_of_means (normal_add left.normal.names right.normal.names done)
    (Reading.means_add (respects_elementReadingOver rational apart) left.means right.means done)

/-- A difference denotes the difference. -/
theorem DenotesOver.subtract (left : DenotesOver Knows operations settings p f)
    (right : DenotesOver Knows operations settings q g)
    (done : subtract operations settings p q = .ok result) :
    DenotesOver Knows operations settings result (f - g) := by
  obtain ⟨opposite, negated, added⟩ := Outcome.bind_eq_ok.mp done
  rw [sub_eq_add_neg]
  exact left.add rational apart (right.negate rational apart negated) added

/-- A product denotes the product. -/
theorem DenotesOver.multiply (left : DenotesOver Knows operations settings p f)
    (right : DenotesOver Knows operations settings q g)
    (done : multiply operations settings p q = .ok result) :
    DenotesOver Knows operations settings result (f * g) :=
  denotesOver_of_means (normal_multiply left.normal.names right.normal.names done)
    (Reading.means_multiply (respects_elementReadingOver rational apart) left.means right.means
      done)

/-- A power denotes the power. -/
theorem DenotesOver.power (base : DenotesOver Knows operations settings p f) {exponent : UInt32}
    (done : power operations settings p exponent = .ok result) :
    DenotesOver Knows operations settings result (f ^ exponent.toNat) := by
  have one : (elementReadingOver Knows).factor (.ofInt 1) = 1 := by
    simp [elementReadingOver, elementReading]
  exact denotesOver_of_means (normal_power base.normal.names done)
    (Reading.means_power (respects_elementReadingOver rational apart) (Value.isExact_ofInt 1) one
      base.means done)

end Over

/-- A name denotes the variable. -/
theorem denotes_ofVariable (name : Symbol) :
    Denotes operations settings (ofVariable name) (X name) where
  normal := normal_ofVariable name
  exact term among := by
    obtain rfl := List.mem_singleton.mp among
    rfl
  element := by
    simp [Polynomial.element, ofVariable, Reading.term, Reading.monomial, elementReading]

/-! ## Where capital letters count -/

section Sensitive

variable (rational : operations.AreRational) (sensitive : settings.caseSensitive = true)
include rational sensitive

/-- A change of sign denotes the opposite. -/
theorem denotes_negate (denotes : Denotes operations settings p f)
    (done : negate operations p = .ok result) : Denotes operations settings result (-f) :=
  (denotes.over.negate rational (distinguishes_of_sensitive sensitive _) done).toDenotes

/-- A number denotes a constant. -/
theorem denotes_ofConstant {value : Value} (exact : value.isExact = true) :
    Denotes operations settings (ofConstant value) (C value.rational) :=
  (denotesOver_ofConstant rational (distinguishes_of_sensitive sensitive fun _ => True)
    exact).toDenotes

/-- A sum denotes the sum. -/
theorem denotes_add (left : Denotes operations settings p f)
    (right : Denotes operations settings q g)
    (done : add operations settings p q = .ok result) :
    Denotes operations settings result (f + g) :=
  (left.over.add rational (distinguishes_of_sensitive sensitive _) right.over done).toDenotes

/-- A difference denotes the difference. -/
theorem denotes_subtract (left : Denotes operations settings p f)
    (right : Denotes operations settings q g)
    (done : subtract operations settings p q = .ok result) :
    Denotes operations settings result (f - g) :=
  (left.over.subtract rational (distinguishes_of_sensitive sensitive _) right.over done).toDenotes

/-- A product denotes the product. -/
theorem denotes_multiply (left : Denotes operations settings p f)
    (right : Denotes operations settings q g)
    (done : multiply operations settings p q = .ok result) :
    Denotes operations settings result (f * g) :=
  (left.over.multiply rational (distinguishes_of_sensitive sensitive _) right.over done).toDenotes

/-- A power denotes the power. -/
theorem denotes_power (base : Denotes operations settings p f) {exponent : UInt32}
    (done : power operations settings p exponent = .ok result) :
    Denotes operations settings result (f ^ exponent.toNat) :=
  (base.over.power rational (distinguishes_of_sensitive sensitive _) done).toDenotes

end Sensitive

end Polynomial

end Calculator
