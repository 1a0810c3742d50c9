import Calculator.Proofs.Number.Gaussian
import Calculator.Proofs.Polynomial.Closure
import Calculator.Proofs.Polynomial.Meaning
import Mathlib

/-!
# Polynomials with exact factors

Where names stand for numbers, a polynomial with exact factors stands for one. An operator makes of
polynomials one that stands for what it computes of the numbers, and the value of a polynomial at
numbers is what it stands for, unless a power is too large to be computed. The operator may do less:
it has no power of zero with the exponent zero, which is one as a power of a polynomial.
-/

namespace Calculator

namespace Arithmetic

/-- What an operator or a function computes of its operands. -/
def ofOperands (command : Command) (operands : List Value) (settings : Preferences) :
    Outcome Value :=
  match operands with
  | [x] => unary command x settings
  | [x, y] => binary command x y settings
  | _ => .error .unimplemented

/-- The operations on two values of any height are the arithmetic of two values. -/
theorem operations_binary (settings : Preferences) (command : Command) (x y : Value) :
    (operations settings).binary command x y = binary command x y settings := rfl

end Arithmetic

namespace Polynomial

open PolynomialOver

variable {settings : Preferences}

/-- What polynomials stand for whose factors are exact and whose names stand for numbers. -/
def exactReading (name : Symbol → GaussianRational) (Knows : Symbol → Prop) :
    Reading Value GaussianRational where
  factor := Value.gaussian
  name := name
  Reads := Value.IsGaussian
  Knows := Knows

/-- Whether names that are known and count as the same stand for the same. -/
def Congruent (name : Symbol → GaussianRational) (Knows : Symbol → Prop) (caseSensitive : Bool) :
    Prop :=
  ∀ x y, Knows x → Knows y → x.compare y caseSensitive = .eq → name x = name y

variable {name : Symbol → GaussianRational} {Knows : Symbol → Prop}

/-- Arithmetic is that of Gaussian rational numbers. -/
theorem respects_exactReading (symbolic : settings.numericalResults = false)
    (congruent : Congruent name Knows settings.caseSensitive) :
    (exactReading name Knows).Respects (factors (Arithmetic.operations settings))
      settings.caseSensitive where
  add left right done := by
    have sum := (Arithmetic.binary_add symbolic left right).symm.trans done
    obtain rfl := Except.ok.inj sum
    exact ⟨Value.isGaussian_ofGaussian _, Value.gaussian_ofGaussian _⟩
  multiply left right done := by
    have product := (Arithmetic.binary_multiply symbolic left right).symm.trans done
    obtain rfl := Except.ok.inj product
    exact ⟨Value.isGaussian_ofGaussian _, Value.gaussian_ofGaussian _⟩
  negate exact done := by
    have opposite := (Arithmetic.unary_negate symbolic exact).symm.trans done
    obtain rfl := Except.ok.inj opposite
    exact ⟨Value.isGaussian_ofGaussian _, Value.gaussian_ofGaussian _⟩
  isZero exact zero := Value.gaussian_of_isZero exact zero
  name left right same := congruent _ _ left right same

/-- A polynomial that stands for what an exact number denotes. The number is one that arithmetic
makes, unless the polynomial consists of it. -/
structure Stands (name : Symbol → GaussianRational) (Knows : Symbol → Prop) (caseSensitive : Bool)
    (p : Polynomial) (value : Value) : Prop where
  means : (exactReading name Knows).Means caseSensitive p value.gaussian
  exact : value.IsGaussian
  made : value = .ofGaussian value.gaussian ∨ p = ofConstant value

/-! ## Leaves -/

/-- A polynomial stands for the number that arithmetic makes for what it stands for. -/
theorem stands_ofGaussian {p : Polynomial} {caseSensitive : Bool} {z : GaussianRational}
    (means : (exactReading name Knows).Means caseSensitive p z) :
    Stands name Knows caseSensitive p (.ofGaussian z) where
  means := by rwa [Value.gaussian_ofGaussian]
  exact := Value.isGaussian_ofGaussian z
  made := .inl (by rw [Value.gaussian_ofGaussian])

/-- A name stands for what it is known for. -/
theorem stands_ofVariable {symbol : Symbol} {value : Real} (exact : value.isExact = true)
    (known : Knows symbol) (same : name symbol = (Value.real value).gaussian) :
    Stands name Knows settings.caseSensitive (ofVariable symbol) (.real value) where
  means := {
    orderly := (normal_ofVariable symbol :
      Normal (factors (Arithmetic.operations settings)) _ _).toOrderly
    factors := by
      rintro term among
      obtain rfl := List.mem_singleton.mp among
      exact Value.isGaussian_ofInt 1
    names := by
      rintro other among
      obtain rfl := List.mem_singleton.mp among
      exact known
    value := by
      show Value.gaussian (.ofInt 1) * (name symbol ^ 1 * 1) + 0 = _
      rw [Value.gaussian_ofInt, same]
      simp }
  exact := .real value exact
  made := .inl (Value.ofGaussian_gaussian exact).symm

section Operators

variable (symbolic : settings.numericalResults = false)
variable (congruent : Congruent name Knows settings.caseSensitive)
include symbolic congruent

/-- A number stands for itself. -/
theorem stands_ofConstant {value : Value} (exact : value.IsGaussian) :
    Stands name Knows settings.caseSensitive (ofConstant value) value where
  means := Reading.means_constant (respects_exactReading symbolic congruent) exact
  exact := exact
  made := .inr rfl

omit symbolic congruent in
/-- A polynomial without variables stands for its value. -/
theorem means_constant? {R : Type} [CommRing R] {reading : Reading Value R}
    (none : reading.factor (.ofInt 0) = 0) {p : Polynomial} {caseSensitive : Bool} {z : R}
    (means : reading.Means caseSensitive p z) {value : Value} (only : constant? p = some value) :
    reading.factor value = z := by
  have sum := means.value
  unfold constant? at only
  split at only
  · rename_i empty
    obtain rfl := Option.some.inj only
    rw [empty] at sum
    rw [← sum, none]
    rfl
  · rename_i term single
    split at only
    · rename_i zero
      obtain rfl := Option.some.inj only
      have product (names : List Symbol) (exponents : List UInt32)
          (zero : exponents.all (· == 0) = true) :
          reading.monomial names exponents = 1 := by
        induction exponents generalizing names with
        | nil => cases names <;> rfl
        | cons exponent exponents inductionHypothesis =>
          rw [List.all_cons, Bool.and_eq_true, beq_iff_eq] at zero
          cases names with
          | nil => rfl
          | cons name names =>
            rw [Reading.monomial, zero.1, inductionHypothesis names zero.2, UInt32.toNat_zero,
              pow_zero, one_mul]
      rw [single, Reading.sum_cons, Reading.sum_nil, add_zero, Reading.term, product _ _ zero,
        mul_one] at sum
      exact sum
    · cases only
  · cases only

omit symbolic congruent in
/-- An integer is what represents its value. -/
theorem eq_ofInt_of_toInt? {value : Value} {n : ℤ} (integer : value.toInt? = some n) :
    value = .ofInt n := by
  cases value with
  | real x =>
    have denotes := (Real.rational?_eq_some_iff x n).mp (Real.toInt?_value integer)
    rw [Real.ofRational_intCast] at denotes
    exact congrArg Value.real denotes
  | _ => cases integer

omit symbolic congruent in
/-- A value that is an exponent is that natural number. -/
theorem eq_ofInt_of_exponent? {value : Value} {exponent : UInt32}
    (found : exponent? value = some exponent) : value = .ofInt exponent.toNat := by
  unfold exponent? at found
  split at found
  · rename_i n integer
    split at found
    · rename_i fits
      rw [Bool.and_eq_true, decide_eq_true_eq, decide_eq_true_eq] at fits
      obtain rfl := Option.some.inj found
      rw [eq_ofInt_of_toInt? integer, UInt32.toNat_ofNat_of_lt' fits.2]
      congr 1
      omega
    · cases found
  · cases found

omit symbolic congruent in
/-- What stands for an exponent is that natural number. -/
theorem exponent_of_stands {p : Polynomial} {caseSensitive : Bool} {value : Value}
    (stands : Stands name Knows caseSensitive p value) {exponent : UInt32}
    (found : (constant? p).bind exponent? = some exponent) : value = .ofInt exponent.toNat := by
  obtain ⟨only, constant, found⟩ := Option.bind_eq_some_iff.mp found
  obtain rfl := eq_ofInt_of_exponent? found
  have made : Value.ofGaussian value.gaussian = .ofInt exponent.toNat := by
    have denoted : (Value.ofInt exponent.toNat).gaussian = value.gaussian :=
      means_constant? (Value.gaussian_ofInt 0) stands.means constant
    rw [← denoted, Value.gaussian_ofInt, Value.ofGaussian_intCast]
  rcases stands.made with canonical | single
  · exact canonical.trans made
  · rw [single, ofConstant] at constant
    split at constant
    · rename_i zero
      rw [← made]
      cases stands.exact with
      | real x exact => exact (Value.ofGaussian_gaussian exact).symm
      | complex => cases zero
    · exact Option.some.inj constant

/-- An operator that makes a polynomial of polynomials computes what that stands for of the numbers
that they stand for, unless it raises zero to zero or the power is too large. -/
theorem stands_ofNode {command : Command} {operands : List Polynomial} {values : List Value}
    {result : Polynomial}
    (stand : List.Forall₂ (Stands name Knows settings.caseSensitive) operands values)
    (done : ofNode (Arithmetic.operations settings) settings command operands = .ok result) :
    command.arity = values.length ∧
      ∃ z, Stands name Knows settings.caseSensitive result (.ofGaussian z) ∧
        Raised (command = .power ∧ values = [.ofInt 0, .ofInt 0]) (Value.ofGaussian z)
          (Arithmetic.ofOperands command values settings) := by
  have respects := respects_exactReading symbolic congruent
  have computed {z : GaussianRational} {indeterminate : Prop}
      (equal : Arithmetic.ofOperands command values settings = .ok (.ofGaussian z)) :
      Raised indeterminate (Value.ofGaussian z) (Arithmetic.ofOperands command values settings) := by
    rw [equal]
    exact .done
  have powered {p : Polynomial} {x : Value}
      (base : Stands name Knows settings.caseSensitive p x) {exponent : UInt32}
      (raised : power (Arithmetic.operations settings) settings p exponent = .ok result) :
      Stands name Knows settings.caseSensitive result
        (.ofGaussian (x.gaussian ^ exponent.toNat)) :=
    stands_ofGaussian (Reading.means_power respects (Value.isGaussian_ofInt 1)
      ((Value.gaussian_ofInt 1).trans Int.cast_one) base.means raised)
  unfold ofNode at done
  split at done
  · rename_i p
    obtain _ | ⟨stands, _ | _⟩ := stand
    exact ⟨rfl, _, stands_ofGaussian (Reading.means_negate respects stands.means done),
      computed (Arithmetic.unary_negate symbolic stands.exact)⟩
  · rename_i p
    obtain _ | ⟨stands, _ | _⟩ := stand
    exact ⟨rfl, _, powered stands done,
      computed (Arithmetic.unary_square symbolic stands.exact)⟩
  · rename_i p
    obtain _ | ⟨stands, _ | _⟩ := stand
    exact ⟨rfl, _, powered stands done, computed (Arithmetic.unary_cube symbolic stands.exact)⟩
  · rename_i p q
    obtain _ | ⟨left, _ | ⟨right, _ | _⟩⟩ := stand
    exact ⟨rfl, _, stands_ofGaussian (Reading.means_add respects left.means right.means done),
      computed (Arithmetic.binary_add symbolic left.exact right.exact)⟩
  · rename_i p q
    obtain _ | ⟨left, _ | ⟨right, _ | _⟩⟩ := stand
    exact ⟨rfl, _,
      stands_ofGaussian (Reading.means_subtract respects left.means right.means done),
      computed (Arithmetic.binary_subtract symbolic left.exact right.exact)⟩
  · rename_i p q
    obtain _ | ⟨left, _ | ⟨right, _ | _⟩⟩ := stand
    exact ⟨rfl, _,
      stands_ofGaussian (Reading.means_multiply respects left.means right.means done),
      computed (Arithmetic.binary_multiply symbolic left.exact right.exact)⟩
  · rename_i p q
    obtain _ | ⟨base, _ | ⟨index, _ | _⟩⟩ := stand
    split at done
    · rename_i exponent found
      obtain rfl := exponent_of_stands index found
      refine ⟨rfl, _, powered base done, ?_⟩
      refine (Arithmetic.raised_binary_power symbolic base.exact exponent.toNat).imp ?_
      rintro ⟨rfl, zero⟩
      exact ⟨rfl, by rw [zero]; rfl⟩
    · cases done
  · cases done

end Operators

/-! ## The value of a polynomial -/

/-- Operations that compute exact sums, products and powers of exact numbers. -/
structure ExactOperations (operations : Operations) : Prop where
  add {x y : Value} (left : x.IsGaussian) (right : y.IsGaussian) :
    operations.binary .add x y = .ok (.ofGaussian (x.gaussian + y.gaussian))
  multiply {x y : Value} (left : x.IsGaussian) (right : y.IsGaussian) :
    operations.binary .multiply x y = .ok (.ofGaussian (x.gaussian * y.gaussian))
  power {x : Value} (base : x.IsGaussian) (exponent : ℕ) :
    Raised (x = .ofInt 0 ∧ exponent = 0) (Value.ofGaussian (x.gaussian ^ exponent))
      (operations.binary .power x (.ofInt exponent))

/-- The operations of arithmetic do. -/
theorem exactOperations (symbolic : settings.numericalResults = false) :
    ExactOperations (Arithmetic.operations settings) where
  add left right := by
    rw [Arithmetic.operations_binary]
    exact Arithmetic.binary_add symbolic left right
  multiply left right := by
    rw [Arithmetic.operations_binary]
    exact Arithmetic.binary_multiply symbolic left right
  power base exponent := by
    rw [Arithmetic.operations_binary]
    exact Arithmetic.raised_binary_power symbolic base exponent

/-- Whether exact numbers are what names stand for. -/
def Given (name : Symbol → GaussianRational) (names : List Symbol) (values : List Value) : Prop :=
  List.Forall₂ (fun symbol value => value.IsGaussian ∧ value.gaussian = name symbol) names values

section Values

variable {operations : Operations} (exactly : ExactOperations operations)
variable (reading : Reading Value GaussianRational) {names : List Symbol} {values : List Value}
include exactly

/-- The value of a term is exact and denotes the product of its factor and the powers, unless a
power is too large. -/
theorem evaluateTerm_eq (given : Given reading.name names values) (exponents : List UInt32)
    {product : Value} (exact : product.IsGaussian) :
    (∃ value : Value, evaluateTerm operations product (values.zip exponents) = .ok value ∧
      value.IsGaussian ∧ value.gaussian = product.gaussian * reading.monomial names exponents) ∨
    evaluateTerm operations product (values.zip exponents) = .error .outOfMemory := by
  induction given generalizing exponents product with
  | nil => exact .inl ⟨product, rfl, exact, (mul_one _).symm⟩
  | @cons symbol value names values first rest inductionHypothesis =>
    cases exponents with
    | nil => exact .inl ⟨product, rfl, exact, (mul_one _).symm⟩
    | cons exponent exponents =>
      rw [List.zip_cons_cons, evaluateTerm, Reading.monomial, ← mul_assoc, ← first.2]
      by_cases zero : exponent = 0
      · rw [if_pos zero, zero, UInt32.toNat_zero, pow_zero, mul_one]
        exact inductionHypothesis exponents exact
      · rw [if_neg zero]
        have raised := exactly.power first.1 exponent.toNat
        generalize operations.binary .power value (.ofInt exponent.toNat) = power at raised
        cases raised with
        | tooLarge => exact .inr rfl
        | undefined indeed => exact absurd (UInt32.toNat_inj.mp indeed.2) zero
        | done =>
          have multiplied := exactly.multiply exact
            (Value.isGaussian_ofGaussian (value.gaussian ^ exponent.toNat))
          have next := inductionHypothesis exponents (Value.isGaussian_ofGaussian
            (product.gaussian * value.gaussian ^ exponent.toNat))
          rw [Value.gaussian_ofGaussian] at multiplied next
          rw [Outcome.ok_bind, multiplied]
          exact next

/-- The values of terms are added up, unless a power is too large. -/
theorem evaluateTerms_eq (given : Given reading.name names values) {terms : List (Term Value)}
    (factors : ∀ term ∈ terms, term.factor.IsGaussian) (start : GaussianRational) :
    let evaluated := terms.foldlM (fun sum term => do
      operations.binary .add sum
        (← evaluateTerm operations term.factor (values.zip term.exponents)))
      (Value.ofGaussian start)
    evaluated = .ok (.ofGaussian (start + (terms.map fun term =>
      term.factor.gaussian * reading.monomial names term.exponents).sum)) ∨
    evaluated = .error .outOfMemory := by
  induction terms generalizing start with
  | nil => exact .inl (congrArg (Except.ok ∘ Value.ofGaussian) (add_zero start).symm)
  | cons term terms inductionHypothesis =>
    obtain ⟨first, rest⟩ := List.forall_mem_cons.mp factors
    dsimp only
    rw [List.foldlM_cons, List.map_cons, List.sum_cons, ← add_assoc]
    rcases evaluateTerm_eq exactly reading given term.exponents first with
      ⟨value, evaluated, exactValue, denotes⟩ | tooLarge
    · have added := exactly.add (Value.isGaussian_ofGaussian start) exactValue
      rw [Value.gaussian_ofGaussian, denotes] at added
      rw [evaluated, Outcome.ok_bind, added]
      exact inductionHypothesis rest _
    · rw [tooLarge]
      exact .inr rfl

end Values

/-- The value of a polynomial at numbers is what the polynomial stands for, unless a power is too
large. -/
theorem evaluateAt_eq (symbolic : settings.numericalResults = false) {p : Polynomial}
    {z : GaussianRational} {values : List Value} {caseSensitive : Bool}
    (means : (exactReading name Knows).Means caseSensitive p z)
    (given : Given name p.names values) :
    evaluateAt (Arithmetic.operations settings) p values = .ok (.ofGaussian z) ∨
      evaluateAt (Arithmetic.operations settings) p values = .error .outOfMemory := by
  have length : (values.length != p.names.length) = false := by
    rw [bne_eq_false_iff_eq]
    exact given.length_eq.symm
  have zero : Value.ofInt 0 = .ofGaussian 0 := by
    rw [← Value.ofGaussian_intCast, Int.cast_zero]
  have summed := evaluateTerms_eq (exactOperations symbolic) (exactReading name Knows) given
    means.factors 0
  rw [zero_add] at summed
  rw [evaluateAt, length, zero, ← means.value]
  exact summed

end Polynomial

end Calculator
