import Calculator.Proofs.Expression.Folding
import Calculator.Proofs.Polynomial.Ring
import Mathlib

/-!
# Polynomials as they are written

A polynomial in normal form with exact real factors is written as an expression: powers are
multiplied into monomials, these with their factors into terms, and the terms are added or
subtracted in their order. Every stretch of the expression that is an operand folds to the
polynomial that denotes the power, the monomial, the term or the sum that it was written for, so the
whole expression folds to a polynomial that denotes the same element as the one that was written.
There is only one such polynomial.

No exponent on the way is larger than in the polynomial itself. Since only names of the polynomial
occur, it does not matter whether capital letters count.
-/

namespace Calculator

/-! ## Factors that are not written -/

namespace Value

variable {value : Value}

/-- What is taken for one denotes one. -/
theorem rational_of_isOne (single : value.isOne = true) : value.rational = 1 := by
  cases value with
  | real x =>
    cases x with
    | word word =>
      have parts : (!word.negative && word.magnitude == 1) = true := single
      rw [Bool.and_eq_true, Bool.not_eq_true', beq_iff_eq] at parts
      have integer : word.toInt = 1 := by rw [Word.toInt, parts.1, parts.2]; rfl
      have denotes : (Value.real (.word word)).rational = (word.toInt : ℚ) := rfl
      rw [denotes, integer, Int.cast_one]
    | _ => cases single
  | _ => cases single

/-- What equals an integer is the integer. -/
theorem eq_ofInt_of_beq {n : ℤ} (equal : (value == .ofInt n) = true) : value = .ofInt n := by
  have compared : value.same (.real (.ofInt n)) = true := equal
  unfold same at compared
  cases value with
  | real x => exact congrArg Value.real (eq_of_beq compared)
  | _ => cases compared

/-- A change of sign of an exact real number denotes the opposite. -/
theorem exact_negated {number : Real} (exact : (Value.real number).isExact = true) :
    (Value.real number.negated).isExact = true ∧
      (Value.real number.negated).rational = -(Value.real number).rational := by
  have opposite : Value.real number.negated = .ofRational (-(Value.real number).rational) := by
    have negated := Real.negated_ofRational (Value.real number).rational
    rw [Value.real.inj (ofRational_rational exact)] at negated
    exact congrArg Value.real negated
  rw [opposite]
  exact ⟨isExact_ofRational _, rational_ofRational _⟩

end Value

namespace Polynomial

open MvPolynomial (C X degreeOf)
open PolynomialOver

variable {operations : Operations} {settings : Preferences} {Knows : Symbol → Prop}
variable {f g : MvPolynomial Symbol ℚ} {items others : List Value} {m n : Symbol →₀ ℕ}

/-- Whether items fold to a polynomial that denotes an element, whatever comes before and after
them. -/
def FoldsTo (Knows : Symbol → Prop) (operations : Operations) (settings : Preferences)
    (items : List Value) (f : MvPolynomial Symbol ℚ) : Prop :=
  ∃ result, DenotesOver Knows operations settings result f ∧ ∀ results rest,
    Expression.foldOnto ofLeaf (ofNode operations settings) (items ++ rest) results =
      Expression.foldOnto ofLeaf (ofNode operations settings) rest (result :: results)

/-! ## Leaves and operators -/

/-- A leaf folds to the polynomial that it is. -/
theorem foldsTo_leaf {item : Value} {result : Polynomial} (alone : Expression.operandsOf item = 0)
    (done : ofLeaf item = .ok result) (denotes : DenotesOver Knows operations settings result f) :
    FoldsTo Knows operations settings [item] f :=
  ⟨result, denotes, fun results rest => Expression.foldOnto_leaf done alone rest results⟩

/-- An operator behind its operand makes a polynomial of the one that the operand folds to. -/
theorem FoldsTo.unary {command : Command} (operand : FoldsTo Knows operations settings items f)
    (count : command.operands = 1)
    (made : ∀ p, DenotesOver Knows operations settings p f →
      ∃ result, ofNode operations settings command [p] = .ok result ∧
        DenotesOver Knows operations settings result g) :
    FoldsTo Knows operations settings (items ++ [.command command]) g := by
  obtain ⟨p, denotes, folds⟩ := operand
  obtain ⟨result, done, denotesResult⟩ := made p denotes
  refine ⟨result, denotesResult, fun results rest => ?_⟩
  rw [List.append_assoc, folds]
  exact Expression.foldOnto_command done count (List.cons_ne_nil _ _) rest results

/-- An operator behind two operands makes a polynomial of those that the operands fold to. -/
theorem FoldsTo.binary {command : Command} {h : MvPolynomial Symbol ℚ}
    (left : FoldsTo Knows operations settings items f)
    (right : FoldsTo Knows operations settings others g) (count : command.operands = 2)
    (made : ∀ p q, DenotesOver Knows operations settings p f →
      DenotesOver Knows operations settings q g →
        ∃ result, ofNode operations settings command [p, q] = .ok result ∧
          DenotesOver Knows operations settings result h) :
    FoldsTo Knows operations settings (items ++ others ++ [.command command]) h := by
  obtain ⟨p, denotesLeft, foldsLeft⟩ := left
  obtain ⟨q, denotesRight, foldsRight⟩ := right
  obtain ⟨result, done, denotesResult⟩ := made p q denotesLeft denotesRight
  refine ⟨result, denotesResult, fun results rest => ?_⟩
  rw [List.append_assoc, List.append_assoc, foldsLeft, foldsRight]
  exact Expression.foldOnto_command done count (List.cons_ne_nil _ _) rest results

/-- A name folds to the variable. -/
theorem foldsTo_symbol {name : Symbol} (known : Knows name) :
    FoldsTo Knows operations settings [.symbol name] (X name) := by
  refine foldsTo_leaf rfl rfl ⟨denotes_ofVariable name, fun other among => ?_⟩
  obtain rfl := List.mem_singleton.mp among
  exact known

section Operators

variable (rational : operations.AreRational)
variable (apart : Distinguishes settings.caseSensitive Knows)
include rational apart

/-- A number folds to the constant. -/
theorem foldsTo_number {value : Value} (exact : value.isExact = true) :
    FoldsTo Knows operations settings [value] (C value.rational) := by
  cases value with
  | real number => exact foldsTo_leaf rfl rfl (denotesOver_ofConstant rational apart exact)
  | _ => cases exact

/-- The opposite of what items fold to. -/
theorem FoldsTo.negate (operand : FoldsTo Knows operations settings items f) :
    FoldsTo Knows operations settings (items ++ [.command .negate]) (-f) := by
  refine operand.unary rfl fun p denotes => ?_
  cases done : Polynomial.negate operations p with
  | error fault => exact absurd done (negate_ne_error rational denotes.toDenotes)
  | ok result => exact ⟨result, done, denotes.negate rational apart done⟩

/-- The sum of what items fold to. -/
theorem FoldsTo.add (left : FoldsTo Knows operations settings items f)
    (right : FoldsTo Knows operations settings others g) :
    FoldsTo Knows operations settings (items ++ others ++ [.command .add]) (f + g) := by
  refine left.binary right rfl fun p q first second => ?_
  cases done : Polynomial.add operations settings p q with
  | error fault => exact absurd done (add_ne_error rational first.toDenotes second.toDenotes)
  | ok result => exact ⟨result, done, first.add rational apart second done⟩

/-- The difference of what items fold to. -/
theorem FoldsTo.subtract (left : FoldsTo Knows operations settings items f)
    (right : FoldsTo Knows operations settings others g) :
    FoldsTo Knows operations settings (items ++ others ++ [.command .subtract]) (f - g) := by
  refine left.binary right rfl fun p q first second => ?_
  cases done : Polynomial.subtract operations settings p q with
  | error fault => exact absurd done (subtract_ne_error rational first.toDenotes second.toDenotes)
  | ok result => exact ⟨result, done, first.subtract rational apart second done⟩

/-- The product of what items fold to, if all exponents in it are words. -/
theorem FoldsTo.multiply (left : FoldsTo Knows operations settings items f)
    (right : FoldsTo Knows operations settings others g)
    (small : ∀ name, degreeOf name f + degreeOf name g < UInt32.size) :
    FoldsTo Knows operations settings (items ++ others ++ [.command .multiply]) (f * g) := by
  refine left.binary right rfl fun p q first second => ?_
  cases done : Polynomial.multiply operations settings p q with
  | error fault =>
    obtain ⟨-, -, -, name, large⟩ := multiply_eq_error_of_over rational apart first second done
    exact absurd (small name) (not_lt.mpr large)
  | ok result => exact ⟨result, done, first.multiply rational apart second done⟩

/-- The product of monomials that items fold to, if all exponents in it are words. -/
theorem FoldsTo.multiply_monomial {a b : ℚ}
    (left : FoldsTo Knows operations settings items (.monomial m a))
    (right : FoldsTo Knows operations settings others (.monomial n b))
    (small : ∀ name, (m + n) name < UInt32.size) :
    FoldsTo Knows operations settings (items ++ others ++ [.command .multiply])
      (.monomial (m + n) (a * b)) := by
  have degree (name : Symbol) (m : Symbol →₀ ℕ) (a : ℚ) :
      degreeOf name (.monomial m a) ≤ m name := by
    classical
    exact MvPolynomial.degreeOf_le_iff.mpr fun n support => by
      rw [Finset.mem_singleton.mp (MvPolynomial.support_monomial_subset support)]
  rw [← MvPolynomial.monomial_mul]
  exact left.multiply rational apart right fun name =>
    (Nat.add_le_add (degree name m a) (degree name n b)).trans_lt (small name)

/-! ## Monomials -/

omit rational apart in
/-- A constant that is a word is found as an exponent. -/
theorem exponent?_ofConstant (exponent : UInt32) :
    (constant? (ofConstant (.ofInt exponent.toNat))).bind exponent? = some exponent := by
  have found : constant? (ofConstant (.ofInt exponent.toNat)) = some (.ofInt exponent.toNat) := by
    unfold ofConstant
    split
    · rename_i zero
      have none := (Value.isZero_iff (Value.isExact_ofInt _)).mp zero
      rw [Value.rational_ofInt, Int.cast_eq_zero] at none
      rw [none]
      rfl
    · rfl
  have integer : (Value.ofInt exponent.toNat).toInt? = some (exponent.toNat : ℤ) :=
    Real.toInt?_ofInt _
  have fits : (exponent.toNat : ℤ).toNat < UInt32.size := exponent.toNat_lt_size
  have word : (decide (0 ≤ (exponent.toNat : ℤ)) &&
      decide ((exponent.toNat : ℤ).toNat < UInt32.size)) = true := by
    rw [Bool.and_eq_true, decide_eq_true_eq, decide_eq_true_eq]
    exact ⟨Int.natCast_nonneg _, fits⟩
  rw [found, Option.bind_some, exponent?, integer]
  dsimp only
  rw [if_pos word, Int.toNat_natCast, UInt32.ofNat_toNat]

/-- A power folds to the power of the variable. -/
theorem foldsTo_powerItems {name : Symbol} (known : Knows name) {exponent : UInt32}
    (positive : exponent ≠ 0) :
    FoldsTo Knows operations settings (powerItems name exponent)
      (.monomial (.single name exponent.toNat) 1) := by
  rw [← MvPolynomial.X_pow_eq_monomial]
  unfold powerItems
  split
  · rename_i single
    rw [single, UInt32.toNat_one, pow_one]
    exact foldsTo_symbol known
  · have base : FoldsTo Knows operations settings [.symbol name] (X name) := foldsTo_symbol known
    refine base.binary (foldsTo_number rational apart (Value.isExact_ofInt exponent.toNat)) rfl
      fun p q first second => ?_
    -- The exponent is the polynomial that the number is.
    have constant := denotesOver_ofConstant rational apart (Value.isExact_ofInt exponent.toNat)
    obtain rfl : q = ofConstant (.ofInt exponent.toNat) :=
      second.toDenotes.unique constant.toDenotes
    have node : ofNode operations settings .power [p, ofConstant (.ofInt exponent.toNat)] =
        power operations settings p exponent := by
      rw [ofNode, exponent?_ofConstant]
    rw [node]
    cases done : power operations settings p exponent with
    | error fault =>
      obtain ⟨-, other, large⟩ :=
        power_eq_error_of_over rational apart first (.inl positive) done
      have degree : degreeOf other (X name : MvPolynomial Symbol ℚ) ≤ 1 := by
        rw [MvPolynomial.degreeOf_X]
        split <;> decide
      have word := exponent.toNat_lt_size
      exact absurd (large.trans (Nat.mul_le_mul_left _ degree)) (by omega)
    | ok result => exact ⟨result, rfl, first.power rational apart done⟩

omit rational apart in
/-- The powers of names in a row are those that are written. -/
theorem powers_eq_sum (names : List Symbol) (exponents : List UInt32) :
    powers names exponents =
      ((((names.zip exponents).filter fun entry => entry.2 != 0).map fun entry =>
        Finsupp.single entry.1 entry.2.toNat).sum : Symbol →₀ ℕ) := by
  fun_induction powers names exponents with
  | case1 name names exponent exponents inductionHypothesis =>
    rw [inductionHypothesis, List.zip_cons_cons, List.filter_cons]
    by_cases zero : exponent = 0
    · simp [zero]
    · simp [zero]
  | case2 names exponents other =>
    cases names with
    | nil => rfl
    | cons name names =>
      cases exponents with
      | nil => rfl
      | cons exponent exponents => exact absurd rfl (other name names exponent exponents rfl)

/-- The powers of names fold to a monomial, each multiplied onto those before it. -/
theorem foldsTo_powers {entries : List (Symbol × UInt32)}
    (start : FoldsTo Knows operations settings items (.monomial m 1))
    (known : ∀ entry ∈ entries, Knows entry.1 ∧ entry.2 ≠ 0)
    (small : ∀ name, (m + (entries.map fun entry =>
      Finsupp.single entry.1 entry.2.toNat).sum) name < UInt32.size) :
    FoldsTo Knows operations settings
      (items ++ entries.flatMap fun (name, exponent) =>
        powerItems name exponent ++ [.command .multiply])
      (.monomial (m + (entries.map fun entry => Finsupp.single entry.1 entry.2.toNat).sum) 1) := by
  induction entries generalizing items m with
  | nil => simpa using start
  | cons entry entries inductionHypothesis =>
    obtain ⟨first, others⟩ := List.forall_mem_cons.mp known
    rw [List.map_cons, List.sum_cons, ← add_assoc] at small ⊢
    have here (name : Symbol) :
        (m + Finsupp.single entry.1 entry.2.toNat) name < UInt32.size :=
      (Nat.le_add_right _ _).trans_lt (small name)
    have product := start.multiply_monomial rational apart
      (foldsTo_powerItems rational apart first.1 first.2) here
    rw [one_mul] at product
    have all := inductionHypothesis product others small
    rw [List.flatMap_cons]
    simpa only [List.append_assoc] using all

/-- The powers of names in a row fold to a monomial, unless there are none. -/
theorem foldsTo_monomialItems {names : List Symbol} {exponents : List UInt32}
    (known : ∀ name ∈ names, Knows name)
    (small : ∀ name, powers names exponents name < UInt32.size) :
    (monomialItems names exponents = [] ∧ powers names exponents = 0) ∨
      (monomialItems names exponents ≠ [] ∧
        FoldsTo Knows operations settings (monomialItems names exponents)
          (.monomial (powers names exponents) 1)) := by
  have written : ∀ entry ∈ (names.zip exponents).filter fun entry => entry.2 != 0,
      Knows entry.1 ∧ entry.2 ≠ 0 := by
    intro entry among
    obtain ⟨listed, positive⟩ := List.mem_filter.mp among
    exact ⟨known _ (List.of_mem_zip listed).1, by simpa using positive⟩
  rw [powers_eq_sum] at small ⊢
  unfold monomialItems
  generalize (names.zip exponents).filter (fun entry => entry.2 != 0) = entries at written small ⊢
  cases entries with
  | nil => exact .inl ⟨rfl, rfl⟩
  | cons entry entries =>
    obtain ⟨first, others⟩ := List.forall_mem_cons.mp written
    refine .inr ⟨?_, ?_⟩
    · simp only [powerItems]
      split <;> simp
    · exact foldsTo_powers rational apart (foldsTo_powerItems rational apart first.1 first.2)
        others small

/-! ## Terms -/

/-- A term folds to its factor times the monomial. -/
theorem foldsTo_termItems {names : List Symbol} {exponents : List UInt32} {factor : Value}
    (known : ∀ name ∈ names, Knows name)
    (small : ∀ name, powers names exponents name < UInt32.size) (exact : factor.isExact = true) :
    FoldsTo Knows operations settings (termItems factor (monomialItems names exponents))
      (.monomial (powers names exponents) factor.rational) := by
  have number := foldsTo_number rational apart exact
  unfold termItems
  rcases foldsTo_monomialItems rational apart known small with ⟨empty, none⟩ | ⟨some, monomial⟩
  · rw [empty, none, List.isEmpty_nil, if_pos rfl]
    exact number
  · rw [if_neg (by simpa using some)]
    split
    · rename_i single
      rw [Value.rational_of_isOne single]
      exact monomial
    · split
      · rename_i opposite
        have negated := monomial.negate rational apart
        rw [← map_neg] at negated
        rw [Value.eq_ofInt_of_beq opposite, Value.rational_ofInt, Int.cast_neg, Int.cast_one]
        exact negated
      · have product := FoldsTo.multiply_monomial (m := 0) rational apart number monomial
          (by simpa using small)
        rw [zero_add, mul_one] at product
        exact product

/-- A term behind others folds to their sum with it. -/
theorem foldsTo_laterTermItems {names : List Symbol} {term : Term Value}
    (known : ∀ name ∈ names, Knows name)
    (small : ∀ name, powers names term.exponents name < UInt32.size)
    (exact : term.factor.isExact = true)
    (before : FoldsTo Knows operations settings items f) :
    FoldsTo Knows operations settings (items ++ laterTermItems names term)
      (f + elementReading.term names term) := by
  rw [term_eq]
  obtain ⟨factor, exponents⟩ := term
  cases factor with
  | real number =>
    unfold laterTermItems
    dsimp only
    split
    · -- What is subtracted has the opposite sign.
      obtain ⟨exactNegated, opposite⟩ := Value.exact_negated exact
      have difference := before.subtract rational apart
        (foldsTo_termItems rational apart known small exactNegated)
      rw [opposite, map_neg, sub_neg_eq_add, List.append_assoc] at difference
      exact difference
    · have sum := before.add rational apart (foldsTo_termItems rational apart known small exact)
      rwa [List.append_assoc] at sum
  | _ => cases exact

/-- Terms behind others fold to the sum of all. -/
theorem foldsTo_laterTerms {names : List Symbol} {terms : List (Term Value)}
    (known : ∀ name ∈ names, Knows name)
    (small : ∀ term ∈ terms, ∀ name, powers names term.exponents name < UInt32.size)
    (exact : ∀ term ∈ terms, term.factor.isExact = true)
    (before : FoldsTo Knows operations settings items f) :
    FoldsTo Knows operations settings (items ++ terms.flatMap (laterTermItems names))
      (f + elementReading.sum names terms) := by
  induction terms generalizing items f with
  | nil => simpa using before
  | cons term terms inductionHypothesis =>
    obtain ⟨smallFirst, smallOthers⟩ := List.forall_mem_cons.mp small
    obtain ⟨first, others⟩ := List.forall_mem_cons.mp exact
    rw [List.flatMap_cons, Reading.sum_cons, ← List.append_assoc, ← add_assoc]
    exact inductionHypothesis smallOthers others
      (foldsTo_laterTermItems rational apart known smallFirst first before)

/-! ## Whole polynomials -/

/-- A polynomial in normal form is written as items that fold to what it denotes. -/
theorem foldsTo_toExpression {p : Polynomial} (canonical : IsCanonical operations settings p)
    (known : ∀ name ∈ p.names, Knows name) :
    FoldsTo Knows operations settings (toExpression p) p.element := by
  have small (term) (among : term ∈ p.terms) := canonical.denotes.powers_lt among
  have exact := canonical.exact
  unfold toExpression Polynomial.element
  generalize p.terms = terms at small exact
  cases terms with
  | nil =>
    have zero := foldsTo_number rational apart (Value.isExact_ofInt 0)
    rwa [Value.rational_ofInt, Int.cast_zero, map_zero] at zero
  | cons term terms =>
    obtain ⟨smallFirst, smallOthers⟩ := List.forall_mem_cons.mp small
    obtain ⟨first, others⟩ := List.forall_mem_cons.mp exact
    rw [Reading.sum_cons, term_eq]
    exact foldsTo_laterTerms rational apart known smallOthers others
      (foldsTo_termItems rational apart known smallFirst first)

end Operators

/-- The expression that a polynomial in normal form with exact real factors is written as is read as
this polynomial. -/
theorem ofExpression_toExpression (symbolic : settings.numericalResults = false) {p : Polynomial}
    (canonical : IsCanonical (Arithmetic.operations settings) settings p) :
    ofExpression (Arithmetic.operations settings) settings (toExpression p) = .ok p := by
  have rational := Arithmetic.areRational_operations symbolic
  generalize Arithmetic.operations settings = operations at rational canonical ⊢
  have apart := distinguishes_of_namesDescend canonical.normal.names
  obtain ⟨result, denotes, folds⟩ :=
    foldsTo_toExpression rational apart canonical fun _ among => among
  have folded := folds [] []
  rw [List.append_nil] at folded
  rw [ofExpression, Expression.fold, folded, denotes.toDenotes.unique canonical.denotes]
  rfl

/-- Where capital letters do not count, a polynomial whose terms are written in every way is read
back. -/
theorem ofExpression_toExpression_of_terms :
    let settings : Preferences := { caseSensitive := false }
    let p : Polynomial := ⟨[⟨"y"⟩, ⟨"X"⟩],
      [⟨.ofInt (-1), [2, 1]⟩, ⟨.ofInt 1, [1, 3]⟩, ⟨.ofInt (-1), [1, 0]⟩,
        ⟨.ofRational (2 / 3), [0, 4294967295]⟩, ⟨.ofInt (-5), [0, 0]⟩]⟩
    ofExpression (Arithmetic.operations settings) settings (toExpression p) = .ok p :=
  ofExpression_toExpression rfl (by decide +kernel)

end Polynomial

end Calculator
