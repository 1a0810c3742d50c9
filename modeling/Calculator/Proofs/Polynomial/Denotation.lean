import Calculator.Proofs.Polynomial.Ring
import Mathlib

/-!
# Expressions and the elements that they denote

An expression of names and exact numbers denotes an element of the ring of polynomials in all names
over the rational numbers, if it is built by the operations of the ring. Where it can be made a
polynomial, the polynomial is the normal form of this element. So two such expressions are made the
same polynomial exactly if they denote the same element.
-/

namespace Calculator

namespace Polynomial

open MvPolynomial (C X)
open PolynomialOver

/-! ## What expressions denote -/

/-- The element that a leaf of an expression denotes. -/
noncomputable def leafElement (item : Value) : Outcome (MvPolynomial Symbol ℚ) :=
  match item with
  | .symbol name => .ok (X name)
  | .real _ => .ok (C item.rational)
  | .polynomial p => .ok (element p)
  | _ => .error .badArgumentType

open Classical in
/-- The element that an operator makes of elements. An exponent must be a natural number. -/
noncomputable def nodeElement (command : Command) (operands : List (MvPolynomial Symbol ℚ)) :
    Outcome (MvPolynomial Symbol ℚ) :=
  match command, operands with
  | .negate, [f] => .ok (-f)
  | .square, [f] => .ok (f ^ 2)
  | .cube, [f] => .ok (f ^ 3)
  | .add, [f, g] => .ok (f + g)
  | .subtract, [f, g] => .ok (f - g)
  | .multiply, [f, g] => .ok (f * g)
  | .power, [f, g] =>
    if natural : ∃ n : ℕ, g = n then .ok (f ^ natural.choose) else .error .badArgumentValue
  | _, _ => .error .badArgumentValue

/-- The element that an expression denotes. -/
noncomputable def elementOf (items : List Value) : Outcome (MvPolynomial Symbol ℚ) := do
  match ← Expression.fold leafElement nodeElement items with
  | [f] => return f
  | _ => throw .badArgumentValue

/-- Whether the numbers in an expression are exact real numbers and the polynomials in it are in
normal form and have exact real factors. -/
structure IsRational (operations : Operations) (settings : Preferences) (items : List Value) :
    Prop where
  numbers : ∀ item ∈ items, item.isNumber = true → item.isExact = true
  polynomials : ∀ p, .polynomial p ∈ items → IsCanonical operations settings p

variable {operations : Operations} {settings : Preferences} {p q result : Polynomial}
variable {f g : MvPolynomial Symbol ℚ} {items : List Value}

/-- A power with a natural number that the exponent denotes. -/
theorem nodeElement_power (f : MvPolynomial Symbol ℚ) (n : ℕ) :
    nodeElement .power [f, (n : MvPolynomial Symbol ℚ)] = .ok (f ^ n) := by
  have natural : ∃ m : ℕ, (n : MvPolynomial Symbol ℚ) = m := ⟨n, rfl⟩
  have chosen : natural.choose = n := (Nat.cast_injective natural.choose_spec).symm
  simp only [nodeElement, dif_pos natural, chosen]

section Conversion

variable (rational : operations.AreRational) (sensitive : settings.caseSensitive = true)
include rational sensitive

/-- The polynomial that is made of a leaf denotes what the leaf does. -/
theorem denotes_ofLeaf (leaves : IsRational operations settings items) {item : Value}
    (among : item ∈ items) (done : ofLeaf item = .ok result) :
    ∃ f, leafElement item = .ok f ∧ Denotes operations settings result f := by
  unfold ofLeaf at done
  split at done
  · obtain rfl := Except.ok.inj done
    exact ⟨_, rfl, denotes_ofVariable _⟩
  · obtain rfl := Except.ok.inj done
    exact ⟨_, rfl, (leaves.polynomials _ among).denotes⟩
  · obtain rfl := Except.ok.inj done
    exact ⟨_, rfl, denotes_ofConstant rational sensitive (leaves.numbers _ among rfl)⟩
  · exact absurd (leaves.numbers _ among rfl) Bool.false_ne_true
  · cases done

omit rational sensitive in
/-- A polynomial that is taken for an exponent denotes that natural number. -/
theorem Denotes.exponent (denotes : Denotes operations settings p f) {exponent : UInt32}
    (found : (constant? p).bind exponent? = some exponent) : f = (exponent.toNat : ℕ) := by
  obtain ⟨only, constant, found⟩ := Option.bind_eq_some_iff.mp found
  obtain rfl := eq_ofInt_of_exponent? found
  have none : elementReading.factor (.ofInt 0) = 0 := by simp [elementReading]
  have value := means_constant? none denotes.means constant
  simpa [elementReading] using value.symm

/-- The polynomial that an operator makes denotes what the operator makes of the elements. -/
theorem denotes_ofNode {command : Command} {operands : List Polynomial}
    {elements : List (MvPolynomial Symbol ℚ)}
    (denote : List.Forall₂ (Denotes operations settings) operands elements)
    (done : ofNode operations settings command operands = .ok result) :
    ∃ f, nodeElement command elements = .ok f ∧ Denotes operations settings result f := by
  unfold ofNode at done
  split at done
  · obtain _ | ⟨denotes, _ | _⟩ := denote
    exact ⟨_, rfl, denotes_negate rational sensitive denotes done⟩
  · obtain _ | ⟨denotes, _ | _⟩ := denote
    exact ⟨_, rfl, denotes_power rational sensitive denotes done⟩
  · obtain _ | ⟨denotes, _ | _⟩ := denote
    exact ⟨_, rfl, denotes_power rational sensitive denotes done⟩
  · obtain _ | ⟨left, _ | ⟨right, _ | _⟩⟩ := denote
    exact ⟨_, rfl, denotes_add rational sensitive left right done⟩
  · obtain _ | ⟨left, _ | ⟨right, _ | _⟩⟩ := denote
    exact ⟨_, rfl, denotes_subtract rational sensitive left right done⟩
  · obtain _ | ⟨left, _ | ⟨right, _ | _⟩⟩ := denote
    exact ⟨_, rfl, denotes_multiply rational sensitive left right done⟩
  · obtain _ | ⟨base, _ | ⟨index, _ | _⟩⟩ := denote
    split at done
    · rename_i exponent found
      obtain rfl := index.exponent found
      exact ⟨_, nodeElement_power _ _, denotes_power rational sensitive base done⟩
    · cases done
  · cases done

/-- The polynomial that an expression is made is the normal form of what it denotes. -/
theorem denotes_ofExpression (leaves : IsRational operations settings items)
    (done : ofExpression operations settings items = .ok result) :
    ∃ f, elementOf items = .ok f ∧ Denotes operations settings result f := by
  obtain ⟨results, folded, rest⟩ := Outcome.bind_eq_ok.mp done
  have simulated : ∃ elements, Expression.fold leafElement nodeElement items = .ok elements ∧
      List.Forall₂ (Denotes operations settings) results elements :=
    Expression.exists_foldOnto
      (fun item among _ p => denotes_ofLeaf rational sensitive leaves among)
      (fun command operands elements p => denotes_ofNode rational sensitive) .nil folded
  obtain ⟨elements, foldedElements, denote⟩ := simulated
  split at rest
  · obtain rfl := Except.ok.inj rest
    obtain _ | ⟨denotes, _ | _⟩ := denote
    exact ⟨_, Outcome.bind_eq_ok.mpr ⟨_, foldedElements, rfl⟩, denotes⟩
  · cases rest

end Conversion

/-! ## The canonical form -/

/-- Where capital letters count and results need not be numerical, polynomials with exact real
factors are a canonical form. Two expressions of names and exact real numbers that can be made
polynomials denote elements of the ring of polynomials over the rational numbers; the polynomials
are in normal form, and they are equal exactly if the elements are. And the operations on
polynomials in normal form obey the laws of the ring. -/
theorem canonical_form {settings : Preferences} (sensitive : settings.caseSensitive = true)
    (symbolic : settings.numericalResults = false) :
    (∀ {first second p q}, IsRational (Arithmetic.operations settings) settings first →
      IsRational (Arithmetic.operations settings) settings second →
      ofExpression (Arithmetic.operations settings) settings first = .ok p →
      ofExpression (Arithmetic.operations settings) settings second = .ok q →
        ∃ f g, elementOf first = .ok f ∧ elementOf second = .ok g ∧
          IsCanonical (Arithmetic.operations settings) settings p ∧
          IsCanonical (Arithmetic.operations settings) settings q ∧ (p = q ↔ f = g)) ∧
    RingLaws (Arithmetic.operations settings) settings := by
  have rational := Arithmetic.areRational_operations symbolic
  generalize Arithmetic.operations settings = operations at rational ⊢
  refine ⟨fun leaves leavesOther made madeOther => ?_, ringLaws rational sensitive⟩
  obtain ⟨f, element, denotes⟩ := denotes_ofExpression rational sensitive leaves made
  obtain ⟨g, elementOther, denotesOther⟩ :=
    denotes_ofExpression rational sensitive leavesOther madeOther
  refine ⟨f, g, element, elementOther, denotes.toIsCanonical, denotesOther.toIsCanonical, ?_⟩
  constructor
  · rintro rfl
    exact denotes.element.symm.trans denotesOther.element
  · rintro rfl
    exact denotes.unique denotesOther

/-- The product of a sum and a difference denotes the same element as the difference of squares,
since both are made the same polynomial. -/
theorem canonical_form_squares :
    let x := Value.symbol ⟨"X"⟩
    let y := Value.symbol ⟨"Y"⟩
    let product := [x, y, .command .add, x, y, .command .subtract, .command .multiply]
    let difference := [x, .command .square, y, .command .square, .command .subtract]
    ∃ f g, elementOf product = .ok f ∧ elementOf difference = .ok g ∧ f = g := by
  intro x y product difference
  let p : Polynomial := ⟨[⟨"Y"⟩, ⟨"X"⟩], [⟨.ofInt (-1), [2, 0]⟩, ⟨.ofInt 1, [0, 2]⟩]⟩
  have made : ofExpression (Arithmetic.operations {}) {} product = .ok p := by cbv
  have madeOther : ofExpression (Arithmetic.operations {}) {} difference = .ok p := by cbv
  have leaves : IsRational (Arithmetic.operations {}) {} product :=
    ⟨by simp [product, x, y, Value.isNumber, Value.isReal, Value.isComplex],
      by simp [product, x, y]⟩
  have leavesOther : IsRational (Arithmetic.operations {}) {} difference :=
    ⟨by simp [difference, x, y, Value.isNumber, Value.isReal, Value.isComplex],
      by simp [difference, x, y]⟩
  obtain ⟨f, g, element, elementOther, -, -, same⟩ :=
    (canonical_form rfl rfl).1 leaves leavesOther made madeOther
  exact ⟨f, g, element, elementOther, same.mp rfl⟩

end Polynomial

end Calculator
