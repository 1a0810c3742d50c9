import Calculator.Proofs.Encoding.Canonical
import Calculator.Proofs.Polynomial.Order
import Mathlib

/-!
# What decoding lets in

Of the form of what it decodes, decoding sees to the numbers: wherever one lies inside the value
that comes out, it has the only form that its kind has for it. Of a polynomial decoding sees to the
number of the exponents. Variables and terms stay as they were written, because their order depends
on a setting that decoding does not know.
-/

namespace Calculator

namespace Value

/-- What a value consists of: itself, and what lies inside it at any depth. -/
inductive Component : Value → Value → Prop
  | whole (value : Value) : Component value value
  | first {form : ComplexForm} {a b part : Value} (inside : Component a part) :
      Component (.complex form a b) part
  | second {form : ComplexForm} {a b part : Value} (inside : Component b part) :
      Component (.complex form a b) part
  | item {kind : SequenceKind} {items : List Value} {item part : Value} (among : item ∈ items)
      (inside : Component item part) : Component (.sequence kind items) part
  | factor {names : List Symbol} {terms : List (Term Value)} {term : Term Value} {part : Value}
      (among : term ∈ terms) (inside : Component term.factor part) :
      Component (.polynomial ⟨names, terms⟩) part
  | quantity {value : Value} {items : List Value} {part : Value} (inside : Component value part) :
      Component (.unit value items) part
  | measure {value : Value} {items : List Value} {item part : Value} (among : item ∈ items)
      (inside : Component item part) : Component (.unit value items) part

/-- Whether a value, apart from what lies inside it, has the form that decoding gives it: zero has
no sign, an integer of any size does not fit a word, a fraction is in lowest terms and no integer,
a decimal has no more digits than its tier and no zeros to drop, and every term of a polynomial has
one exponent for every variable. -/
def Canonical : Value → Prop
  | .real (.word number) => number.negative = true → number.magnitude ≠ 0
  | .real (.wide number) => UInt64.size ≤ number.value.natAbs
  | .real (.fraction number) =>
    number.numerator ≠ 0 ∧ 1 < number.denominator ∧
      number.numerator.natAbs.Coprime number.denominator
  | .real (.decimal number) => number.value.Settled number.precision.digits
  | .polynomial p => ∀ term ∈ p.terms, term.exponents.length = p.names.length
  | _ => True

/-- What lies inside a well-formed value is well formed. -/
theorem Component.wellFormed {value part : Value} (inside : value.Component part)
    (formed : value.WellFormed) : part.WellFormed := by
  induction inside with
  | whole => exact formed
  | first _ inductionHypothesis =>
    cases formed with
    | complex _ _ _ formed _ => exact inductionHypothesis formed
  | second _ inductionHypothesis =>
    cases formed with
    | complex _ _ _ _ formed => exact inductionHypothesis formed
  | item among _ inductionHypothesis =>
    cases formed with
    | sequence _ _ formed => exact inductionHypothesis (formed _ among)
  | factor among _ inductionHypothesis =>
    cases formed with
    | polynomial _ _ _ formed => exact inductionHypothesis (formed _ among)
  | quantity _ inductionHypothesis =>
    cases formed with
    | unit _ _ formed _ => exact inductionHypothesis formed
  | measure among _ inductionHypothesis =>
    cases formed with
    | unit _ _ _ formed => exact inductionHypothesis (formed _ among)

/-- A well-formed value has the form that decoding gives it. -/
theorem WellFormed.canonical {value : Value} (formed : value.WellFormed) : value.Canonical := by
  cases formed with
  | word number => exact number.canonical
  | wide number => exact number.wide
  | fraction number =>
    refine ⟨fun zero => ?_, number.proper, number.reduced⟩
    have common := number.reduced
    have proper := number.proper
    rw [zero, Int.natAbs_zero, Nat.gcd_zero_left] at common
    omega
  | decimal number made =>
    have settled := Rounded.make_settled number.value number.precision
    rwa [Rounded.make_of_isMade made] at settled
  | polynomial _ _ aligned _ => exact aligned
  | complex | symbol | text | sequence | unit | command => trivial

end Value

namespace Encoding

/-- What was decoded is well formed, whatever the bytes were. -/
theorem wellFormed_of_decode {bytes : List UInt8} {value : Value} {used : Nat}
    (decoded : decode bytes = .ok (value, used)) : value.WellFormed := by
  rw [decode] at decoded
  cases read : readWithin (deepestLevel + 1) bytes with
  | error reason => simp [read, bind, Except.bind] at decoded
  | ok outcome =>
    obtain ⟨item, rest⟩ := outcome
    obtain ⟨taken, -, -, sound⟩ := reads_within _ bytes item rest read
    obtain ⟨rfl, -⟩ : item = value ∧ bytes.length - rest.length = used := by
      simpa [read, bind, Except.bind, pure, Except.pure] using decoded
    exact sound.formed

/-- Twice the variable X, in the list of names in front of Y, once with the factor zero. -/
def disordered : Polynomial :=
  ⟨[⟨"X"⟩, ⟨"Y"⟩], [⟨.ofInt 0, [1, 0]⟩, ⟨.ofInt 3, [1, 0]⟩]⟩

end Encoding

end Calculator
