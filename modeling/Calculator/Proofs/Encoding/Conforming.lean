import Calculator.Encoding.Reader
import Calculator.Proofs.Number.Rounding
import Mathlib

/-!
# Values that survive encoding

Most of what decoding checks is part of the types of values. What is left: decimals are rounded
to their tier, the terms of a polynomial have an exponent for every variable, values nest no
deeper than decoding goes, and the encoding is so short that its length is a word.
-/

namespace Calculator

namespace Value

/-- Whether decoding could have made a value: every decimal in it is rounded to its tier, and
every term of a polynomial in it has one exponent for every variable. -/
inductive WellFormed : Value → Prop
  | word (value : Word) : WellFormed (.real (.word value))
  | wide (value : Wide) : WellFormed (.real (.wide value))
  | fraction (value : Fraction) : WellFormed (.real (.fraction value))
  | decimal (value : Rounded) (made : value.IsMade) : WellFormed (.real (.decimal value))
  | complex (form : ComplexForm) (first second : Value) (formedFirst : WellFormed first)
      (formedSecond : WellFormed second) : WellFormed (.complex form first second)
  | symbol (name : Symbol) : WellFormed (.symbol name)
  | text (content : String) : WellFormed (.text content)
  | sequence (kind : SequenceKind) (items : List Value)
      (formed : ∀ item ∈ items, WellFormed item) : WellFormed (.sequence kind items)
  | polynomial (names : List Symbol) (terms : List (Term Value))
      (aligned : ∀ term ∈ terms, term.exponents.length = names.length)
      (formed : ∀ term ∈ terms, WellFormed term.factor) :
      WellFormed (.polynomial ⟨names, terms⟩)
  | unit (value : Value) (items : List Value) (formedValue : WellFormed value)
      (formed : ∀ item ∈ items, WellFormed item) : WellFormed (.unit value items)
  | command (command : Command) : WellFormed (.command command)

mutual

/-- How many levels below a value decoding finds the innermost values in it. The unit of a value
is a value of its own, an expression, with the items of the unit one level further down. -/
def nesting : Value → Nat
  | .complex _ first second => max (nesting first) (nesting second) + 1
  | .sequence _ items => nestingOfItems items
  | .polynomial p => nestingOfPolynomial p
  | .unit value items => max (nesting value) (nestingOfItems items) + 1
  | _ => 0

/-- How many levels below a row of values decoding finds the innermost ones, none for the empty
row. -/
def nestingOfItems : List Value → Nat
  | [] => 0
  | item :: items => max (nesting item + 1) (nestingOfItems items)

/-- How many levels below a polynomial decoding finds the innermost values. -/
def nestingOfPolynomial : PolynomialOver Value → Nat
  | ⟨_, terms⟩ => nestingOfTerms terms

/-- How many levels below a row of terms decoding finds the innermost values. -/
def nestingOfTerms : List (Term Value) → Nat
  | [] => 0
  | term :: terms => max (nestingOfTerm term + 1) (nestingOfTerms terms)

/-- How many levels below the factor of a term decoding finds the innermost values. -/
def nestingOfTerm : Term Value → Nat
  | ⟨factor, _⟩ => nesting factor

end

/-- A row nests within some levels if each of its items does with one level less. -/
theorem nestingOfItems_le_iff (items : List Value) (levels : Nat) :
    nestingOfItems items ≤ levels ↔ ∀ item ∈ items, nesting item + 1 ≤ levels := by
  induction items with
  | nil => simp [nestingOfItems]
  | cons item items inductionHypothesis =>
    rw [nestingOfItems, Nat.max_le, inductionHypothesis, List.forall_mem_cons]

/-- A row of terms nests within some levels if each factor does with one level less. -/
theorem nestingOfTerms_le_iff (terms : List (Term Value)) (levels : Nat) :
    nestingOfTerms terms ≤ levels ↔ ∀ term ∈ terms, nesting term.factor + 1 ≤ levels := by
  induction terms with
  | nil => simp [nestingOfTerms]
  | cons term terms inductionHypothesis =>
    rw [nestingOfTerms, Nat.max_le, inductionHypothesis, List.forall_mem_cons, nestingOfTerm]

end Value

namespace Encoding

/-- Whether the length of a value's encoding is a word, as that of everything in memory is. -/
def Addressable (value : Value) : Prop := (encode value).length < 2 ^ 64

/-- Whether a value can be encoded and decoded again. -/
structure Conforming (value : Value) : Prop where
  /-- The value is in the form that decoding makes. -/
  formed : value.WellFormed
  /-- The value does not nest deeper than decoding goes. -/
  shallow : value.nesting ≤ deepestLevel
  /-- The length of the encoding is a word. -/
  addressable : Addressable value

end Encoding

end Calculator
