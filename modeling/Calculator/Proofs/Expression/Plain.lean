import Calculator.Proofs.Encoding.Conforming
import Calculator.Proofs.Expression.Operations
import Mathlib

/-!
# Plain values

Numbers, texts and values with units are plain: nothing in them waits to be computed, and but for
their units no commands are in them. Arithmetic of plain values is done at once and stays among
them, level by level, except that an equation or a binding holds its operands together.
-/

namespace Calculator

namespace Value

/-- Whether a value is a part of another one: the value itself, or a part of what this is made of.
What units are made of counts where it is asked for, the factors of polynomials do not count. -/
inductive IsPart (units : Bool) (part : Value) : Value → Prop
  | whole : IsPart units part part
  | first {form : ComplexForm} {first second : Value} (inside : IsPart units part first) :
      IsPart units part (.complex form first second)
  | second {form : ComplexForm} {first second : Value} (inside : IsPart units part second) :
      IsPart units part (.complex form first second)
  | item {kind : SequenceKind} {items : List Value} {item : Value} (among : item ∈ items)
      (inside : IsPart units part item) : IsPart units part (.sequence kind items)
  | value {value : Value} {items : List Value} (inside : IsPart units part value) :
      IsPart units part (.unit value items)
  | unit {value : Value} {items : List Value} {item : Value} (counts : units = true)
      (among : item ∈ items) (inside : IsPart units part item) :
      IsPart units part (.unit value items)

/-- Whether a value is a number, a text or a value with a unit, made as decoding would make it. What
the unit is does not matter. -/
inductive Plain : Value → Prop
  | real {x : Real} (made : x.IsMade) : Plain (.real x)
  | text (content : String) : Plain (.text content)
  | complex (form : ComplexForm) {first second : Value} (plainFirst : Plain first)
      (plainSecond : Plain second) : Plain (.complex form first second)
  | unit {value : Value} {items : List Value} (plain : Plain value)
      (formed : ∀ item ∈ items, item.WellFormed) : Plain (.unit value items)

variable {value : Value}

/-- A real number that is made is well formed. -/
theorem wellFormed_real {x : Real} (made : x.IsMade) : WellFormed (.real x) := by
  cases x with
  | word value => exact .word value
  | wide value => exact .wide value
  | fraction value => exact .fraction value
  | decimal value => exact .decimal value made

/-- A plain value is well formed. -/
theorem Plain.wellFormed (plain : Plain value) : value.WellFormed := by
  induction plain with
  | real made => exact wellFormed_real made
  | text content => exact .text content
  | complex form _ _ first second => exact .complex form _ _ first second
  | unit _ formed inductionHypothesis => exact .unit _ _ inductionHypothesis formed

/-- A plain value is not symbolic. -/
theorem Plain.isSymbolic (plain : Plain value) : value.isSymbolic = false := by
  cases plain <;> rfl

/-- A plain value takes no operands. -/
theorem Plain.operandsOf (plain : Plain value) : Expression.operandsOf value = 0 := by
  cases plain <;> rfl

/-- But for its units there is no command in a plain value. -/
theorem Plain.no_command (plain : Plain value) (command : Command) :
    ¬ IsPart false (.command command) value := by
  induction plain with
  | real | text => rintro ⟨⟩
  | complex _ _ _ first second =>
    rintro (_ | inside | inside)
    · exact first inside
    · exact second inside
  | unit _ _ inductionHypothesis =>
    rintro (_ | _ | _ | _ | inside | ⟨⟨⟩, _⟩)
    exact inductionHypothesis inside

/-- A plain value contributes itself to an expression. -/
theorem Plain.postfixItems (plain : Plain value) : value.postfixItems = [value] := by
  cases plain <;> rfl

/-- Plain values are a kind that arithmetic may stay inside. -/
theorem domain_plain : Domain Plain fun items => ∀ item ∈ items, item.WellFormed where
  made := .real
  negated := by
    rintro x (made | _)
    exact .real made.negated
  applied := by
    rintro x result command settings (made | _) done
    exact .real (made.apply done)
  complex := by
    refine ⟨?_, fun ⟨first, second⟩ => .complex _ first second⟩
    rintro (_ | _ | ⟨_, first, second⟩)
    exact ⟨first, second⟩
  text := .text
  unit := by
    refine ⟨?_, fun ⟨plain, formed⟩ => .unit plain formed⟩
    rintro (_ | _ | _ | ⟨plain, formed⟩)
    exact ⟨plain, formed⟩
  rowLeaf plain := List.forall_mem_singleton.mpr plain.wellFormed
  rowUnary row _ := List.forall_mem_append.mpr ⟨row, List.forall_mem_singleton.mpr (.command _)⟩
  rowBinary first second _ := List.forall_mem_append.mpr
    ⟨List.forall_mem_append.mpr ⟨first, second⟩, List.forall_mem_singleton.mpr (.command _)⟩

end Value

namespace Arithmetic

open Value (Plain)

variable {settings : Preferences} {x y z : Value} {command : Command}

/-- At every level the operations stay among plain values. -/
theorem stay_plain_upTo (level : ℕ) :
    (upTo settings level).Stay Plain fun items => ∀ item ∈ items, item.WellFormed := by
  induction level with
  | zero =>
    exact ⟨Value.domain_plain, fun _ _ => Outcome.satisfiesM_error _,
      fun _ _ _ => Outcome.satisfiesM_error _⟩
  | succ level inductionHypothesis =>
    refine ⟨Value.domain_plain, fun single plain => ?_, fun dyadic left right => ?_⟩
    · exact inside_unaryOver inductionHypothesis single plain plain.isSymbolic
    · refine inside_binaryOver inductionHypothesis dyadic left right ?_
      rw [left.isSymbolic, right.isSymbolic]
      rfl

/-- The result of an operation on two plain values is plain. -/
theorem plain_binary (dyadic : command.isDyadic = true) (left : Plain x) (right : Plain y)
    (done : binary command x y settings = .ok z) : Plain z :=
  SatisfiesM_Except_eq.mp ((stay_plain_upTo _).binary dyadic left right) z done

/-- The value of a function at a plain value is plain. -/
theorem plain_unary (single : command.operands = 1) (plain : Plain x)
    (done : unary command x settings = .ok z) : Plain z :=
  SatisfiesM_Except_eq.mp ((stay_plain_upTo _).unary single plain) z done

end Arithmetic

end Calculator
