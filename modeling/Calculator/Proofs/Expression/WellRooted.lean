import Calculator.Arithmetic
import Calculator.Proofs.Expression.Rooted
import Mathlib

/-!
# Values all of whose expressions have a single root

Expressions and units are rows of values, and these may hold expressions and units again. A value is
well rooted if all of them have a single root, however deep they lie. What such a value contributes
to an expression is an expression by itself, also if it is a polynomial that is written out, so an
operator behind as many of them as it takes makes a well-rooted expression.
-/

namespace Calculator

open Expression (IsSingle Rooted Tail operandsOf rooted_iff tail_flatMap tail_nil tail_operator)

namespace Value

/-- Whether a value is a command. -/
def isCommand : Value → Bool
  | command _ => true
  | _ => false

/-- Whether a value is not a command and every expression and every unit in it has a single root.
Commands may be among the items of sequences and units only. -/
inductive WellRooted : Value → Prop
  | real (number : Real) : WellRooted (.real number)
  | complex (form : ComplexForm) {first second : Value} (rootedFirst : WellRooted first)
      (rootedSecond : WellRooted second) : WellRooted (.complex form first second)
  | symbol (name : Symbol) : WellRooted (.symbol name)
  | text (content : String) : WellRooted (.text content)
  | sequence {kind : SequenceKind} {items : List Value}
      (single : kind = .expression → IsSingle items)
      (inside : ∀ item ∈ items, item.isCommand = false → WellRooted item) :
      WellRooted (.sequence kind items)
  | polynomial {p : Polynomial} (factors : ∀ term ∈ p.terms, WellRooted term.factor) :
      WellRooted (.polynomial p)
  | unit {value : Value} {items : List Value} (rooted : WellRooted value) (single : IsSingle items)
      (inside : ∀ item ∈ items, item.isCommand = false → WellRooted item) :
      WellRooted (.unit value items)

/-- Whether a value is a command or well rooted, as all items of sequences and units should be. -/
def Sound (value : Value) : Prop := value.isCommand = false → value.WellRooted

variable {value : Value} {items : List Value}

/-- What is well rooted is not a command. -/
theorem WellRooted.isCommand (rooted : WellRooted value) : value.isCommand = false := by
  cases rooted <;> rfl

/-- What is not a command takes no operands. -/
theorem operandsOf_of_isCommand (plain : value.isCommand = false) : operandsOf value = 0 := by
  cases value with
  | command => cases plain
  | _ => rfl

/-- A number is not a command. -/
theorem isCommand_of_isNumber (number : value.isNumber = true) : value.isCommand = false := by
  cases value with
  | command => cases number
  | _ => rfl

/-- A value that is well rooted is an expression by itself. -/
theorem WellRooted.leaf (rooted : WellRooted value) : Rooted Sound [value] :=
  .leaf value (operandsOf_of_isCommand rooted.isCommand) fun _ => rooted

/-- An expression has a single root, and so have those in its leaves, if all items are sound and
they fold to one value. -/
theorem rooted_sound_iff : Rooted Sound items ↔
    IsSingle items ∧ ∀ item ∈ items, item.isCommand = false → item.WellRooted := by
  rw [rooted_iff]
  refine and_congr_right fun _ => forall₂_congr fun item _ =>
    ⟨fun leaf plain => ?_, fun inside _ => ?_⟩
  · exact leaf (operandsOf_of_isCommand plain) plain
  · exact inside

/-- An expression is well rooted if it has a single root and sound leaves. -/
theorem wellRooted_expression (rooted : Rooted Sound items) : WellRooted (.expression items) :=
  have ⟨single, inside⟩ := rooted_sound_iff.mp rooted
  .sequence (fun _ => single) inside

/-- A well-rooted expression has a single root and sound leaves. -/
theorem WellRooted.expressionItems (rooted : WellRooted (.expression items)) :
    Rooted Sound items := by
  cases rooted with
  | sequence single inside => exact rooted_sound_iff.mpr ⟨single rfl, inside⟩

/-- A value with a unit is well rooted if the value is and the unit is an expression. -/
theorem wellRooted_unit_iff :
    WellRooted (.unit value items) ↔ value.WellRooted ∧ Rooted Sound items := by
  rw [rooted_sound_iff]
  constructor
  · rintro (_ | _ | _ | _ | _ | _ | ⟨rooted, single, inside⟩)
    exact ⟨rooted, single, inside⟩
  · rintro ⟨rooted, single, inside⟩
    exact .unit rooted single inside

end Value

/-! ## Polynomials written out -/

namespace Polynomial

/-- What the leaves of a polynomial that is written out must be allowed: names and real numbers. -/
structure Allows (Leaf : Value → Prop) : Prop where
  symbol (name : Symbol) : Leaf (.symbol name)
  real (number : Real) : Leaf (.real number)

variable {Leaf : Value → Prop}

/-- A term is an expression. -/
theorem rooted_termItems {factor : Value} {monomial : List Value}
    (single : Rooted Leaf [factor]) (powers : monomial = [] ∨ Rooted Leaf monomial) :
    Rooted Leaf (termItems factor monomial) := by
  unfold termItems
  rcases powers with rfl | powers
  · exact single
  · split
    · exact single
    · split
      · exact powers
      · split
        · exact powers.unary rfl
        · exact single.binary powers rfl

variable (allows : Allows Leaf)
include allows

/-- A power of a variable is an expression. -/
theorem rooted_powerItems (name : Symbol) (exponent : UInt32) :
    Rooted Leaf (powerItems name exponent) := by
  have base := Rooted.leaf (.symbol name) rfl (allows.symbol name)
  unfold powerItems
  split
  · exact base
  · exact base.binary (.leaf _ rfl (allows.real _)) rfl

/-- The powers of the variables of a monomial are an expression, if there are any. -/
theorem rooted_monomialItems (names : List Symbol) (exponents : List UInt32) :
    monomialItems names exponents = [] ∨ Rooted Leaf (monomialItems names exponents) := by
  unfold monomialItems
  dsimp only
  split
  · exact .inl rfl
  · refine .inr (tail_flatMap (fun power _ => ?_) _ (rooted_powerItems allows _ _))
    exact (rooted_powerItems allows power.1 power.2).tail rfl

/-- A further term may follow an expression. -/
theorem tail_laterTermItems (names : List Symbol) {term : Term Value}
    (single : Rooted Leaf [term.factor]) : Tail Leaf (laterTermItems names term) := by
  have powers := rooted_monomialItems allows names term.exponents
  unfold laterTermItems
  dsimp only
  split
  · split
    · exact (rooted_termItems (.leaf _ rfl (allows.real _)) powers).tail rfl
    · exact (rooted_termItems single powers).tail rfl
  · exact (rooted_termItems single powers).tail rfl

/-- A polynomial that is written out is an expression, if its factors may be leaves of one. -/
theorem rooted_toExpression {p : Polynomial}
    (factors : ∀ term ∈ p.terms, Rooted Leaf [term.factor]) : Rooted Leaf p.toExpression := by
  unfold toExpression
  split
  · exact .leaf _ rfl (allows.real _)
  · rename_i first rest terms
    rw [terms] at factors
    obtain ⟨single, others⟩ := List.forall_mem_cons.mp factors
    refine tail_flatMap
      (fun term among => tail_laterTermItems allows p.names (others term among)) _ ?_
    exact rooted_termItems single (rooted_monomialItems allows _ _)

end Polynomial

/-! ## What values contribute to an expression -/

namespace Value

variable {x y : Value} {command : Command}

/-- Names and real numbers are sound. -/
theorem allows_sound : Polynomial.Allows Sound where
  symbol name _ := .symbol name
  real number _ := .real number

/-- A well-rooted value contributes an expression. -/
theorem WellRooted.postfixItems (rooted : WellRooted x) : Rooted Sound x.postfixItems := by
  unfold Value.postfixItems
  split
  · exact rooted.expressionItems
  · cases rooted with
    | polynomial factors =>
      exact Polynomial.rooted_toExpression allows_sound fun term among => (factors term among).leaf
  · exact rooted.leaf

/-- An operator behind two well-rooted operands makes a well-rooted expression. -/
theorem wellRooted_symbolicBinary (both : command.operands = 2) (left : WellRooted x)
    (right : WellRooted y) : WellRooted (Arithmetic.symbolicBinary command x y) :=
  wellRooted_expression (left.postfixItems.binary right.postfixItems both)

/-- An operator behind a well-rooted operand makes a well-rooted expression. -/
theorem wellRooted_symbolicUnary (single : command.operands = 1) (rooted : WellRooted x) :
    WellRooted (Arithmetic.symbolicUnary command x) :=
  wellRooted_expression (rooted.postfixItems.unary single)

end Value

end Calculator
