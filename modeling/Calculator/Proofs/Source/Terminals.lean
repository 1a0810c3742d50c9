import Calculator.Proofs.Expression.Plain
import Calculator.Proofs.Source.Permitted
import Mathlib

/-!
# What stands in expressions that are read

In an expression that is read, numbers, names, texts, polynomials and real numbers with units stand
for themselves, and the leaves of a unit are of these kinds again. Without polynomials these are
plain values and names. That holds for every expression that is read, whatever it is a part of.
-/

namespace Calculator.Source

open Expression (Rooted operandsOf)
open Value (IsPart)

/-- What stands for itself in an expression that is read. -/
inductive Terminal : Value → Prop
  | real {x : Real} (made : x.IsMade) : Terminal (.real x)
  | symbol (name : Symbol) : Terminal (.symbol name)
  | text (content : String) : Terminal (.text content)
  | complex (form : ComplexForm) {a b : Real} (first : a.IsMade) (second : b.IsMade) :
      Terminal (.complex form (.real a) (.real b))
  | polynomial (p : Polynomial) : Terminal (.polynomial p)
  | quantity {x : Real} {items : List Value} (made : x.IsMade)
      (unit : ∀ item ∈ items, item.isCommand = false → Terminal item) :
      Terminal (.unit (.real x) items)

variable {value : Value} {items : List Value}

/-- A terminal is no command. -/
theorem Terminal.isCommand (terminal : Terminal value) : value.isCommand = false := by
  cases terminal <;> rfl

/-- A real terminal is made. -/
theorem isMade_of_terminal {x : Real} (terminal : Terminal (.real x)) : x.IsMade := by
  cases terminal with
  | real made => exact made

/-- The items of an expression of terminals are commands and terminals. -/
theorem terminal_of_mem (rooted : Rooted Terminal items) :
    ∀ item ∈ items, item.isCommand = false → Terminal item :=
  fun item among plain => rooted.leaves item among (Value.operandsOf_of_isCommand plain)

/-- What an expression is a part of is no command. -/
theorem isCommand_of_isPart {row : List Value} (part : IsPart true (.expression row) value) :
    value.isCommand = false := by
  cases part <;> rfl

/-- No expression is a part of a terminal. -/
theorem Terminal.no_expression (terminal : Terminal value) (row : List Value) :
    ¬ IsPart true (.expression row) value := by
  induction terminal with
  | real | symbol | text | polynomial => rintro ⟨⟩
  | complex form first second => rintro (_ | ⟨⟨⟩⟩ | ⟨⟨⟩⟩)
  | quantity made unit inductionHypothesis =>
    rintro (_ | _ | _ | _ | ⟨⟨⟩⟩ | ⟨_, among, inside⟩)
    exact inductionHypothesis _ among (isCommand_of_isPart inside) inside

/-- What may stand in an expression and what may be read are kinds that permit what can be read, if
every expression in what may be read is one of terminals. -/
theorem permits_terminal : Permits (fun _ => Terminal) fun _ value =>
    ∀ row, IsPart true (.expression row) value → Rooted Terminal row where
  alone terminal := Value.operandsOf_of_isCommand terminal.isCommand
  wider terminal := terminal
  object terminal row inside := absurd inside (terminal.no_expression row)
  made := .real
  negated terminal := .real (isMade_of_terminal terminal).negated
  symbol := .symbol
  text := .text
  complex form _ _ first second :=
    .complex form (isMade_of_terminal first) (isMade_of_terminal second)
  polynomial _ _ := .polynomial _
  quantity terminal unit := .quantity (isMade_of_terminal terminal) (terminal_of_mem unit)
  unit terminal unit := by
    rintro row (_ | _ | _ | _ | inside | ⟨_, among, inside⟩)
    · exact absurd inside (terminal.no_expression row)
    · have terminal := terminal_of_mem unit _ among (isCommand_of_isPart inside)
      exact absurd inside (terminal.no_expression row)
  sequence plain each := by
    rintro row (_ | _ | _ | ⟨among, inside⟩)
    · exact absurd rfl plain
    · exact each _ among (isCommand_of_isPart inside) row inside
  expression rooted := by
    rintro row (_ | _ | _ | ⟨among, inside⟩)
    · exact rooted
    · have terminal := terminal_of_mem rooted _ among (isCommand_of_isPart inside)
      exact absurd inside (terminal.no_expression row)

/-- Whether a value is one of those that are read from a source text, or a part of one. -/
def IsRead (settings : Preferences) (value : Value) : Prop :=
  ∃ source whole, IsPart true value whole ∧
    ((∃ values, readLine source settings = .ok values ∧ whole ∈ values) ∨
      ∃ kind precedence length,
        readObject source settings kind precedence = .ok (some (whole, length)))

/-- An expression that is read is one of terminals. -/
theorem rooted_of_isRead {settings : Preferences} (read : IsRead settings (.expression items)) :
    Rooted Terminal items := by
  obtain ⟨source, whole, part, found⟩ := read
  have object : Readable (fun value =>
      ∀ row, IsPart true (.expression row) value → Rooted Terminal row) whole := by
    rcases found with ⟨values, done, among⟩ | ⟨kind, precedence, length, done⟩
    · exact SatisfiesM_Except_eq.mp (readable_readLine permits_terminal source settings) values done
        whole among
    · exact SatisfiesM_Except_eq.mp
        (readable_readObject permits_terminal source settings kind precedence) _ done _ rfl
  exact object (isCommand_of_isPart part) items part

/-- A terminal without polynomials is a plain value or a name. -/
theorem Terminal.plain_or_symbol (terminal : Terminal value)
    (noPolynomial : ∀ p, ¬ IsPart true (.polynomial p) value) :
    Value.Plain value ∨ ∃ name, value = .symbol name := by
  induction terminal with
  | real made => exact .inl (.real made)
  | symbol name => exact .inr ⟨name, rfl⟩
  | text content => exact .inl (.text content)
  | complex form first second => exact .inl (.complex form (.real first) (.real second))
  | polynomial p => exact absurd .whole (noPolynomial p)
  | quantity made unit inductionHypothesis =>
    refine .inl (.unit (.real made) fun item among => ?_)
    cases plain : item.isCommand with
    | true =>
      cases item with
      | command command => exact .command command
      | _ => cases plain
    | false =>
      rcases inductionHypothesis item among plain
        (fun p inside => noPolynomial p (.unit rfl among inside)) with plain | ⟨name, rfl⟩
      · exact plain.wellFormed
      · exact .symbol name

/-- In an expression that is read and that has no polynomial in it, plain values and names stand. -/
theorem rooted_plain_of_isRead {settings : Preferences}
    (read : IsRead settings (.expression items))
    (noPolynomial : ∀ p, ¬ IsPart true (.polynomial p) (.expression items)) :
    Rooted (fun item => Value.Plain item ∨ ∃ name, item = .symbol name) items :=
  (rooted_of_isRead read).imp fun _ among terminal =>
    terminal.plain_or_symbol fun p inside => noPolynomial p (.item among inside)

end Calculator.Source
