import Calculator.Proofs.Expression.Operations
import Calculator.Proofs.Expression.WellRooted
import Calculator.Proofs.Polynomial.Closure
import Mathlib

/-!
# Arithmetic keeps values well rooted

The operators and functions of the calculator make expressions of symbolic operands, combine units
and compute with the factors of polynomials. Level by level, what they make of well-rooted values is
well rooted, as long as an operator is given as many operands as it takes.
-/

namespace Calculator

open Expression (Rooted)
open Value (WellRooted)

/-- Well-rooted values are a kind that arithmetic may stay inside. -/
theorem Value.domain_wellRooted : Domain WellRooted (Rooted Value.Sound) where
  made _ := .real _
  negated _ := .real _
  applied _ _ := .real _
  complex := by
    refine ⟨?_, fun ⟨first, second⟩ => .complex _ first second⟩
    rintro (_ | ⟨_, first, second⟩)
    exact ⟨first, second⟩
  text := .text
  unit := Value.wellRooted_unit_iff
  rowLeaf rooted := rooted.leaf
  rowUnary rooted single := rooted.unary single
  rowBinary left right both := left.binary right both

/-- Whether operations on well-rooted values have well-rooted results. -/
abbrev Operations.KeepRoots (operations : Operations) : Prop :=
  operations.Stay WellRooted (Rooted Value.Sound)

namespace Polynomial

variable {parts : Operations} {settings : Preferences} (keep : parts.KeepRoots)

/-- Whether all factors are well rooted. -/
def FactorsRooted (p : Polynomial) : Prop := ∀ term ∈ p.terms, WellRooted term.factor

/-- A number as a polynomial has well-rooted factors if it is well rooted. -/
theorem factorsRooted_ofConstant {value : Value} (rooted : WellRooted value) :
    FactorsRooted (ofConstant value) :=
  factors_ofConstant rooted

/-- The factor of a variable is well rooted. -/
theorem factorsRooted_ofVariable (name : Symbol) : FactorsRooted (ofVariable name) :=
  List.forall_mem_singleton.mpr (.real _)

include keep

/-- All operations on polynomials keep their factors well rooted. -/
theorem closed_factorsRooted : Closed parts settings FactorsRooted :=
  closed_factors
    (fun left right => SatisfiesM_Except_eq.mp (keep.binary rfl left right) _)
    (fun left right => SatisfiesM_Except_eq.mp (keep.binary rfl left right) _)
    (fun rooted => SatisfiesM_Except_eq.mp (keep.unary rfl rooted) _) (.real _)

/-- The polynomial that a well-rooted value denotes has well-rooted factors. -/
theorem factorsRooted_ofValue {x : Value} (rooted : WellRooted x) :
    SatisfiesM FactorsRooted (ofValue parts settings x) := by
  refine SatisfiesM_Except_eq.mpr fun p done => ?_
  unfold ofValue at done
  split at done
  · have leaves := rooted.expressionItems.leaves
    refine (closed_factorsRooted keep).ofExpression (fun name _ => factorsRooted_ofVariable name)
      ?_ ?_ done
    · intro q among
      cases leaves _ among rfl rfl with
      | polynomial factors => exact factors
    · intro value among number
      have plain := Value.isCommand_of_isNumber number
      exact factorsRooted_ofConstant
        (leaves value among (Value.operandsOf_of_isCommand plain) plain)
  · unfold ofLeaf at done
    split at done
    · obtain rfl := Except.ok.inj done
      exact factorsRooted_ofVariable _
    · obtain rfl := Except.ok.inj done
      cases rooted with
      | polynomial factors => exact factors
    · obtain rfl := Except.ok.inj done
      exact factorsRooted_ofConstant rooted
    · obtain rfl := Except.ok.inj done
      exact factorsRooted_ofConstant rooted
    · cases done

end Polynomial

namespace Arithmetic

variable {parts : Operations} {settings : Preferences} (keep : parts.KeepRoots)
variable {x y : Value} {command : Command}

/-- A polynomial that an operation answers is well rooted. -/
theorem resultRooted_polynomial {outcome : Outcome Polynomial}
    (rooted : ∀ p, outcome = .ok p → Polynomial.FactorsRooted p) :
    SatisfiesM (ResultIn WellRooted) (outcome >>= fun p => pure (some (.polynomial p))) :=
  (SatisfiesM_Except_eq.mpr rooted).bind fun _ factors =>
    .pure (resultIn_some (.polynomial factors))

include keep

/-- An operation on polynomials answers a well-rooted polynomial, if any. -/
theorem resultRooted_polynomialBinary (left : WellRooted x) (right : WellRooted y) :
    SatisfiesM (ResultIn WellRooted) (polynomialBinary parts settings command x y) := by
  have closed : Polynomial.Closed parts settings Polynomial.FactorsRooted :=
    Polynomial.closed_factorsRooted keep
  have denoted {z : Value} {p : Polynomial} (rooted : WellRooted z)
      (found : polynomial? parts settings z = some p) : Polynomial.FactorsRooted p :=
    SatisfiesM_Except_eq.mp (Polynomial.factorsRooted_ofValue keep rooted) p
      (Outcome.toOption_eq_some.mp found)
  have none : SatisfiesM (ResultIn WellRooted) (.ok none : Outcome (Option Value)) :=
    .pure resultIn_none
  unfold polynomialBinary
  split
  · exact Outcome.satisfiesM_error _
  · exact Outcome.satisfiesM_error _
  · exact Outcome.satisfiesM_error _
  · split
    · rename_i p q first second
      exact resultRooted_polynomial fun _ => closed.add (denoted left first) (denoted right second)
    · exact none
  · split
    · rename_i p q first second
      exact resultRooted_polynomial fun _ =>
        closed.subtract (denoted left first) (denoted right second)
    · exact none
  · split
    · rename_i p q first second
      exact resultRooted_polynomial fun _ =>
        closed.multiply (denoted left first) (denoted right second)
    · exact none
  · split
    · rename_i p exponent first second
      exact resultRooted_polynomial fun _ => closed.power (denoted left first)
    · exact none
  · exact none

/-- An operation that has no polynomial for a result has a well-rooted one. -/
theorem wellRooted_generalBinary (dyadic : command.isDyadic = true) (left : WellRooted x)
    (right : WellRooted y) : SatisfiesM WellRooted (generalBinary parts settings command x y) := by
  cases symbolic : x.isSymbolic || y.isSymbolic with
  | true =>
    unfold generalBinary
    rw [if_pos symbolic]
    have both := Command.operands_of_isDyadic dyadic
    exact .pure (Value.wellRooted_symbolicBinary both left right)
  | false => exact inside_generalBinary keep dyadic left right symbolic

/-- One more level of operations on two values keeps them well rooted. -/
theorem wellRooted_binaryOver (both : command.operands = 2) (left : WellRooted x)
    (right : WellRooted y) : SatisfiesM WellRooted (binaryOver parts settings command x y) := by
  have held : SatisfiesM WellRooted (pure (symbolicBinary command x y) : Outcome Value) :=
    .pure (Value.wellRooted_symbolicBinary both left right)
  by_cases equation : command = .equation
  · subst equation
    exact held
  by_cases binding : command = .whereBound
  · subst binding
    exact held
  have general : SatisfiesM WellRooted (generalBinary parts settings command x y) :=
    wellRooted_generalBinary keep (Command.isDyadic_of_operands both equation binding) left right
  have polynomials {complete : Option Value → Outcome Value}
      (found : ∀ result, complete (some result) = pure result)
      (missing : complete none = generalBinary parts settings command x y) :
      SatisfiesM WellRooted (polynomialBinary parts settings command x y >>= complete) := by
    refine (resultRooted_polynomialBinary keep left right).bind fun answer rooted => ?_
    cases answer with
    | none => exact missing ▸ general
    | some result => exact found result ▸ .pure (rooted _ rfl)
  unfold binaryOver
  split
  · exact held
  · exact held
  · exact polynomials (fun _ => rfl) rfl
  · exact polynomials (fun _ => rfl) rfl
  · exact general

/-- A function of a polynomial answers a well-rooted polynomial, if any. -/
theorem resultRooted_polynomialUnary {p : Polynomial} (rooted : Polynomial.FactorsRooted p) :
    SatisfiesM (ResultIn WellRooted) (polynomialUnary parts settings command p) := by
  have closed : Polynomial.Closed parts settings Polynomial.FactorsRooted :=
    Polynomial.closed_factorsRooted keep
  unfold polynomialUnary
  split
  · exact resultRooted_polynomial fun _ => closed.negate rooted
  · exact resultRooted_polynomial fun _ => closed.power rooted
  · exact resultRooted_polynomial fun _ => closed.power rooted
  · exact Outcome.satisfiesM_error _
  · exact .pure resultIn_none

/-- One more level of functions keeps values well rooted. -/
theorem wellRooted_unaryOver (single : command.operands = 1) (rooted : WellRooted x) :
    SatisfiesM WellRooted (unaryOver parts settings command x) := by
  cases symbolic : x.isSymbolic with
  | false => exact inside_unaryOver keep single rooted symbolic
  | true =>
    unfold unaryOver
    split
    · rename_i p
      have factors : Polynomial.FactorsRooted p := by
        cases rooted with
        | polynomial factors => exact factors
      refine (resultRooted_polynomialUnary keep factors).bind fun result among => ?_
      split
      · exact .pure (among _ rfl)
      · exact .pure (Value.wellRooted_symbolicUnary single rooted)
    · exact .pure (Value.wellRooted_symbolicUnary single rooted)
    · exact .pure (Value.wellRooted_symbolicUnary single rooted)
    · cases symbolic
    · exact inside_numberUnary keep rooted

omit keep

/-- At every level the operations keep values well rooted. -/
theorem keepRoots_upTo (level : ℕ) : (upTo settings level).KeepRoots := by
  induction level with
  | zero =>
    exact ⟨Value.domain_wellRooted, fun _ _ => Outcome.satisfiesM_error _,
      fun _ _ _ => Outcome.satisfiesM_error _⟩
  | succ level inductionHypothesis =>
    exact ⟨Value.domain_wellRooted, wellRooted_unaryOver inductionHypothesis, fun dyadic =>
      wellRooted_binaryOver inductionHypothesis (Command.operands_of_isDyadic dyadic)⟩

/-- The result of an operator on two well-rooted values is well rooted. -/
theorem wellRooted_binary (both : command.operands = 2) (left : WellRooted x)
    (right : WellRooted y) : SatisfiesM WellRooted (binary command x y settings) := by
  obtain ⟨level, same⟩ := exists_binary_eq command x y settings
  rw [same]
  exact wellRooted_binaryOver (keepRoots_upTo level) both left right

/-- The value of a function at a well-rooted value is well rooted. -/
theorem wellRooted_unary (single : command.operands = 1) (rooted : WellRooted x) :
    SatisfiesM WellRooted (unary command x settings) := by
  obtain ⟨level, same⟩ := exists_unary_eq command x settings
  rw [same]
  exact wellRooted_unaryOver (keepRoots_upTo level) single rooted

/-- The operations on values keep them well rooted. -/
theorem keepRoots_operations (settings : Preferences) : (operations settings).KeepRoots where
  toDomain := Value.domain_wellRooted
  unary single rooted := by
    dsimp only [operations]
    exact wellRooted_unary single rooted
  binary dyadic left right := by
    dsimp only [operations]
    exact wellRooted_binary (Command.operands_of_isDyadic dyadic) left right

end Arithmetic

end Calculator
