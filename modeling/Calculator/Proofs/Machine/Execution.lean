import Calculator.Proofs.Machine.Evaluation
import Calculator.Proofs.Machine.Evolution
import Mathlib

/-!
# What a line does to a machine

Searches, commands, evaluations and whole lines evolve the machine. The order is that in which
evaluation is put together, and the induction is on the number of levels that are left: a level
evolves the machine if the deeper one does. An evaluation within another one makes a pair, for
its level is left whether its action fails or not.
-/

namespace Calculator

namespace Machine

variable {Store Reference : Type} [Storage Store Reference]

/-! ## Searches -/

/-- To ask whether to stop answers the request. -/
theorem evolving_interrupted : Evolving (interrupted : ActionOn Store Reference Bool) :=
  fun _ => Change.answered.evolves

/-- The values of names change nothing. -/
theorem evolving_fetchNumbers? (names : List Symbol) :
    Evolving (fetchNumbers? names : ActionOn Store Reference (Option (List Value))) :=
  evolving_read _

/-- To evolve machines is a property that evaluation keeps. -/
theorem compositional_evolving : Compositional fun _ (action : ActionOn Store Reference _)
    (_ : ActionOn Store Reference _) => Evolving action where
  pure := evolving_pure
  throw := evolving_throw
  bind := Evolving.bind
  preferences := evolving_preferences
  depth := evolving_depth
  requireLevels := evolving_requireLevels
  drop := evolving_drop
  pick := evolving_pick
  swap := evolving_swap
  rotate := evolving_rotate
  clear := evolving_clear
  push := evolving_push
  level := evolving_level
  pop := evolving_pop
  arguments := evolving_arguments
  fetch? := evolving_fetch?
  fetchNumbers? := evolving_fetchNumbers?
  store := evolving_store
  purge := evolving_purge
  createDirectory := evolving_createDirectory
  enter := evolving_enter
  upDirectory := evolving_upDirectory
  home := evolving_home

/-- A search evolves the machine. -/
theorem evolving_solve {evaluate : Value → ActionOn Store Reference Value}
    (evaluates : ∀ value, Evolving (evaluate value)) (equation unknown guess : Value) :
    Evolving (solve evaluate equation unknown guess) :=
  @Compositional.solve _ _ _ _ _ _ _ compositional_evolving evaluate evaluate evaluates
    Evolving.tryCatch evolving_interrupted equation unknown guess

/-- To evolve machines is a property that evaluation keeps, searches included. -/
theorem congruence_evolving : Congruence fun _ (action : ActionOn Store Reference _)
    (_ : ActionOn Store Reference _) => Evolving action where
  toCompositional := compositional_evolving
  solve evaluates := evolving_solve evaluates

/-! ## Evaluations within evaluations -/

/-- Deeper evaluations that evolve the machine. -/
structure Deeper.Evolves (deeper : Deeper Store Reference) : Prop where
  evaluate (value : Value) : Evolving (deeper.evaluate value)
  name (name : Symbol) : Evolving (deeper.name name)

/-- The number of levels that are left changes nothing. -/
theorem evolving_levelsLeft : Evolving (levelsLeft : ActionOn Store Reference Nat) :=
  evolving_read _

omit [Storage Store Reference] in
/-- An evaluation within another one raises the nesting before its action and lowers it after it,
unless it is too deep. -/
theorem enact_nested (action : ActionOn Store Reference Unit) (machine : Machine Store Reference) :
    enact (nested action) machine =
      if machine.settings.maxRecursion.toNat - machine.nesting = 0 then
        (.error .tooMuchRecursion, machine)
      else
        let (outcome, inner) := enact action { machine with nesting := machine.nesting + 1 }
        (outcome, { inner with nesting := inner.nesting - 1 }) := by
  unfold nested
  rw [enact_bind_ok (rfl : enact levelsLeft machine =
    (.ok (machine.settings.maxRecursion.toNat - machine.nesting), machine))]
  split
  · rfl
  · rw [enact_bind_ok (rfl : enact (modify fun machine => { machine with
      nesting := machine.nesting + 1 }) machine =
        (.ok ⟨⟩, { machine with nesting := machine.nesting + 1 }))]
    rcases answer : enact action { machine with nesting := machine.nesting + 1 } with
      ⟨outcome, inner⟩
    cases outcome with
    | ok _ =>
      rw [enact_bind_ok (enact_tryCatch_ok answer _)]
      rfl
    | error fault => rw [enact_bind_error ((enact_tryCatch_error answer _).trans rfl)]

/-- An evaluation within another one evolves the machine if its action does. -/
theorem Evolving.nested {action : ActionOn Store Reference Unit} (body : Evolving action) :
    Evolving (nested action) := by
  intro machine
  rw [enact_nested]
  split
  · exact .unchanged
  · rename_i left
    exact .nested (by omega) (body _) .unchanged

/-! ## One level of evaluation -/

section Levels

variable {deeper : Deeper Store Reference} (evolves : deeper.Evolves)
include evolves

/-- Deeper evaluations that evolve the machine may be the ones within an evaluation. -/
theorem Deeper.Evolves.alike : deeper.Alike (fun _ (action : ActionOn Store Reference _)
    (_ : ActionOn Store Reference _) => Evolving action) deeper :=
  ⟨evolves.evaluate, evolves.name⟩

/-- To compute an expression evolves the machine. -/
theorem evolving_evaluateExpression (items : List Value) :
    Evolving (evaluateExpression deeper items) :=
  congruence_evolving.evaluateExpression evolves.alike items

/-- To execute some values evolves the machine. -/
theorem evolving_executeAll (items : List Value) : Evolving (executeAll deeper items) :=
  congruence_evolving.executeAll evolves.alike items

end Levels

/-! ## All levels -/

/-- Evaluation evolves the machine with any number of levels left. -/
theorem evolves_within (levels : Nat) : (within levels : Deeper Store Reference).Evolves := by
  induction levels with
  | zero => exact ⟨fun _ => evolving_throw _, fun _ => evolving_throw _⟩
  | succ levels inductionHypothesis =>
    constructor
    · intro value
      exact Evolving.nested (congruence_evolving.evaluateAt inductionHypothesis.alike value)
    · intro name
      exact Evolving.nested (congruence_evolving.resolve inductionHypothesis.alike name)

/-- To evaluate a value evolves the machine. -/
theorem evolving_evaluate (value : Value) :
    Evolving (evaluate value : ActionOn Store Reference Unit) :=
  evolving_levelsLeft.bind fun levels => (evolves_within levels).evaluate value

/-- To take the single value that an evaluation leaves evolves the machine. -/
theorem evolving_evaluateValue (value : Value) :
    Evolving (evaluateValue value : ActionOn Store Reference Value) :=
  evolving_levelsLeft.bind fun levels =>
    congruence_evolving.evaluated (evolves_within levels).alike value

/-- To execute a value as on the command line evolves the machine. -/
theorem evolving_executeValue (value : Value) :
    Evolving (executeValue value : ActionOn Store Reference Unit) :=
  evolving_levelsLeft.bind fun levels =>
    congruence_evolving.execute (evolves_within levels).alike value

/-- To run a command as on the command line evolves the machine. -/
theorem evolving_command (command : Command) :
    Evolving (Machine.command command : ActionOn Store Reference Unit) :=
  evolving_levelsLeft.bind fun levels =>
    congruence_evolving.perform (evolves_within levels).alike command

/-- To solve an equation evolves the machine. -/
theorem evolving_findRoot (equation unknown guess : Value) :
    Evolving (findRoot equation unknown guess : ActionOn Store Reference Value) :=
  evolving_levelsLeft.bind fun levels =>
    evolving_solve (congruence_evolving.evaluated (evolves_within levels).alike) equation unknown
      guess

/-- To execute the values of a line evolves the machine. -/
theorem evolving_performLine (line : String) :
    Evolving (performLine line : ActionOn Store Reference Unit) :=
  evolving_preferences.bind fun _ => (evolving_require _).bind fun items =>
    evolving_levelsLeft.bind fun levels => evolving_executeAll (evolves_within levels) items

end Machine

end Calculator
