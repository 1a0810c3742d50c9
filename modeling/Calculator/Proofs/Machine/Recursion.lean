import Calculator.Proofs.Machine.Storage
import Calculator.Proofs.Machine.Tally
import Mathlib

/-!
# The recursion of evaluation

An evaluation runs programs, looks names up, computes polynomials and searches for roots, and all of
these may evaluate in turn. What bounds this recursion is the nesting alone: programs may overwrite
the variables that are evaluated, variables may refer to each other in a circle, and the target of a
search may hold another search.

Here the recursion is unrolled as it is written, without a count of the levels that are left, and
with anything at all behind the last evaluation that was unrolled. As soon as it is unrolled further
than there are levels, this makes no difference: the computation has ended before. The evaluations
that go on at the same time are no more than the levels, and afterwards the nesting is what it was.
-/

namespace Calculator

namespace Machine

variable {Store Reference Result : Type}

section Unrolling

variable [Storage Store Reference]

/-- Evaluation with others within it, each of which is counted. -/
def around (deeper : Deeper (Tallied Store) Reference) : Deeper (Tallied Store) Reference where
  evaluate value := nested (counted (evaluateAt deeper value))
  name name := nested (counted (resolve deeper name))

/-- The recursion of evaluation, unrolled to some depth. What is beyond that is left open. -/
def unrolled (beyond : Deeper (Tallied Store) Reference) : ℕ → Deeper (Tallied Store) Reference
  | 0 => beyond
  | depth + 1 => around (unrolled beyond depth)

end Unrolling

/-! ## Computations -/

/-- What a machine may be asked to compute, and what it answers. -/
inductive Computation : Type → Type
  | execute (value : Value) : Computation Unit
  | evaluate (value : Value) : Computation Unit
  | evaluateValue (value : Value) : Computation Value
  | command (command : Command) : Computation Unit
  | polynomial (p : Polynomial) : Computation Value
  | solve (equation unknown guess : Value) : Computation Value
  | run (line : String) : Computation Unit

namespace Computation

variable [Storage Store Reference]

/-- A computation by the machine. -/
def perform : Computation Result → ActionOn Store Reference Result
  | .execute value => executeValue value
  | .evaluate value => Machine.evaluate value
  | .evaluateValue value => Machine.evaluateValue value
  | .command given => Machine.command given
  | .polynomial p => do polynomialValue (within (← levelsLeft)) p
  | .solve equation unknown guess => findRoot equation unknown guess
  | .run line => Machine.run line

/-- A computation, given the evaluations within it. -/
def performWith (deeper : Deeper Store Reference) :
    Computation Result → ActionOn Store Reference Result
  | .execute value => Machine.execute deeper value
  | .evaluate value => deeper.evaluate value
  | .evaluateValue value => evaluated deeper value
  | .command given => Machine.perform deeper given
  | .polynomial p => polynomialValue deeper p
  | .solve equation unknown guess => Calculator.solve (evaluated deeper) equation unknown guess
  | .run line => recovering do
    let items ← require (Source.readLine line (← preferences))
    executeAll deeper items

/-- The machine computes with the levels that are left. -/
theorem enact_perform (computation : Computation Result) (machine : Machine Store Reference) :
    enact computation.perform machine = enact (computation.performWith
      (within (machine.settings.maxRecursion.toNat - machine.nesting))) machine := by
  have left (machine : Machine Store Reference) : enact levelsLeft machine =
    (.ok (machine.settings.maxRecursion.toNat - machine.nesting), machine) := rfl
  cases computation with
  | run line =>
    have performed : enact (performLine line)
        { machine with retained := machine.stack.reverse ++ machine.retained } =
          enact (do
            let items ← require (Source.readLine line (← preferences))
            executeAll (within (machine.settings.maxRecursion.toNat - machine.nesting)) items)
            { machine with retained := machine.stack.reverse ++ machine.retained } := by
      unfold performLine
      rw [enact_preferences_bind, enact_preferences_bind]
      cases Source.readLine line machine.settings.toPreferences with
      | error fault => rfl
      | ok items =>
        have read (machine : Machine Store Reference) :
            enact (require (.ok items)) machine = (.ok items, machine) := rfl
        rw [enact_bind_ok (read _), enact_bind_ok (read _), enact_bind_ok (left _)]
    rw [perform, performWith, Link.enact_run, Link.enact_recovering, performed]
  | execute value => exact enact_bind_ok (left machine) _
  | evaluate value => exact enact_bind_ok (left machine) _
  | evaluateValue value => exact enact_bind_ok (left machine) _
  | command given => exact enact_bind_ok (left machine) _
  | polynomial p => exact enact_bind_ok (left machine) _
  | solve equation unknown guess => exact enact_bind_ok (left machine) _

end Computation

/-! ## What the unrolled recursion does -/

section Mirrored

variable [Storage Store Reference] {levels : ℕ}

/-- To mirror an action is a relation that evaluation keeps. -/
theorem compositional_mirrors (levels : ℕ) :
    Compositional fun _ (action : ActionOn (Tallied Store) Reference _)
      (mirror : ActionOn Store Reference _) => Mirrors levels action mirror :=
  have same : Compositional fun _ (action : ActionOn (Tallied Store) Reference _)
      (mirror : ActionOn Store Reference _) =>
        (Tallied.untallied Store Reference).Simulates action mirror :=
    Link.compositional Tallied.lawful_untallied
  have evolving : Compositional fun _ (action : ActionOn (Tallied Store) Reference _)
      (_ : ActionOn (Tallied Store) Reference _) => Evolving action := compositional_evolving
  have evolvingMirror : Compositional fun _ (action : ActionOn Store Reference _)
      (_ : ActionOn Store Reference _) => Evolving action := compositional_evolving
  { pure item :=
      mirrors_of_simulates (same.pure item) (evolving.pure item) (evolvingMirror.pure item)
    throw fault :=
      mirrors_of_simulates (same.throw fault) (evolving.throw fault) (evolvingMirror.throw fault)
    bind := Mirrors.bind
    preferences :=
      mirrors_of_simulates same.preferences evolving.preferences evolvingMirror.preferences
    depth := mirrors_of_simulates same.depth evolving.depth evolvingMirror.depth
    requireLevels count := mirrors_of_simulates (same.requireLevels count)
      (evolving.requireLevels count) (evolvingMirror.requireLevels count)
    drop count :=
      mirrors_of_simulates (same.drop count) (evolving.drop count) (evolvingMirror.drop count)
    pick number :=
      mirrors_of_simulates (same.pick number) (evolving.pick number) (evolvingMirror.pick number)
    swap := mirrors_of_simulates same.swap evolving.swap evolvingMirror.swap
    rotate := mirrors_of_simulates same.rotate evolving.rotate evolvingMirror.rotate
    clear := mirrors_of_simulates same.clear evolving.clear evolvingMirror.clear
    push value :=
      mirrors_of_simulates (same.push value) (evolving.push value) (evolvingMirror.push value)
    level number :=
      mirrors_of_simulates (same.level number) (evolving.level number) (evolvingMirror.level number)
    pop := mirrors_of_simulates same.pop evolving.pop evolvingMirror.pop
    arguments count := mirrors_of_simulates (same.arguments count) (evolving.arguments count)
      (evolvingMirror.arguments count)
    fetch? name :=
      mirrors_of_simulates (same.fetch? name) (evolving.fetch? name) (evolvingMirror.fetch? name)
    fetchNumbers? names := mirrors_of_simulates (same.fetchNumbers? names)
      (evolving.fetchNumbers? names) (evolvingMirror.fetchNumbers? names)
    store name value := mirrors_of_simulates (same.store name value) (evolving.store name value)
      (evolvingMirror.store name value)
    purge name :=
      mirrors_of_simulates (same.purge name) (evolving.purge name) (evolvingMirror.purge name)
    createDirectory name := mirrors_of_simulates (same.createDirectory name)
      (evolving.createDirectory name) (evolvingMirror.createDirectory name)
    enter name :=
      mirrors_of_simulates (same.enter name) (evolving.enter name) (evolvingMirror.enter name)
    upDirectory :=
      mirrors_of_simulates same.upDirectory evolving.upDirectory evolvingMirror.upDirectory
    home := mirrors_of_simulates same.home evolving.home evolvingMirror.home }

/-- To mirror an action is a relation that evaluation keeps, searches included. -/
theorem congruence_mirrors (levels : ℕ) :
    Congruence fun _ (action : ActionOn (Tallied Store) Reference _)
      (mirror : ActionOn Store Reference _) => Mirrors levels action mirror where
  toCompositional := compositional_mirrors levels
  solve evaluates := (compositional_mirrors levels).solve evaluates Mirrors.tryCatch
    (mirrors_of_simulates Link.simulates_interrupted evolving_interrupted evolving_interrupted)

omit [Storage Store Reference] in
/-- To put the stack back after a fault is mirrored. -/
theorem Mirrors.recovering {action : ActionOn (Tallied Store) Reference Unit}
    {mirror : ActionOn Store Reference Unit} (body : Mirrors levels action mirror) :
    Mirrors levels (recovering action) (recovering mirror) := by
  intro machine left
  obtain ⟨outcome, after, answer, answerMirror, keeps⟩ := body
    { machine with retained := machine.stack.reverse ++ machine.retained } left
  have performed : enact mirror { machine.untallied with
      retained := machine.untallied.stack.reverse ++ machine.untallied.retained } =
        (outcome, after.untallied) := answerMirror
  let released := after.retained.drop (after.retained.length - machine.retained.length)
  cases outcome with
  | ok _ =>
    refine ⟨.ok (), { after with retained := released }, ?_, ?_, ?_⟩
    · rw [Link.enact_recovering, answer]
    · rw [Link.enact_recovering, performed]
      rfl
    · exact ⟨keeps.settings, keeps.nesting, keeps.active, keeps.peak⟩
  | error fault =>
    refine ⟨.error fault, { after with
      stack := machine.stack
      retained := released
      lastFault := some fault }, ?_, ?_, ?_⟩
    · rw [Link.enact_recovering, answer]
    · rw [Link.enact_recovering, performed]
      rfl
    · exact ⟨keeps.settings, keeps.nesting, keeps.active, keeps.peak⟩

/-- A recursion that is unrolled further than there are levels left mirrors evaluation with these
levels. -/
theorem alike_unrolled (beyond : Deeper (Tallied Store) Reference) {levels depth : ℕ}
    (further : levels < depth) :
    (unrolled beyond depth).Alike (fun _ (action : ActionOn (Tallied Store) Reference _)
      (mirror : ActionOn Store Reference _) => Mirrors levels action mirror) (within levels) := by
  induction levels generalizing depth with
  | zero =>
    obtain ⟨depth, rfl⟩ := Nat.exists_eq_add_one.mpr further
    exact ⟨fun _ => mirrors_nested_zero, fun _ => mirrors_nested_zero⟩
  | succ levels inductionHypothesis =>
    obtain ⟨depth, rfl⟩ := Nat.exists_eq_add_one.mpr (Nat.zero_lt_of_lt further)
    have alike := inductionHypothesis (Nat.lt_of_succ_lt_succ further)
    constructor
    · intro value
      exact ((congruence_mirrors levels).evaluateAt alike value).nested
    · intro name
      exact ((congruence_mirrors levels).resolve alike name).nested

/-- Computations mirror each other if the evaluations within them do. -/
theorem mirrors_performWith {deeper : Deeper (Tallied Store) Reference}
    {mirror : Deeper Store Reference}
    (alike : deeper.Alike (fun _ (action : ActionOn (Tallied Store) Reference _)
      (mirror : ActionOn Store Reference _) => Mirrors levels action mirror) mirror)
    (computation : Computation Result) :
    Mirrors levels (computation.performWith deeper) (computation.performWith mirror) := by
  have congruence : Congruence fun _ (action : ActionOn (Tallied Store) Reference _)
      (mirror : ActionOn Store Reference _) => Mirrors levels action mirror :=
    congruence_mirrors levels
  cases computation with
  | execute value => exact congruence.execute alike value
  | evaluate value => exact alike.evaluate value
  | evaluateValue value => exact congruence.evaluated alike value
  | command given => exact congruence.perform alike given
  | polynomial p => exact congruence.polynomialValue alike p
  | solve equation unknown guess =>
    exact congruence.solve (congruence.evaluated alike) equation unknown guess
  | run line =>
    refine Mirrors.recovering (congruence.bind congruence.preferences fun settings => ?_)
    exact congruence.bind (congruence.require _) fun items => congruence.executeAll alike items

end Mirrored

/-! ## The end of a computation -/

/-- Whatever a machine is asked to compute, the recursion ends, whether it succeeds or fails. It
need not be unrolled further than there are levels left, for whatever is beyond is never reached. On
the way no more evaluations go on at the same time than there are levels left, at the end none does,
and the nesting is what it was. -/
theorem recursion_ends [Storage Store Reference] (computation : Computation Result)
    (machine : Machine Store Reference) (beyond : Deeper (Tallied Store) Reference) (spare : ℕ) :
    let levels := machine.settings.maxRecursion.toNat - machine.nesting
    let done := enact computation.perform machine
    let unrolling :=
      enact (computation.performWith (unrolled beyond (levels + 1 + spare))) machine.tallied
    unrolling.1 = done.1 ∧ unrolling.2.untallied = done.2 ∧
      unrolling.2.storage.active = 0 ∧ unrolling.2.storage.peak ≤ levels ∧
      done.2.nesting = machine.nesting := by
  intro levels done unrolling
  have alike := alike_unrolled beyond (show levels < levels + 1 + spare by omega)
  obtain ⟨outcome, after, answer, answerMirror, keeps⟩ :=
    mirrors_performWith alike computation machine.tallied rfl
  have performed : done = (outcome, after.untallied) :=
    (computation.enact_perform machine).trans answerMirror
  have unrolled : unrolling = (outcome, after) := answer
  rw [performed, unrolled]
  refine ⟨rfl, rfl, keeps.active, ?_, keeps.nesting⟩
  exact keeps.peak.trans (by simp [tallied])

/-- A program that runs itself is stopped. -/
example :
    let program := Value.sequence .program [.symbol ⟨"A"⟩]
    let machine : Machine Unit (Outcome Value) :=
      { startOn () { maxRecursion := 3 } with tree := [(⟨"A"⟩, .value (.ok program))] }
    (enact (evaluate (.symbol ⟨"A"⟩)) machine).1 = .error .tooMuchRecursion := by
  cbv

end Machine

end Calculator
