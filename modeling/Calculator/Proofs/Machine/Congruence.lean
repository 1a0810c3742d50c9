import Calculator.Machine.Evaluation
import Mathlib

/-!
# Relations that evaluation keeps

Evaluation is put together from a few actions: those on the stack and on the variables, answers and
faults, and actions in a row. What relates these actions to their counterparts on machines of
another kind, and is kept when they are put in a row, relates commands, expressions and programs to
theirs, as long as it does so for the evaluations within them. That is proved once, in the order in
which evaluation is put together.

The search for a root also goes on after a fault of a part of it. So it is either taken to be
related to its counterpart, or the relation has to be kept by handlers of faults as well.
-/

namespace Calculator.Machine

variable {Store Reference Other Image : Type} [Storage Store Reference] [Storage Other Image]

/-- A relation that holds of the actions that evaluation is put together from, and of actions in a
row if it holds of each. -/
structure Compositional (Related : (Item : Type) → ActionOn Store Reference Item →
    ActionOn Other Image Item → Prop) : Prop where
  pure {Item : Type} (item : Item) : Related Item (pure item) (pure item)
  throw {Item : Type} (fault : Fault) : Related Item (throw fault) (throw fault)
  bind {Item Result : Type} {action : ActionOn Store Reference Item}
    {mirror : ActionOn Other Image Item} {next : Item → ActionOn Store Reference Result}
    {nextMirror : Item → ActionOn Other Image Result} (head : Related Item action mirror)
    (tails : ∀ item, Related Result (next item) (nextMirror item)) :
    Related Result (action >>= next) (mirror >>= nextMirror)
  preferences : Related Preferences preferences preferences
  depth : Related Nat depth depth
  requireLevels (count : Nat) : Related Unit (requireLevels count) (requireLevels count)
  drop (count : Nat) : Related Unit (drop count) (drop count)
  pick (number : Nat) : Related Unit (pick number) (pick number)
  swap : Related Unit swap swap
  rotate : Related Unit rotate rotate
  clear : Related Unit clear clear
  push (value : Value) : Related Unit (push value) (push value)
  level (number : Nat) : Related Value (level number) (level number)
  pop : Related Value pop pop
  arguments (count : Nat) : Related (List Value) (arguments count) (arguments count)
  fetch? (name : Symbol) : Related (Option Value) (fetch? name) (fetch? name)
  fetchNumbers? (names : List Symbol) :
    Related (Option (List Value)) (fetchNumbers? names) (fetchNumbers? names)
  store (name : Symbol) (value : Value) : Related Unit (store name value) (store name value)
  purge (name : Symbol) : Related Unit (purge name) (purge name)
  createDirectory (name : Symbol) : Related Unit (createDirectory name) (createDirectory name)
  enter (name : Symbol) : Related Bool (enter name) (enter name)
  upDirectory : Related Unit upDirectory upDirectory
  home : Related Unit home home

/-- Such a relation that also holds of searches if it holds of the evaluation of their targets. -/
structure Congruence (Related : (Item : Type) → ActionOn Store Reference Item →
    ActionOn Other Image Item → Prop) : Prop extends Compositional Related where
  solve {evaluate : Value → ActionOn Store Reference Value}
    {evaluateMirror : Value → ActionOn Other Image Value}
    (evaluates : ∀ value, Related Value (evaluate value) (evaluateMirror value))
    (equation unknown guess : Value) :
    Related Value (solve evaluate equation unknown guess)
      (solve evaluateMirror equation unknown guess)

/-- Deeper evaluations that are related. -/
structure Deeper.Alike (Related : (Item : Type) → ActionOn Store Reference Item →
    ActionOn Other Image Item → Prop) (deeper : Deeper Store Reference)
    (mirror : Deeper Other Image) : Prop where
  evaluate (value : Value) : Related Unit (deeper.evaluate value) (mirror.evaluate value)
  name (name : Symbol) : Related Unit (deeper.name name) (mirror.name name)

variable {Related : (Item : Type) → ActionOn Store Reference Item →
  ActionOn Other Image Item → Prop} {Item Result : Type}

omit [Storage Other Image] in
/-- To take a sample and keep what went wrong is to take it and answer its outcome. -/
theorem attempt_eq (evaluate : Value → ActionOn Store Reference Value) (problem : Problem)
    (precision : Precision) (x : Decimal) :
    Solver.attempt evaluate problem precision x =
      tryCatch (Solver.sample evaluate problem precision x >>= fun y => pure (.ok y))
        fun fault => pure (.error fault) := by
  funext machine
  unfold Solver.attempt
  simp only [tryCatch, tryCatchThe, MonadExceptOf.tryCatch, EarlyReturnT.return, EarlyReturn.runK,
    bind, ExceptT.bind, ExceptT.mk, ExceptT.tryCatch, ExceptT.bindCont, StateT.bind]
  rcases Solver.sample evaluate problem precision x machine with ⟨outcome, after⟩
  cases outcome <;> rfl

namespace Compositional

variable (compositional : Compositional Related)
include compositional

/-- An outcome that does not depend on the machine is related to itself. -/
theorem require (outcome : Outcome Item) :
    Related Item (Machine.require outcome) (Machine.require outcome) := by
  cases outcome with
  | ok item => exact compositional.pure item
  | error fault => exact compositional.throw fault

/-- Actions for the items of a list are related if each one is. -/
theorem forM {act : Item → ActionOn Store Reference PUnit}
    {actMirror : Item → ActionOn Other Image PUnit}
    (each : ∀ item, Related PUnit (act item) (actMirror item)) (items : List Item) :
    Related PUnit (items.forM act) (items.forM actMirror) := by
  induction items with
  | nil => exact compositional.pure _
  | cons item items inductionHypothesis =>
    exact compositional.bind (each item) fun _ => inductionHypothesis

/-- What actions for the items of a list answer is related if each one is. -/
theorem mapM {act : Item → ActionOn Store Reference Result}
    {actMirror : Item → ActionOn Other Image Result}
    (each : ∀ item, Related Result (act item) (actMirror item)) (items : List Item) :
    Related (List Result) (items.mapM act) (items.mapM actMirror) := by
  induction items with
  | nil => exact compositional.pure _
  | cons item items inductionHypothesis =>
    rw [List.mapM_cons, List.mapM_cons]
    exact compositional.bind (each item) fun _ => compositional.bind inductionHypothesis fun _ =>
      compositional.pure _

/-- The operations of arithmetic are related. -/
theorem arithmetic : Related Operations arithmetic arithmetic :=
  compositional.bind compositional.preferences fun _ => compositional.pure _

/-- The name that a value stands for is related. -/
theorem nameOf (value : Value) : Related Symbol (nameOf value) (nameOf value) := by
  unfold Machine.nameOf
  cases value.symbol? with
  | none => exact compositional.throw _
  | some name => exact compositional.pure name

/-! ## Commands -/

/-- Pushing the value of a polynomial is related. -/
theorem pushPolynomial (p : Polynomial) (values : List Value) :
    Related Unit (pushPolynomial p values) (pushPolynomial p values) :=
  compositional.bind compositional.arithmetic fun _ =>
    compositional.bind (compositional.require _) fun _ => compositional.push _

/-- Running an operator or a function is related. -/
theorem operate (command : Command) : Related Unit (operate command) (operate command) :=
  compositional.bind (compositional.arguments _) fun _ =>
    compositional.bind compositional.preferences fun _ =>
      compositional.bind (compositional.require _) fun result =>
        compositional.bind (compositional.drop _) fun _ => compositional.push result

/-- Picking a level by its number is related. -/
theorem pickCounted : Related Unit pickCounted pickCounted := by
  refine compositional.bind (compositional.level 1) fun value => ?_
  cases value.toInt64? with
  | none => exact compositional.throw _
  | some level =>
    dsimp only
    split
    · exact compositional.throw _
    · exact compositional.bind (compositional.requireLevels _) fun _ =>
        compositional.bind (compositional.drop 1) fun _ => compositional.pick _

/-- Storing under the name on top is related. -/
theorem storeNamed : Related Unit storeNamed storeNamed := by
  refine compositional.bind (compositional.arguments 2) fun values => ?_
  split
  · exact compositional.bind (compositional.nameOf _) fun name =>
      compositional.bind (compositional.store name _) fun _ => compositional.drop 2
  · exact compositional.throw _

/-- Fetching the variable whose name is on top is related. -/
theorem fetchNamed : Related Unit fetchNamed fetchNamed := by
  refine compositional.bind (compositional.level 1) fun value => ?_
  refine compositional.bind (compositional.nameOf value) fun name => ?_
  refine compositional.bind (compositional.fetch? name) fun found => ?_
  cases found with
  | none => exact compositional.throw _
  | some value =>
    exact compositional.bind (compositional.drop 1) fun _ => compositional.push value

/-- Turning the value on top into a polynomial is related. -/
theorem toPolynomial : Related Unit toPolynomial toPolynomial :=
  compositional.bind (compositional.level 1) fun _ =>
    compositional.bind compositional.arithmetic fun _ =>
      compositional.bind compositional.preferences fun _ =>
        compositional.bind (compositional.require _) fun _ =>
          compositional.bind (compositional.drop 1) fun _ => compositional.push _

/-- Turning the value on top into an expression is related. -/
theorem toExpression : Related Unit toExpression toExpression :=
  compositional.bind (compositional.level 1) fun _ =>
    compositional.bind (compositional.require _) fun _ =>
      compositional.bind (compositional.drop 1) fun _ => compositional.push _

/-- Whether an expression is a polynomial in numbers is related. -/
theorem inNumbers? (items : List Value) :
    Related (Option (Polynomial × List Value)) (inNumbers? items) (inNumbers? items) := by
  refine compositional.bind compositional.arithmetic fun operations => ?_
  refine compositional.bind compositional.preferences fun settings => ?_
  split
  · split
    · exact compositional.pure _
    · exact compositional.bind (compositional.fetchNumbers? _) fun _ => compositional.pure _
  · exact compositional.pure _

/-! ## Searches -/

section Search

variable (problem : Problem) (precision : Precision)

/-- Leaving the unknown at a point is related. -/
theorem finish (x : Decimal) :
    Related Value (Solver.finish problem precision x) (Solver.finish problem precision x) :=
  compositional.bind (compositional.store _ _) fun _ => compositional.pure _

/-- Ending the search without a root is related. -/
theorem fail (best : Option Sample) (fault : Fault) :
    Related Value (Solver.fail problem precision best fault)
      (Solver.fail problem precision best fault) := by
  cases best with
  | none => exact compositional.throw fault
  | some best =>
    unfold Solver.fail
    simp only [discard, Functor.discard, map_const, Function.comp_apply, map_eq_pure_bind,
      bind_assoc]
    exact compositional.bind (compositional.finish problem precision best.x) fun _ =>
      compositional.bind (compositional.pure _) fun _ => compositional.throw fault

variable {evaluate : Value → ActionOn Store Reference Value}
variable {evaluateMirror : Value → ActionOn Other Image Value}

/-- A search under way is related, if so is every attempt at a sample. -/
theorem searchFrom (interrupted : Related Bool interrupted interrupted)
    (attempts : ∀ x, Related (Outcome Decimal) (Solver.attempt evaluate problem precision x)
      (Solver.attempt evaluateMirror problem precision x))
    (remaining : Nat) (search : Search) (iteration : Nat) :
    Related Value (Solver.searchFrom evaluate problem precision search iteration remaining)
      (Solver.searchFrom evaluateMirror problem precision search iteration remaining) := by
  induction remaining generalizing search iteration with
  | zero => exact compositional.fail problem precision search.best .noSolution
  | succ remaining inductionHypothesis =>
    unfold Solver.searchFrom
    refine compositional.bind interrupted fun stop => ?_
    split
    · exact compositional.fail problem precision search.best .interrupted
    · refine compositional.bind (attempts search.point) fun outcome => ?_
      cases outcome with
      | error fault =>
        dsimp only
        cases search.skip? iteration with
        | none => exact compositional.fail problem precision search.best fault
        | some search => exact inductionHypothesis search (iteration + 1)
      | ok y =>
        dsimp only
        cases search.observe iteration y with
        | next search => exact inductionHypothesis search (iteration + 1)
        | root x => exact compositional.finish problem precision x
        | hopeless fault best => exact compositional.fail problem precision best fault

variable (evaluates : ∀ value, Related Value (evaluate value) (evaluateMirror value))
include evaluates

/-- Taking a sample is related. -/
theorem sample (x : Decimal) :
    Related Decimal (Solver.sample evaluate problem precision x)
      (Solver.sample evaluateMirror problem precision x) := by
  refine compositional.bind (compositional.store _ _) fun _ =>
    compositional.bind (evaluates _) fun result => ?_
  dsimp only
  split
  · exact compositional.pure _
  · exact compositional.throw _

variable (handled : ∀ {Item : Type} {action : ActionOn Store Reference Item}
  {mirror : ActionOn Other Image Item} {handler : Fault → ActionOn Store Reference Item}
  {handlerMirror : Fault → ActionOn Other Image Item}, Related Item action mirror →
    (∀ fault, Related Item (handler fault) (handlerMirror fault)) →
      Related Item (tryCatch action handler) (tryCatch mirror handlerMirror))
include handled

/-- Attempting a sample is related. -/
theorem attempt (x : Decimal) :
    Related (Outcome Decimal) (Solver.attempt evaluate problem precision x)
      (Solver.attempt evaluateMirror problem precision x) := by
  rw [attempt_eq, attempt_eq]
  refine handled ?_ fun fault => compositional.pure _
  exact compositional.bind (compositional.sample problem precision evaluates x) fun y =>
    compositional.pure _

omit problem precision in
/-- A search is related. -/
theorem solve (interrupted : Related Bool interrupted interrupted)
    (equation unknown guess : Value) :
    Related Value (Calculator.solve evaluate equation unknown guess)
      (Calculator.solve evaluateMirror equation unknown guess) :=
  compositional.bind (compositional.require _) fun problem =>
    compositional.bind compositional.preferences fun settings =>
      compositional.searchFrom problem settings.precision interrupted
        (compositional.attempt problem settings.precision evaluates handled) _ _ 0

end Search

end Compositional

/-! ## One level of evaluation -/

namespace Congruence

variable (congruence : Congruence Related)
variable {deeper : Deeper Store Reference} {mirror : Deeper Other Image}
variable (alike : deeper.Alike Related mirror)
include congruence alike

/-- The single value that an evaluation leaves is related. -/
theorem evaluated (value : Value) :
    Related Value (evaluated deeper value) (evaluated mirror value) := by
  refine congruence.bind congruence.depth fun before => ?_
  refine congruence.bind (alike.evaluate value) fun _ => ?_
  refine congruence.bind congruence.depth fun after => ?_
  split
  · exact congruence.pop
  · split
    · exact congruence.bind (congruence.drop _) fun _ => congruence.throw _
    · exact congruence.throw _

/-- Turning the value on top into a decimal is related. -/
theorem toDecimal : Related Unit (toDecimal deeper) (toDecimal mirror) := by
  have convert (value : Value) : Related Unit
      (do
        let result ← require (Arithmetic.toDecimal (← preferences) value)
        drop 1
        push result)
      (do
        let result ← require (Arithmetic.toDecimal (← preferences) value)
        drop 1
        push result) :=
    congruence.bind congruence.preferences fun _ =>
      congruence.bind (congruence.require _) fun result =>
        congruence.bind (congruence.drop 1) fun _ => congruence.push result
  refine congruence.bind (congruence.level 1) fun value => ?_
  dsimp only
  split
  · exact congruence.bind (congruence.evaluated alike value) convert
  · exact congruence.bind (congruence.pure value) convert

/-- The number that a name stands for is related. -/
theorem variableNumber (name : Symbol) :
    Related Value (variableNumber deeper name) (variableNumber mirror name) := by
  have number (value : Value) : Related Value
      (if value.isNumber then pure value else throw .badArgumentType)
      (if value.isNumber then pure value else throw .badArgumentType) := by
    split
    · exact congruence.pure value
    · exact congruence.throw _
  refine congruence.bind (congruence.fetch? name) fun found => ?_
  cases found with
  | none => exact congruence.throw _
  | some value =>
    dsimp only
    split
    · exact congruence.bind (congruence.pure value) number
    · exact congruence.bind (congruence.evaluated alike value) number

/-- The value of a polynomial is related. -/
theorem polynomialValue (p : Polynomial) :
    Related Value (polynomialValue deeper p) (polynomialValue mirror p) :=
  congruence.bind (congruence.mapM (congruence.variableNumber alike) p.names) fun _ =>
    congruence.bind congruence.arithmetic fun _ => congruence.require _

/-- Solving an equation on the stack is related. -/
theorem solveRoot : Related Unit (solveRoot deeper) (solveRoot mirror) := by
  refine congruence.bind (congruence.arguments 3) fun values => ?_
  split
  · refine congruence.bind (congruence.solve (congruence.evaluated alike) _ _ _) fun root => ?_
    exact congruence.bind (congruence.drop 3) fun _ => congruence.push root
  · exact congruence.throw _

/-- Running a command is related. -/
theorem perform (command : Command) :
    Related Unit (perform deeper command) (perform mirror command) := by
  cases command with
  | duplicate => exact congruence.pick 1
  | drop => exact congruence.drop 1
  | swap => exact congruence.swap
  | copySecond => exact congruence.pick 2
  | rotate => exact congruence.rotate
  | depth => exact congruence.bind congruence.depth fun _ => congruence.push _
  | pick => exact congruence.pickCounted
  | clear => exact congruence.clear
  | duplicate2 =>
    exact congruence.bind (congruence.requireLevels 2) fun _ =>
      congruence.bind (congruence.pick 2) fun _ => congruence.pick 2
  | drop2 => exact congruence.drop 2
  | store => exact congruence.storeNamed
  | fetch => exact congruence.fetchNamed
  | purge =>
    refine congruence.bind (congruence.level 1) fun value => ?_
    refine congruence.bind (congruence.nameOf value) fun name => ?_
    exact congruence.bind (congruence.purge name) fun _ => congruence.drop 1
  | createDirectory =>
    refine congruence.bind (congruence.level 1) fun value => ?_
    refine congruence.bind (congruence.nameOf value) fun name => ?_
    exact congruence.bind (congruence.createDirectory name) fun _ => congruence.drop 1
  | upDirectory => exact congruence.upDirectory
  | home => exact congruence.home
  | evaluate =>
    refine congruence.bind (congruence.level 1) fun value => ?_
    exact congruence.bind (congruence.drop 1) fun _ => alike.evaluate value
  | toDecimal => exact congruence.toDecimal alike
  | toPolynomial => exact congruence.toPolynomial
  | toExpression => exact congruence.toExpression
  | root => exact congruence.solveRoot alike
  | _ => exact congruence.operate _

/-- Doing what a name stands for is related. -/
theorem resolve (name : Symbol) : Related Unit (resolve deeper name) (resolve mirror name) := by
  refine congruence.bind (congruence.enter name) fun entered => ?_
  split
  · exact congruence.pure _
  · refine congruence.bind (congruence.fetch? name) fun found => ?_
    split
    · exact alike.name _
    · split
      · exact alike.evaluate _
      · exact alike.evaluate _
      · exact alike.evaluate _
      · exact congruence.push _
    · exact congruence.push _

/-- Executing a value is related. -/
theorem execute (value : Value) : Related Unit (execute deeper value) (execute mirror value) := by
  unfold Machine.execute
  split
  · exact congruence.perform alike _
  · exact congruence.resolve alike _
  · exact congruence.push _

/-- Executing some values is related. -/
theorem executeAll (items : List Value) :
    Related Unit (executeAll deeper items) (executeAll mirror items) :=
  congruence.forM (congruence.execute alike) items

/-- Computing an expression is related. -/
theorem evaluateExpression (items : List Value) :
    Related Unit (evaluateExpression deeper items) (evaluateExpression mirror items) := by
  refine congruence.bind congruence.preferences fun settings => ?_
  refine congruence.bind (congruence.require _) fun items => ?_
  refine congruence.bind (congruence.inNumbers? items) fun numbers => ?_
  split
  · exact congruence.pushPolynomial _ _
  · refine congruence.bind congruence.depth fun before => ?_
    refine congruence.bind (congruence.executeAll alike items) fun _ => ?_
    refine congruence.bind congruence.depth fun after => ?_
    split
    · exact congruence.throw _
    · exact congruence.pure _

/-- Computing a polynomial is related. -/
theorem evaluatePolynomial (p : Polynomial) :
    Related Unit (evaluatePolynomial deeper p) (evaluatePolynomial mirror p) := by
  refine congruence.bind (congruence.fetchNumbers? p.names) fun numbers => ?_
  cases numbers with
  | some values => exact congruence.pushPolynomial p values
  | none => exact congruence.evaluateExpression alike _

/-- Evaluating a value is related if deeper evaluations are. -/
theorem evaluateAt (value : Value) :
    Related Unit (evaluateAt deeper value) (evaluateAt mirror value) := by
  unfold Machine.evaluateAt
  split
  · exact congruence.executeAll alike _
  · exact congruence.evaluateExpression alike _
  · exact congruence.evaluatePolynomial alike _
  · exact congruence.execute alike _

end Congruence

end Calculator.Machine
