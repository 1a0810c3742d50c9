import Calculator.Expression.Binding
import Calculator.Machine.Stack
import Calculator.Polynomial.Expression
import Calculator.Solver
import Calculator.Source.Reading

/-!
# Evaluation

What happens to an object on the command line or in a program. A command runs, a name
stands for what it is bound to, and everything else goes on the stack as it is. To
evaluate an object is more: programs are run and expressions are computed.

Evaluations go on within each other, up to the depth in the settings. The functions here
take the evaluation one level deeper as an argument, `Deeper`; the last section ties them
together by recursion on the number of levels that are left.
-/

namespace Calculator.Machine

/-- Evaluation within an evaluation. -/
structure Deeper (Store Reference : Type) where
  /-- Evaluates a value. -/
  evaluate : Value → ActionOn Store Reference Unit
  /-- Looks up a name that another name stands for. -/
  name : Symbol → ActionOn Store Reference Unit

variable {Store Reference : Type}

/-- How many evaluations can go on within the present one. -/
def levelsLeft : ActionOn Store Reference Nat := do
  let machine ← get
  return machine.settings.maxRecursion.toNat - machine.nesting

/-- Leaves an evaluation. -/
def leave : ActionOn Store Reference Unit :=
  modify fun machine => { machine with nesting := machine.nesting - 1 }

/-- Performs an action as an evaluation within the present one, unless that is too deep. -/
def nested (action : ActionOn Store Reference Unit) : ActionOn Store Reference Unit := do
  if (← levelsLeft) = 0 then throw .tooMuchRecursion
  modify fun machine => { machine with nesting := machine.nesting + 1 }
  try action
  catch fault =>
    leave
    throw fault
  leave

/-- The operations of arithmetic under the settings. -/
def arithmetic : ActionOn Store Reference Operations :=
  return Arithmetic.operations (← preferences)

/-- The name that a value stands for as an argument. -/
def nameOf (value : Value) : ActionOn Store Reference Symbol :=
  match value.symbol? with
  | some name => return name
  | none => throw .badArgumentType

/-- The expression that a value is as an object of algebra. -/
def expressionOf (value : Value) : Outcome Value :=
  match value with
  | .sequence .expression _ => .ok value
  | .polynomial p => .ok (.expression (Polynomial.toExpression p))
  | .symbol _ | .real _ | .complex _ _ _ => .ok (.expression [value])
  | _ => .error .badArgumentType

variable [Storage Store Reference]

/-- The values of names, if all of them stand for numbers. -/
def numbers? (machine : Machine Store Reference) (names : List Symbol) : Option (List Value) :=
  names.mapM fun name => (machine.lookup? name).filter Value.isNumber

/-- The values of names, if all of them stand for numbers. -/
def fetchNumbers? (names : List Symbol) : ActionOn Store Reference (Option (List Value)) :=
  return (← get).numbers? names

/-- Puts the value of a polynomial on the stack. -/
def pushPolynomial (p : Polynomial) (values : List Value) : ActionOn Store Reference Unit := do
  push (← require (Polynomial.evaluateAt (← arithmetic) p values))

/-- Runs an operator or a function on the levels it takes. -/
def operate (command : Command) : ActionOn Store Reference Unit := do
  let operands ← arguments command.arity
  let settings ← preferences
  let result ← require <|
    match operands with
    | [x] => Arithmetic.unary command x settings
    | [x, y] => Arithmetic.binary command x y settings
    | _ => .error .unimplemented
  drop command.arity
  push result

/-- Puts the object of the level whose number is on top in the place of the number. -/
def pickCounted : ActionOn Store Reference Unit := do
  match (← top).toInt64? with
  | none => throw .badArgumentType
  | some level =>
    if level < 0 then throw .badArgumentValue
    else
      let level := level.toInt.toNat
      requireLevels (level + 1)
      drop 1
      pick level

/-- Stores the value on the second level under the name on top. -/
def storeNamed : ActionOn Store Reference Unit := do
  match ← arguments 2 with
  | [value, name] =>
    store (← nameOf name) value
    drop 2
  | _ => throw .tooFewArguments

/-- Puts the value of the variable whose name is on top in the place of the name. -/
def fetchNamed : ActionOn Store Reference Unit := do
  let name ← nameOf (← top)
  match ← fetch? name with
  | some value =>
    drop 1
    push value
  | none => throw (.undefinedName name.name)

/-- Turns the value on top into a polynomial. -/
def toPolynomial : ActionOn Store Reference Unit := do
  let value ← top
  let p ← require (Polynomial.ofValue (← arithmetic) (← preferences) value)
  drop 1
  push (.polynomial p)

/-- Turns the value on top into an expression. -/
def toExpression : ActionOn Store Reference Unit := do
  let result ← require (expressionOf (← top))
  drop 1
  push result

section Levels

variable (deeper : Deeper Store Reference)

/-- The single value that evaluation of a value leaves on the stack, taken off it. -/
def evaluated (value : Value) : ActionOn Store Reference Value := do
  let before ← depth
  deeper.evaluate value
  let after ← depth
  if after = before + 1 then pop
  else if before < after then
    drop (after - before)
    throw .badArgumentValue
  else throw .tooFewArguments

/-- Turns the value on top into a decimal. What is symbolic is evaluated first. -/
def toDecimal : ActionOn Store Reference Unit := do
  let value ← top
  let value ← if value.isSymbolic then evaluated deeper value else pure value
  let result ← require (Arithmetic.toDecimal (← preferences) value)
  drop 1
  push result

/-- The number that a name stands for. What it stands for is evaluated if it is not a number. -/
def variableNumber (name : Symbol) : ActionOn Store Reference Value := do
  match ← fetch? name with
  | none => throw (.undefinedName name.name)
  | some value =>
    let number ← if value.isNumber then pure value else evaluated deeper value
    if number.isNumber then return number else throw .badArgumentType

/-- The value of a polynomial, each of whose variables is looked up once, in their order. -/
def polynomialValue (p : Polynomial) : ActionOn Store Reference Value := do
  let values ← p.names.mapM (variableNumber deeper)
  require (Polynomial.evaluateAt (← arithmetic) p values)

/-- Solves the equation on the third level for the unknown on the second one, starting from
the guess on top. -/
def solveRoot : ActionOn Store Reference Unit := do
  match ← arguments 3 with
  | [equation, unknown, guess] =>
    let root ← solve (evaluated deeper) equation unknown guess
    drop 3
    push root
  | _ => throw .tooFewArguments

/-- Runs a command. -/
def perform (command : Command) : ActionOn Store Reference Unit := do
  match command with
  | .duplicate => duplicate
  | .drop => drop 1
  | .swap => swap
  | .copySecond => copySecond
  | .rotate => rotate
  | .depth => push (.ofInt (← depth))
  | .pick => pickCounted
  | .clear => clear
  | .duplicate2 => duplicate2
  | .drop2 => drop 2
  | .store => storeNamed
  | .fetch => fetchNamed
  | .purge =>
    purge (← nameOf (← top))
    drop 1
  | .createDirectory =>
    createDirectory (← nameOf (← top))
    drop 1
  | .upDirectory => upDirectory
  | .home => home
  | .evaluate =>
    let value ← top
    drop 1
    deeper.evaluate value
  | .toDecimal => toDecimal deeper
  | .toPolynomial => toPolynomial
  | .toExpression => toExpression
  | .root => solveRoot deeper
  | _ => operate command

/-- Does what a name stands for: enters a directory, evaluates a program, an expression or
a polynomial, goes on with another name, or puts a value on the stack. A name that stands
for nothing becomes an expression. -/
def resolve (name : Symbol) : ActionOn Store Reference Unit := do
  if ← enter name then return
  match ← fetch? name with
  | some (.symbol other) => deeper.name other
  | some value =>
    match value with
    | .sequence .program _ | .sequence .expression _ | .polynomial _ => deeper.evaluate value
    | _ => push value
  | none => push (.expression [.symbol name])

/-- Does with a value what its appearance in a program means. -/
def execute (value : Value) : ActionOn Store Reference Unit :=
  match value with
  | .command command => perform deeper command
  | .symbol name => resolve deeper name
  | other => push other

/-- Executes values one after the other. -/
def executeAll (items : List Value) : ActionOn Store Reference Unit := items.forM (execute deeper)

/-- An expression as a polynomial with the values of its variables, if it is one that has
variables and all of them stand for numbers. -/
def inNumbers? (items : List Value) :
    ActionOn Store Reference (Option (Polynomial × List Value)) := do
  match Polynomial.ofExpression (← arithmetic) (← preferences) items with
  | .ok p =>
    if p.names.isEmpty then return none
    else return (← fetchNumbers? p.names).map fun values => (p, values)
  | .error _ => return none

/-- Computes an expression. If it is a polynomial in variables that all stand for numbers,
it is evaluated as one; otherwise its items are executed, which must leave one value. -/
def evaluateExpression (items : List Value) : ActionOn Store Reference Unit := do
  let items ← require (Expression.expandBindings items (← preferences).caseSensitive)
  match ← inNumbers? items with
  | some (p, values) => pushPolynomial p values
  | none =>
    let before ← depth
    executeAll deeper items
    if (← depth) != before + 1 then throw (.malformed .notOneValue)

/-- Computes a polynomial, as an expression if not all its variables stand for numbers. -/
def evaluatePolynomial (p : Polynomial) : ActionOn Store Reference Unit := do
  match ← fetchNumbers? p.names with
  | some values => pushPolynomial p values
  | none => evaluateExpression deeper (Polynomial.toExpression p)

/-- Evaluates a value: runs a program, computes an expression or a polynomial, and executes
everything else. -/
def evaluateAt (value : Value) : ActionOn Store Reference Unit :=
  match value with
  | .sequence .program items => executeAll deeper items
  | .sequence .expression items => evaluateExpression deeper items
  | .polynomial p => evaluatePolynomial deeper p
  | other => execute deeper other

end Levels

mutual

/-- Evaluates a value with so many levels left. -/
def evaluateWithin : Nat → Value → ActionOn Store Reference Unit
  | 0, _ => throw .tooMuchRecursion
  | levels + 1, value =>
    nested (evaluateAt ⟨fun value => evaluateWithin levels value,
      fun name => resolveWithin levels name⟩ value)

/-- Does what a name stands for with so many levels left. -/
def resolveWithin : Nat → Symbol → ActionOn Store Reference Unit
  | 0, _ => throw .tooMuchRecursion
  | levels + 1, name =>
    nested (resolve ⟨fun value => evaluateWithin levels value,
      fun name => resolveWithin levels name⟩ name)

end

/-- Evaluation with so many levels left. -/
def within (levels : Nat) : Deeper Store Reference := ⟨evaluateWithin levels, resolveWithin levels⟩

/-- Evaluates a value. -/
def evaluate (value : Value) : ActionOn Store Reference Unit := do
  (within (← levelsLeft)).evaluate value

/-- The single value that evaluation of a value leaves, taken off the stack. -/
def evaluateValue (value : Value) : ActionOn Store Reference Value := do
  evaluated (within (← levelsLeft)) value

/-- Executes a value as if it were on the command line. -/
def executeValue (value : Value) : ActionOn Store Reference Unit := do
  execute (within (← levelsLeft)) value

/-- Runs a command as if it were on the command line. -/
def command (command : Command) : ActionOn Store Reference Unit := do
  perform (within (← levelsLeft)) command

/-- Solves an equation for an unknown, starting from a guess. -/
def findRoot (equation unknown guess : Value) : ActionOn Store Reference Value := do
  solve (evaluated (within (← levelsLeft))) equation unknown guess

/-- Reads a line and executes its values. -/
def performLine (line : String) : ActionOn Store Reference Unit := do
  let items ← require (Source.readLine line (← preferences))
  executeAll (within (← levelsLeft)) items

/-- Runs a line. If it fails, the stack is what it was before, and the reason is recorded.
Until the end of the line the objects on the stack are retained for that. -/
def run (line : String) : ActionOn Store Reference Unit := do
  let stack := (← get).stack
  let before ← marker
  stack.forM retain
  try performLine line
  catch fault =>
    release before
    setStack stack
    recordFault fault
    throw fault
  release before

end Calculator.Machine
