import Calculator.Machine.Variables
import Calculator.Solver.Search

/-!
# The solver

Finds a number that makes an expression zero or an equation true. The unknown is a
variable: for every sample it is set to the point, and the expression is evaluated. When
the solver ends, the variable holds the root, or else the point that came closest.

Points carry one tier more than the result, so that also steep functions come close enough
to zero. How an expression is evaluated is left to the caller.
-/

namespace Calculator

/-- A problem for the solver. -/
structure Problem where
  /-- What is to become zero: an expression, a name, a polynomial or a program. -/
  target : Value
  /-- The unknown. -/
  unknown : Symbol
  /-- The unit of the unknown, in postfix order. -/
  unit : Option (List Value)
  low : Decimal
  high : Decimal

namespace Problem

/-- The function whose root is sought. An equation is the difference of its sides. -/
def targetOf (equation : Value) : Outcome Value :=
  match equation with
  | .sequence .expression items =>
    if items.getLast? == some (.command .equation) then
      .ok (.expression (items.dropLast ++ [.command .subtract]))
    else .ok equation
  | .symbol _ | .polynomial _ | .sequence .program _ => .ok equation
  | _ => .error .invalidFunction

/-- The name and the unit of an unknown. -/
def unknownOf (unknown : Value) : Outcome (Symbol × Option (List Value)) :=
  let (name, unit) := match unknown with
    | .unit value items => (value.symbol?, some items)
    | other => (other.symbol?, none)
  match name with
  | some name => .ok (name, unit)
  | none => .error .badArgumentType

/-- The number and the unit of a guess. -/
def guessOf (guess : Value) : Outcome (Decimal × Option (List Value)) :=
  let (value, unit) := match guess with
    | .unit value items => (value, some items)
    | other => (other, none)
  match value.real? with
  | some number => .ok (number.toDecimal, unit)
  | none => .error .badGuess

/-- The two guesses between which the search begins: those of a list or an array of two, or
a single one twice. -/
def guessesOf (guess : Value) :
    Outcome ((Decimal × Option (List Value)) × Decimal × Option (List Value)) := do
  match guess with
  | .sequence .list items | .sequence .array items =>
    match items with
    | [low, high] =>
      let low ← guessOf low
      let high ← guessOf high
      return (low, high)
    | _ => throw .badGuess
  | single =>
    let point ← guessOf single
    return (point, point)

/-- The problem that an equation, an unknown and a guess pose. The unit is that of the
unknown, or else that of the first guess. -/
def pose (equation unknown guess : Value) : Outcome Problem := do
  let target ← targetOf equation
  let (name, unit) ← unknownOf unknown
  let ((low, lowUnit), (high, _)) ← guessesOf guess
  return ⟨target, name, unit.or lowUnit, low, high⟩

/-- A point as a value of the unknown at a tier. -/
def wrap (problem : Problem) (x : Decimal) (precision : Precision) : Value :=
  let number := Value.real (.ofDecimal (x.withDigits precision.digits) precision)
  match problem.unit with
  | some items => .unit number items
  | none => number

end Problem

namespace Solver

/-- The tier of the samples for a result of a tier. -/
def samplingTier : Precision → Precision
  | .decimal32 => .decimal64
  | _ => .decimal128

/-- The largest value that counts as zero: one unit of the last digit that is not lost. At
least one digit is kept. -/
def epsilon (settings : Preferences) : Decimal :=
  ⟨1, Int64.ofNat (max (settings.precision.digits - settings.solverImprecision.toNat) 1)⟩

variable {Store Reference : Type} [Storage Store Reference]
variable (evaluate : Value → ActionOn Store Reference Value)
variable (problem : Problem) (precision : Precision)

/-- The value of the target at a point, without its unit. -/
def sample (x : Decimal) : ActionOn Store Reference Decimal := do
  Machine.store problem.unknown (problem.wrap x (samplingTier precision))
  let result ← evaluate problem.target
  let number := match result with
    | .unit value _ => value.real?
    | other => other.real?
  match number with
  | some number => return number.toDecimal
  | none => throw .invalidFunction

/-- Leaves the unknown at a point. -/
def finish (x : Decimal) : ActionOn Store Reference Value := do
  let value := problem.wrap x precision
  Machine.store problem.unknown value
  return value

/-- Leaves the unknown at the best point and fails. -/
def fail (best : Option Sample) (fault : Fault) : ActionOn Store Reference Value := do
  if let some best := best then
    discard (finish problem precision best.x)
  throw fault

/-- The value of the target at a point, or why it has none. -/
def attempt (x : Decimal) : ActionOn Store Reference (Outcome Decimal) := do
  try return .ok (← sample evaluate problem precision x)
  catch fault => return .error fault

/-- Goes on with a search for so many more iterations. -/
def searchFrom (search : Search) (iteration : Nat) : Nat → ActionOn Store Reference Value
  | 0 => fail problem precision search.best .noSolution
  | remaining + 1 => do
    if ← Machine.interrupted then fail problem precision search.best .interrupted
    else
      match ← attempt evaluate problem precision search.point with
      | .error fault =>
        match search.skip? iteration with
        | some search => searchFrom search (iteration + 1) remaining
        | none => fail problem precision search.best fault
      | .ok y =>
        match search.observe iteration y with
        | .next search => searchFrom search (iteration + 1) remaining
        | .root x => finish problem precision x
        | .hopeless fault best => fail problem precision best fault

end Solver

variable {Store Reference : Type} [Storage Store Reference]

/-- Finds a root of an equation in an unknown, starting from a guess. -/
def solve (evaluate : Value → ActionOn Store Reference Value) (equation unknown guess : Value) :
    ActionOn Store Reference Value := do
  let problem ← Machine.require (Problem.pose equation unknown guess)
  let settings ← Machine.preferences
  let digits := (Solver.samplingTier settings.precision).workingDigits
  let search := Search.start problem.low problem.high (Solver.epsilon settings) digits
  Solver.searchFrom evaluate problem settings.precision search 0 settings.solverIterations.toNat

end Calculator
