import Calculator.Number.Decimal.Series
import Calculator.Number.Exact

/-!
# Operations on real numbers

An operation is tried on the cheapest kind of number that can hold its result: on machine
integers, then on integers of any size, then on ratios, and last on decimals. An exact
operand is turned into a decimal only when no exact result exists or the other operand is
a decimal already.
-/

namespace Calculator

/-- The digits a decimal computation carries beyond those of its tier. -/
def guardDigits : Nat := 8

/-- The digits of a decimal computation whose result belongs to a tier. -/
def Precision.workingDigits (precision : Precision) : Nat := precision.digits + guardDigits

/-- Refuses a divisor of zero. -/
def Decimal.requireDivisor (divisor : Decimal) : Outcome Unit :=
  if divisor.isZero then .error .divideByZero else .ok ()

/-- The remainder of a decimal division, rounded down or toward zero. The quotient is
computed with as many more digits as its integer part needs. -/
def Decimal.remainderBy (x y : Decimal) (digits : Nat) (down : Bool) : Outcome Decimal := do
  y.requireDivisor
  let spread := x.exponent - y.exponent
  if Int64.ofNat Decimal.integerDigits < spread then throw .badArgumentValue
  let quotient := (x.divide y).withDigits (digits + spread.toInt.toNat)
  let whole ← if down then quotient.floor else quotient.truncate
  return x.subtract (y.multiply (.ofInt whole))

/-- The decimal that results from an operation on two decimals. -/
def Decimal.operate (command : Command) (x y : Decimal) (digits : Nat) : Outcome Decimal := do
  match command with
  | .add => return x.add y
  | .subtract => return x.subtract y
  | .multiply => return x.multiply y
  | .divide =>
    y.requireDivisor
    return x.divide y
  | .modulo => x.remainderBy y digits true
  | .remainder => x.remainderBy y digits false
  | .power => x.power y digits
  | .hypotenuse => ((x.multiply x).add (y.multiply y)).rootTo digits
  | .arcTangent2 => return x.angle y digits
  | _ => throw .badArgumentType

/-- The arc sine of a value between minus one and one. -/
def Decimal.arcSine (x : Decimal) (digits : Nat) : Outcome Decimal := do
  if x.absolute.isOne then
    let quarter := Decimal.quarterTurn digits
    return if x.isNegative then quarter.negated else quarter
  else
    let root ← (Decimal.one.subtract (x.multiply x)).rootTo digits
    return ((x.divide root).withDigits digits).arcTangent digits

/-- The value of an elementary function. -/
def Decimal.apply (command : Command) (x : Decimal) (digits : Nat) : Outcome Decimal := do
  match command with
  | .squareRoot => x.rootTo digits
  | .sine => x.sine digits
  | .cosine => x.cosine digits
  | .tangent =>
    let cosine ← x.cosine digits
    cosine.requireDivisor
    return (← x.sine digits).divide cosine
  | .arcSine =>
    if Decimal.one.isLess x.absolute then throw .badArgumentValue
    x.arcSine digits
  | .arcCosine =>
    if Decimal.one.isLess x.absolute then throw .badArgumentValue
    return (Decimal.quarterTurn digits).subtract (← x.arcSine digits)
  | .arcTangent => return x.arcTangent digits
  | .exponential => x.exponential digits
  | .naturalLog => x.naturalLogarithm digits
  | .commonLog =>
    return (← x.naturalLogarithm digits).divide (← (Decimal.ofNat 10).naturalLogarithm digits)
  | .powerOfTen => (Decimal.ofNat 10).power x digits
  | _ => throw .badArgumentType

/-- The value of an elementary function, rounded to a tier. -/
def Decimal.applyAt (command : Command) (x : Decimal) (precision : Precision) : Outcome Real := do
  return .ofDecimal (← x.apply command precision.workingDigits) precision

namespace Real

/-- A result in the form the settings ask for: fractions are turned into decimals when
results are to be numerical. -/
def finished (result : Real) (settings : Preferences) : Real :=
  match result with
  | fraction _ =>
    if settings.numericalResults then .ofDecimal result.toDecimal settings.precision else result
  | _ => result

/-- The result of an operation on machine integers, if it is one. -/
def operateWords (command : Command) (x y : Word) : Outcome (Option Word) :=
  match command with
  | .add => .ok (x.add? y)
  | .subtract => .ok (x.subtract? y)
  | .multiply => .ok (x.multiply? y)
  | .divide => if y.isZero then .error .divideByZero else .ok (x.divide? y)
  | .remainder => if y.isZero then .error .divideByZero else .ok (some (x.remainder y))
  | .modulo => if y.isZero then .error .divideByZero else .ok (x.modulo? y)
  | .power =>
    if y.negative then .ok none
    else if x.isZero && y.isZero then .error .undefinedOperation
    else .ok (x.power? y.magnitude)
  | _ => .ok none

/-- The result of an operation on two decimals, or on a decimal and an exact number. The
result belongs to the wider tier. -/
def operateDecimals (command : Command) (x y : Real) (settings : Preferences) : Outcome Real := do
  let precision := Precision.widest (x.precision settings) (y.precision settings)
  let result ← x.toDecimal.operate command y.toDecimal precision.workingDigits
  return .ofDecimal result precision

/-- The result of an operation on two ratios, or on decimals if it is not rational. -/
def operateRatios (command : Command) (x y : Real) (settings : Preferences) : Outcome Real := do
  match x.ratio?, y.ratio? with
  | some a, some b =>
    match ← Ratio.operate command a b with
    | some result => return result.finished settings
    | none => operateDecimals command x y settings
  | _, _ => operateDecimals command x y settings

/-- The result of an operation on two integers, or on a wider kind of number if it is not
an integer. -/
def operateIntegers (command : Command) (x y : Real) (settings : Preferences) : Outcome Real := do
  match x.toInt?, y.toInt? with
  | some a, some b =>
    match ← Integer.operate command a b with
    | some result => return result
    | none => operateRatios command x y settings
  | _, _ => operateRatios command x y settings

/-- The result of an operation on two real numbers. -/
def operate (command : Command) (x y : Real) (settings : Preferences) : Outcome Real := do
  match x, y with
  | word a, word b =>
    match ← operateWords command a b with
    | some result => return .word result
    | none => operateIntegers command x y settings
  | _, _ => operateIntegers command x y settings

/-- Whether a number counts as true. -/
def isTrue (x : Real) : Bool := x.order (.ofInt 0) != .eq

/-- The factorial. That of a decimal with an integer value is a decimal. -/
def factorial : Real → Outcome Real
  | decimal x => do
    match x.value.integer? with
    | some n => return .ofDecimal (← Integer.factorial n).toDecimal x.precision
    | none => throw .badArgumentValue
  | fraction _ => throw .badArgumentValue
  | word x => Integer.factorial x.toInt
  | wide x => Integer.factorial x.value

/-- The decimal value of an elementary function at a number, at the number's tier. -/
def applyDecimal (x : Real) (command : Command) (settings : Preferences) : Outcome Real :=
  x.toDecimal.applyAt command (x.precision settings)

/-- The square root of a number that is not negative, exact where it can be. -/
def squareRoot (x : Real) (settings : Preferences) : Outcome Real :=
  match x.ratio?.bind Ratio.squareRoot? with
  | some exact => .ok exact
  | none => x.applyDecimal .squareRoot settings

/-- The value of a function at a number, for all functions whose value there is real. -/
def apply (command : Command) (x : Real) (settings : Preferences) : Outcome Real := do
  let result ←
    match command with
    | .negate => pure x.negated
    | .absolute => pure (if x.isNegative then x.negated else x)
    | .invert => operate .divide (.ofInt 1) x settings
    | .square => operate .multiply x x settings
    | .cube => do
      let square ← operate .multiply x x settings
      operate .multiply square x settings
    | .not => pure (.ofBool !x.isTrue)
    | .factorial => x.factorial
    | .squareRoot => x.squareRoot settings
    | .naturalLog | .commonLog => if x.isOne then pure (.ofInt 0) else x.applyDecimal command settings
    | .exponential | .cosine => if x.isZero && x.isExact then pure (.ofInt 1) else x.applyDecimal command settings
    | .sine | .tangent | .arcSine | .arcTangent =>
      if x.isZero && x.isExact then pure (.ofInt 0) else x.applyDecimal command settings
    | .powerOfTen =>
      if x.isExact then operate .power (.ofInt 10) x settings else x.applyDecimal command settings
    | .arcCosine => x.applyDecimal command settings
    | _ => throw .badArgumentType
  return result.finished settings

end Real

end Calculator
