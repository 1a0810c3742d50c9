import Calculator.Number.Operation
import Calculator.Value

/-!
# Complex arithmetic

Arithmetic of complex numbers in rectangular and polar form, built from operations on
their parts. The parts are values again, and the operations on them are a parameter, so
exact parts stay exact as far as those operations keep them exact. A result whose
imaginary part or argument is an exact zero is its real part or its modulus.
-/

namespace Calculator

/-- Operations on values, by command. -/
structure Operations where
  unary : Command → Value → Outcome Value
  binary : Command → Value → Value → Outcome Value

namespace Complex

/-- The number with a real and an imaginary part. -/
def rectangular (re im : Value) : Value :=
  if im.isZero && im.isExact then re else .complex .rectangular re im

/-- The number with a modulus and an argument. -/
def polar (modulus argument : Value) : Value :=
  if argument.isZero && argument.isExact then modulus else .complex .polar modulus argument

/-- A number as a complex number whose imaginary part is an exact zero. -/
def withoutImaginary (re : Value) : Value := .complex .rectangular re (.ofInt 0)

/-- Whether a value is a complex number in polar form. -/
def isPolar : Value → Bool
  | .complex .polar _ _ => true
  | _ => false

variable (parts : Operations) (settings : Preferences)

/-- The real and the imaginary part of a number. -/
def rectangularParts (x : Value) : Outcome (Value × Value) := do
  match x with
  | .complex .rectangular re im => return (re, im)
  | .complex .polar modulus argument =>
    let cosine ← parts.unary .cosine argument
    let sine ← parts.unary .sine argument
    return (← parts.binary .multiply modulus cosine, ← parts.binary .multiply modulus sine)
  | .real _ => return (x, .ofInt 0)
  | _ => throw .badArgumentType

/-- The modulus of a number with a real and an imaginary part. -/
def modulus (re im : Value) : Outcome Value := do
  let a ← parts.binary .multiply re re
  let b ← parts.binary .multiply im im
  parts.unary .squareRoot (← parts.binary .add a b)

/-- The modulus and the argument of a number. -/
def polarParts (x : Value) : Outcome (Value × Value) := do
  match x with
  | .complex .polar modulus argument => return (modulus, argument)
  | .complex .rectangular re im =>
    let length ← modulus parts re im
    return (length, ← parts.binary .arcTangent2 im re)
  | .real number =>
    if number.isNegative then
      let precision := number.precision settings
      return (← parts.unary .negate x,
        .real (.ofDecimal (Decimal.halfTurn precision.workingDigits) precision))
    else return (x, .ofInt 0)
  | _ => throw .badArgumentType

/-- The sum or the difference. -/
def combine (command : Command) (x y : Value) : Outcome Value := do
  let (a, b) ← rectangularParts parts x
  let (c, d) ← rectangularParts parts y
  return rectangular (← parts.binary command a c) (← parts.binary command b d)

/-- The product. The product of two polar numbers is polar. -/
def multiply (x y : Value) : Outcome Value := do
  if isPolar x && isPolar y then
    let (r, s) ← polarParts parts settings x
    let (r', s') ← polarParts parts settings y
    return polar (← parts.binary .multiply r r') (← parts.binary .add s s')
  else
    let (a, b) ← rectangularParts parts x
    let (c, d) ← rectangularParts parts y
    let ac ← parts.binary .multiply a c
    let bd ← parts.binary .multiply b d
    let ad ← parts.binary .multiply a d
    let bc ← parts.binary .multiply b c
    return rectangular (← parts.binary .subtract ac bd) (← parts.binary .add ad bc)

/-- The quotient. The quotient of two polar numbers is polar. -/
def divide (x y : Value) : Outcome Value := do
  if isPolar x && isPolar y then
    let (r, s) ← polarParts parts settings x
    let (r', s') ← polarParts parts settings y
    if r'.isZero then throw .divideByZero
    return polar (← parts.binary .divide r r') (← parts.binary .subtract s s')
  else
    let (a, b) ← rectangularParts parts x
    let (c, d) ← rectangularParts parts y
    let cc ← parts.binary .multiply c c
    let dd ← parts.binary .multiply d d
    let denominator ← parts.binary .add cc dd
    if denominator.isZero then throw .divideByZero
    let ac ← parts.binary .multiply a c
    let bd ← parts.binary .multiply b d
    let bc ← parts.binary .multiply b c
    let ad ← parts.binary .multiply a d
    let re ← parts.binary .add ac bd
    let im ← parts.binary .subtract bc ad
    return rectangular (← parts.binary .divide re denominator)
      (← parts.binary .divide im denominator)

/-- The largest magnitude of an exponent for which a power is built by multiplication. -/
def largestExponent : Nat := 1048576

/-- The power with an integer exponent. -/
def integerPower (x : Value) (exponent : Int) : Outcome Value := do
  if largestExponent < exponent.natAbs then throw .outOfMemory
  let result ← raiseOnto (multiply parts settings) (.ofInt 1) x exponent.natAbs
  if exponent < 0 then divide parts settings (.ofInt 1) result else return result

/-- The exponential function. -/
def exponential (x : Value) : Outcome Value := do
  let (a, b) ← rectangularParts parts x
  let scale ← parts.unary .exponential a
  let cosine ← parts.unary .cosine b
  let sine ← parts.unary .sine b
  return rectangular (← parts.binary .multiply scale cosine) (← parts.binary .multiply scale sine)

/-- The natural logarithm. -/
def naturalLogarithm (x : Value) : Outcome Value := do
  let (length, argument) ← polarParts parts settings x
  if length.isZero then throw .badArgumentValue
  return rectangular (← parts.unary .naturalLog length) argument

/-- The square root. For a rectangular number with modulus `m`, its real part is the root
of `(m + a) / 2` and its imaginary part the root of `(m - a) / 2` with the sign of `b`. -/
def squareRoot (x : Value) : Outcome Value := do
  if isPolar x then
    let (length, argument) ← polarParts parts settings x
    let root ← parts.unary .squareRoot length
    return polar root (← parts.binary .divide argument (.ofInt 2))
  else
    let (a, b) ← rectangularParts parts x
    let m ← modulus parts a b
    let reSquared ← parts.binary .divide (← parts.binary .add m a) (.ofInt 2)
    let imSquared ← parts.binary .divide (← parts.binary .subtract m a) (.ofInt 2)
    let re ← parts.unary .squareRoot reSquared
    let im ← parts.unary .squareRoot imSquared
    let im ← if b.isNegative then parts.unary .negate im else pure im
    return rectangular re im

/-- The power. An exponent that is not an integer goes through the logarithm. -/
def power (x y : Value) : Outcome Value := do
  match y.toInt? with
  | some exponent => integerPower parts settings x exponent
  | none =>
    let logarithm ← naturalLogarithm parts settings x
    let factor := if logarithm.isReal then withoutImaginary logarithm else logarithm
    exponential parts (← multiply parts settings y factor)

/-- The result of an operation on two numbers of which at least one is complex. -/
def binary (command : Command) (x y : Value) : Outcome Value :=
  match command with
  | .add | .subtract => combine parts command x y
  | .multiply => multiply parts settings x y
  | .divide => divide parts settings x y
  | .power => power parts settings x y
  | _ => .error .badArgumentType

/-- The value of a function at a complex number. -/
def unary (command : Command) (x : Value) : Outcome Value := do
  match command with
  | .negate =>
    let (a, b) ← rectangularParts parts x
    return rectangular (← parts.unary .negate a) (← parts.unary .negate b)
  | .invert => divide parts settings (withoutImaginary (.ofInt 1)) x
  | .square => multiply parts settings x x
  | .cube =>
    let square ← multiply parts settings x x
    multiply parts settings square x
  | .absolute =>
    let (a, b) ← rectangularParts parts x
    modulus parts a b
  | .squareRoot => squareRoot parts settings x
  | .exponential => exponential parts x
  | .naturalLog => naturalLogarithm parts settings x
  | .commonLog =>
    let base ← parts.unary .naturalLog (.ofInt 10)
    divide parts settings (← naturalLogarithm parts settings x) (withoutImaginary base)
  | _ => throw .unimplemented

end Complex

end Calculator
