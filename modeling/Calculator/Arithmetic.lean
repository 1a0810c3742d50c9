import Calculator.Polynomial.Expression

/-!
# Arithmetic of values

What an operator or a function does with values of every kind. The kinds are looked at
in a fixed order: polynomials are computed with as polynomials where that is possible,
other symbolic operands build an expression, units are carried along, texts are joined
and repeated, and numbers are computed with.

Complex numbers, units and polynomials are operated on by operating on their parts. A
level of operations is therefore defined over the level for the parts, and the number of
levels is taken from the height of the operands, with a few levels to spare for results
that are higher than what they came from.
-/

namespace Calculator.Arithmetic

/-- The expression of an operator behind two operands. -/
def symbolicBinary (command : Command) (x y : Value) : Value :=
  .expression (x.postfixItems ++ y.postfixItems ++ [.command command])

/-- The expression of an operator behind one operand. -/
def symbolicUnary (command : Command) (x : Value) : Value :=
  .expression (x.postfixItems ++ [.command command])

/-- The order of two real numbers. -/
def order (x y : Value) : Outcome Ordering :=
  match x, y with
  | .real a, .real b => .ok (a.order b)
  | _, _ => .error .badArgumentType

/-- Whether a value counts as true. Only real numbers do or do not. -/
def truth (x : Value) : Outcome Bool :=
  match x with
  | .real number => .ok number.isTrue
  | _ => .error .badArgumentType

/-- The result of a logical operator. -/
def logical (command : Command) (x y : Value) : Outcome Value := do
  let a ← truth x
  let b ← truth y
  match command with
  | .and => return .ofBool (a && b)
  | .or => return .ofBool (a || b)
  | .xor => return .ofBool (a != b)
  | _ => throw .badArgumentType

/-- A text repeated a number of times. -/
def repeatText (content : String) (count : Value) : Outcome Value :=
  match count.toInt64? with
  | some times =>
    if times < 0 then .error .badArgumentValue
    else .ok (.text (String.join (List.replicate times.toInt.toNat content)))
  | none => .error .badArgumentValue

/-- The result of an operation on texts, if there is one: two texts are joined, and a text
is repeated by an integer on either side. -/
def texts (command : Command) (x y : Value) : Outcome (Option Value) :=
  match command, x, y with
  | .add, .text a, .text b => .ok (some (.text (a ++ b)))
  | .multiply, .text content, count =>
    if count.isInteger then (repeatText content count).map some else .ok none
  | .multiply, count, .text content =>
    if count.isInteger then (repeatText content count).map some else .ok none
  | _, _, _ => .ok none

section Level

variable (parts : Operations) (settings : Preferences)

/-- Whether two numbers are equal in value, whatever their form. -/
def numbersEqual (x y : Value) : Outcome Bool := do
  match x, y with
  | .real a, .real b => return a.order b == .eq
  | _, _ =>
    let (a, b) ← Complex.rectangularParts parts x
    let (c, d) ← Complex.rectangularParts parts y
    if (← order a c) == .eq then return (← order b d) == .eq else return false

/-- Whether two values are equal: numbers by value, and all others by what they are. -/
def equal (x y : Value) : Outcome Bool :=
  if x.isNumber && y.isNumber then numbersEqual parts x y else .ok (x == y)

/-- The order of two texts or two real numbers. -/
def orderOf (x y : Value) : Outcome Ordering :=
  match x, y with
  | .text a, .text b => .ok (Symbol.compareCharacters a.toList b.toList)
  | _, _ => order x y

/-- Whether a command compares its operands. -/
def isComparison : Command → Bool
  | .same | .notEqual | .less | .lessOrEqual | .greater | .greaterOrEqual => true
  | _ => false

/-- The result of a comparison. -/
def comparison (command : Command) (x y : Value) : Outcome Value := do
  match command with
  | .same => return .ofBool (← equal parts x y)
  | .notEqual => return .ofBool !(← equal parts x y)
  | .less => return .ofBool ((← orderOf x y) == .lt)
  | .lessOrEqual => return .ofBool ((← orderOf x y) != .gt)
  | .greater => return .ofBool ((← orderOf x y) == .gt)
  | .greaterOrEqual => return .ofBool ((← orderOf x y) != .lt)
  | _ => throw .badArgumentType

/-- The result of an operation of which at least one operand has a unit. Sums and
comparisons need the same unit on both sides; products, quotients and powers combine the
unit expressions. -/
def units (command : Command) (x y : Value) : Outcome Value := do
  match x, y with
  | .unit a u, .unit b v =>
    match command with
    | .add | .subtract =>
      if Value.sameItems u v then return .unit (← parts.binary command a b) u
      else throw .inconsistentUnits
    | .multiply | .divide =>
      return .unit (← parts.binary command a b) (u ++ v ++ [.command command])
    | _ =>
      if isComparison command then
        if Value.sameItems u v then comparison parts command a b else throw .inconsistentUnits
      else throw .badArgumentType
  | .unit a u, other =>
    match command with
    | .multiply | .divide => return .unit (← parts.binary command a other) u
    | .power =>
      if other.isInteger then
        return .unit (← parts.binary command a other) (u ++ [other, .command command])
      else throw .badArgumentType
    | .add | .subtract => throw .inconsistentUnits
    | _ => throw .badArgumentType
  | other, .unit b v =>
    match command with
    | .multiply => return .unit (← parts.binary command other b) v
    | .divide => return .unit (← parts.binary command other b) (v ++ [.command .invert])
    | .add | .subtract => throw .inconsistentUnits
    | _ => throw .badArgumentType
  | _, _ => throw .badArgumentType

/-- The polynomial a value denotes, if it denotes one. -/
def polynomial? (x : Value) : Option Polynomial :=
  (Polynomial.ofValue parts settings x).toOption

/-- The result of an operation of which at least one operand is a polynomial, if it is a
polynomial. -/
def polynomialBinary (command : Command) (x y : Value) : Outcome (Option Value) := do
  match command with
  | .divide | .modulo | .remainder => throw .unimplemented
  | .add | .subtract | .multiply =>
    match polynomial? parts settings x, polynomial? parts settings y with
    | some p, some q =>
      let result ←
        match command with
        | .add => Polynomial.add parts settings p q
        | .subtract => Polynomial.subtract parts settings p q
        | _ => Polynomial.multiply parts settings p q
      return some (.polynomial result)
    | _, _ => return none
  | .power =>
    match polynomial? parts settings x, Polynomial.exponent? y with
    | some p, some exponent =>
      return some (.polynomial (← Polynomial.power parts settings p exponent))
    | _, _ => return none
  | _ => return none

/-- The value of a function at a real number. Roots and logarithms of numbers below zero
are complex. -/
def realUnary (command : Command) (x : Real) : Outcome Value := do
  match command, x.isNegative with
  | .squareRoot, true =>
    return Complex.rectangular (.ofInt 0) (.real (← x.negated.apply .squareRoot settings))
  | .naturalLog, true | .commonLog, true =>
    Complex.unary parts settings command (Complex.withoutImaginary (.real x))
  | _, _ => return .real (← x.apply command settings)

/-- The value of a function at a number. -/
def numberUnary (command : Command) (x : Value) : Outcome Value :=
  match x with
  | .real number => realUnary parts settings command number
  | .complex _ _ _ => Complex.unary parts settings command x
  | _ => .error .badArgumentType

/-- The result of an operation on two numbers. A power of a number below zero is complex
unless the exponent is an integer. -/
def numberBinary (command : Command) (x y : Value) : Outcome Value :=
  match x, y with
  | .real a, .real b =>
    if command == .power && a.isNegative && b.wholeValue?.isNone then
      Complex.binary parts settings command x y
    else (a.operate command b settings).map .real
  | _, _ =>
    if x.isNumber && y.isNumber then Complex.binary parts settings command x y
    else .error .badArgumentType

/-- Whether an integer is odd. -/
def isOdd (n : Int) : Bool := n % 2 == 1

/-- The root of a number with a real degree that is not zero, as a power with the inverse
degree. -/
def powerOfInverse (x : Value) (degree : Real) : Outcome Value := do
  let inverse ← degree.apply .invert settings
  numberBinary parts settings .power x (.real inverse)

/-- The root of a number. An odd root of a number below zero is real. -/
def nthRoot (x : Value) (degree : Real) : Outcome Value := do
  if degree.isZero then throw .divideByZero
  match x, degree.wholeValue? with
  | .real number, some whole =>
    if number.isNegative && isOdd whole then
      let root ← powerOfInverse parts settings (.real number.negated) degree
      numberUnary parts settings .negate root
    else powerOfInverse parts settings x degree
  | _, _ => powerOfInverse parts settings x degree

/-- The result of an operation on two values that are neither symbolic nor have units. -/
def plainBinary (command : Command) (x y : Value) : Outcome Value := do
  match ← texts command x y with
  | some result => return result
  | none =>
    if isComparison command then comparison parts command x y
    else
      match command, y with
      | .and, _ | .or, _ | .xor, _ => logical command x y
      | .nthRoot, .real degree =>
        if x.isNumber then nthRoot parts settings x degree else throw .badArgumentType
      | _, _ => numberBinary parts settings command x y

/-- The result of an operation on two values of which none is a polynomial, or that have
no polynomial for a result. -/
def generalBinary (command : Command) (x y : Value) : Outcome Value :=
  if x.isSymbolic || y.isSymbolic then .ok (symbolicBinary command x y)
  else
    match x, y with
    | .unit _ _, _ | _, .unit _ _ => units parts command x y
    | _, _ => plainBinary parts settings command x y

/-- The result of an operation on two values, given the operations on their parts. -/
def binaryOver (command : Command) (x y : Value) : Outcome Value := do
  match command, x, y with
  | .equation, _, _ | .whereBound, _, _ => return symbolicBinary command x y
  | _, .polynomial _, _ | _, _, .polynomial _ =>
    match ← polynomialBinary parts settings command x y with
    | some result => return result
    | none => generalBinary parts settings command x y
  | _, _, _ => generalBinary parts settings command x y

/-- The value of a function at a polynomial, if it is a polynomial. -/
def polynomialUnary (command : Command) (p : Polynomial) : Outcome (Option Value) := do
  match command with
  | .negate => return some (.polynomial (← Polynomial.negate parts p))
  | .square => return some (.polynomial (← Polynomial.power parts settings p 2))
  | .cube => return some (.polynomial (← Polynomial.power parts settings p 3))
  | .invert => throw .unimplemented
  | _ => return none

/-- The value of a function at a value, given the operations on its parts. -/
def unaryOver (command : Command) (x : Value) : Outcome Value := do
  match x with
  | .polynomial p =>
    match ← polynomialUnary parts settings command p with
    | some result => return result
    | none => return symbolicUnary command x
  | .symbol _ | .sequence .expression _ => return symbolicUnary command x
  | .unit value items =>
    match command with
    | .negate | .absolute => return .unit (← parts.unary command value) items
    | .square => units parts .power x (.ofInt 2)
    | .cube => units parts .power x (.ofInt 3)
    | _ => throw .badArgumentType
  | _ => numberUnary parts settings command x

end Level

/-- The operations on values up to a height. -/
def upTo (settings : Preferences) : Nat → Operations
  | 0 => ⟨fun _ _ => .error .tooMuchRecursion, fun _ _ _ => .error .tooMuchRecursion⟩
  | level + 1 =>
    ⟨fun command x => unaryOver (upTo settings level) settings command x,
      fun command x y => binaryOver (upTo settings level) settings command x y⟩

/-- The levels to spare beyond the height of the operands. -/
def spareLevels : Nat := 8

/-- The result of an operation on two values. -/
def binary (command : Command) (x y : Value) (settings : Preferences) : Outcome Value :=
  (upTo settings (max x.height y.height + spareLevels)).binary command x y

/-- The value of a function at a value. -/
def unary (command : Command) (x : Value) (settings : Preferences) : Outcome Value :=
  (upTo settings (x.height + spareLevels)).unary command x

/-- The operations on values of any height. -/
def operations (settings : Preferences) : Operations :=
  ⟨fun command x => unary command x settings, fun command x y => binary command x y settings⟩

mutual

/-- A number as a decimal of the tier in the settings. Lists, arrays, complex numbers and
values with units are converted part by part. -/
def toDecimal (settings : Preferences) : Value → Outcome Value
  | .real (.decimal x) => .ok (.real (.decimal x))
  | .real number => .ok (.real (.ofDecimal number.toDecimal settings.precision))
  | .complex form first second => do
    return .complex form (← toDecimal settings first) (← toDecimal settings second)
  | .unit value items => do return .unit (← toDecimal settings value) items
  | .sequence .list items => do return .sequence .list (← itemsToDecimal settings items)
  | .sequence .array items => do return .sequence .array (← itemsToDecimal settings items)
  | _ => .error .badArgumentType

/-- The numbers of a row as decimals. -/
def itemsToDecimal (settings : Preferences) : List Value → Outcome (List Value)
  | [] => .ok []
  | item :: items => do return (← toDecimal settings item) :: (← itemsToDecimal settings items)

end

end Calculator.Arithmetic
