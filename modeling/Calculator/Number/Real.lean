import Calculator.Number.Decimal
import Calculator.Number.Fraction
import Calculator.Number.Word
import Calculator.Settings

/-!
# Real numbers

The four representations of a real number and the ways into them. Integers that fit a
machine word are always words, other integers are always wide, and a rational number
that is an integer is never a fraction: an exact number has one representation.
Decimals are rounded to the digits of their tier as they are made.
-/

namespace Calculator

/-- An integer whose magnitude does not fit a machine word. -/
structure Wide where
  value : Int
  wide : UInt64.size ≤ value.natAbs
deriving DecidableEq, Repr

/-- A decimal at a tier of precision. -/
structure Rounded where
  value : Decimal
  precision : Precision
deriving DecidableEq, Repr

/-- The decimal of a tier that a value is rounded to: the value at the digits of the tier,
without trailing zeros. -/
def Rounded.make (value : Decimal) (precision : Precision) : Rounded :=
  ⟨if value.isZero then .zero else (value.withDigits precision.digits).normalized, precision⟩

/-- A real number. -/
inductive Real where
  | word (value : Word)
  | wide (value : Wide)
  | fraction (value : Fraction)
  | decimal (value : Rounded)
deriving DecidableEq, Repr

namespace Real

/-- The integer with a value, in the one representation it has. -/
def ofInt (value : Int) : Real :=
  if wide : UInt64.size ≤ value.natAbs then .wide ⟨value, wide⟩
  else .word (Word.ofSign (value < 0) (UInt64.ofNat value.natAbs))

/-- The natural number with a value. -/
def ofNat (value : Nat) : Real := ofInt value

/-- One for truth and zero for falsehood. -/
def ofBool (truth : Bool) : Real := ofInt (if truth then 1 else 0)

/-- A decimal rounded to a tier. -/
def ofDecimal (value : Decimal) (precision : Precision) : Real :=
  .decimal (Rounded.make value precision)

/-- The quotient of two integers: an integer if the division is exact, and otherwise the
fraction in lowest terms. -/
def ofQuotient (numerator denominator : Int) : Outcome Real :=
  if denominator = 0 then .error .divideByZero
  else
    let common : Int := Int.gcd numerator denominator
    let above := numerator / common
    let below := denominator / common
    let above := if below < 0 then -above else above
    match Fraction.ofReduced? above below.natAbs with
    | some lowest => .ok (.fraction lowest)
    | none => .ok (ofInt above)

/-- The number a ratio denotes. -/
def ofRatio (ratio : Ratio) : Outcome Real := ofQuotient ratio.numerator ratio.denominator

/-- Whether the number is an integer by its representation. -/
def isInteger : Real → Bool
  | word _ | wide _ => true
  | _ => false

/-- Whether the number is an integer or a fraction. -/
def isExact : Real → Bool
  | decimal _ => false
  | _ => true

/-- Whether the number is zero. -/
def isZero : Real → Bool
  | word value => value.isZero
  | decimal value => value.value.isZero
  | _ => false

/-- Whether the number is the integer one. -/
def isOne : Real → Bool
  | word value => !value.negative && value.magnitude == 1
  | _ => false

/-- Whether the number is below zero. -/
def isNegative : Real → Bool
  | word value => value.negative
  | wide value => value.value < 0
  | fraction value => value.isNegative
  | decimal value => value.value.isNegative

/-- The value of an integer. -/
def toInt? : Real → Option Int
  | word value => some value.toInt
  | wide value => some value.value
  | _ => none

/-- The value of an integer that fits a signed machine word. -/
def toInt64? (number : Real) : Option Int64 :=
  match number.toInt? with
  | some value =>
    if Int64.minValue.toInt ≤ value && value ≤ Int64.maxValue.toInt then some (Int64.ofInt value) else none
  | none => none

/-- The value of an exact number. -/
def ratio? : Real → Option Ratio
  | word value => some (.ofInt value.toInt)
  | wide value => some (.ofInt value.value)
  | fraction value => some (.ofFraction value)
  | decimal _ => none

/-- The value as a decimal. The quotient of a fraction's parts stops at a hundred digits. -/
def toDecimal : Real → Decimal
  | word value => .ofInt value.toInt
  | wide value => .ofInt value.value
  | fraction value => (Decimal.ofInt value.numerator).divide (.ofNat value.denominator)
  | decimal value => value.value

/-- The exact integer that a number is equal to, also if it is written as a decimal. -/
def wholeValue? : Real → Option Int
  | decimal value => value.value.integer?
  | number => number.toInt?

/-- The number with the opposite sign. -/
def negated : Real → Real
  | word value => .word value.negated
  | wide value => ofInt (-value.value)
  | fraction value => .fraction value.negated
  | decimal value => .decimal ⟨value.value.negated, value.precision⟩

/-- The tier a number brings into an operation: its own, or the one of the settings for an
exact number. -/
def precision (number : Real) (settings : Preferences) : Precision :=
  match number with
  | decimal value => value.precision
  | _ => settings.precision

/-- The order of two numbers. Exact numbers are compared as ratios and all others as
decimals. -/
def order (left right : Real) : Ordering :=
  match left, right with
  | word x, word y => x.order y
  | _, _ =>
    match left.ratio?, right.ratio? with
    | some x, some y => x.order y
    | _, _ => left.toDecimal.order right.toDecimal

end Real

end Calculator
