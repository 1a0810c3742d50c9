import Calculator.Fault
import Calculator.Number.Digits
import Calculator.Number.Power

/-!
# Decimals

Decimal numbers of any length: an integer mantissa and a scale, the number of mantissa
digits behind the point. The scale is a signed machine word and wraps. Sums, differences
and products are exact; a quotient stops at a hundred digits, and rounding to a number
of digits is a separate operation.

One value has many forms, which differ in trailing zeros. Comparison is by value, and
`normalized` picks the form without trailing zeros.
-/

namespace Calculator

/-- The number `mantissa · 10 ^ (-scale)`. -/
structure Decimal where
  mantissa : Int
  scale : Int64
deriving DecidableEq, Repr, Inhabited

namespace Decimal

/-- An integer as a decimal. -/
def ofInt (value : Int) : Decimal := ⟨value, 0⟩

/-- A natural number as a decimal. -/
def ofNat (value : Nat) : Decimal := ⟨value, 0⟩

/-- Zero. -/
def zero : Decimal := ⟨0, 0⟩

/-- One. -/
def one : Decimal := ⟨1, 0⟩

/-- One half. -/
def half : Decimal := ⟨5, 1⟩

/-- Whether the value is zero. -/
def isZero (x : Decimal) : Bool := x.mantissa == 0

/-- Whether the value is below zero. -/
def isNegative (x : Decimal) : Bool := x.mantissa < 0

/-- Whether the value is above zero. -/
def isPositive (x : Decimal) : Bool := 0 < x.mantissa

/-- The value with the opposite sign. -/
def negated (x : Decimal) : Decimal := ⟨-x.mantissa, x.scale⟩

/-- The value without its sign. -/
def absolute (x : Decimal) : Decimal := ⟨x.mantissa.natAbs, x.scale⟩

/-- The number of digits of the mantissa. -/
def digits (x : Decimal) : Nat := Digits.count x.mantissa.natAbs

/-- The exponent of the leading digit in scientific notation, zero for zero. -/
def exponent (x : Decimal) : Int64 :=
  if x.isZero then 0 else Int64.ofNat x.digits - 1 - x.scale

/-- The mantissa that belongs to a scale that is not smaller. -/
def mantissaAt (x : Decimal) (scale : Int64) : Int :=
  x.mantissa * tenTo (scale.toInt - x.scale.toInt).toNat

/-- The larger of two scales. -/
def commonScale (x y : Decimal) : Int64 := if x.scale < y.scale then y.scale else x.scale

/-- The exact sum. -/
def add (x y : Decimal) : Decimal :=
  let scale := commonScale x y
  ⟨x.mantissaAt scale + y.mantissaAt scale, scale⟩

/-- The exact difference. -/
def subtract (x y : Decimal) : Decimal := x.add y.negated

/-- The order of two magnitudes that are not zero. The positions of the leading digits
decide first; only mantissas that begin at the same position are compared digit by
digit. -/
def orderMagnitudes (x y : Decimal) : Ordering :=
  match compare ((x.digits : Int) - x.scale.toInt) ((y.digits : Int) - y.scale.toInt) with
  | .eq =>
    let scale := commonScale x y
    compare (x.mantissaAt scale).natAbs (y.mantissaAt scale).natAbs
  | order => order

/-- The order of two values. -/
def order (x y : Decimal) : Ordering :=
  match compare x.mantissa.sign y.mantissa.sign with
  | .eq =>
    if x.isZero then .eq
    else if x.isNegative then orderMagnitudes y x
    else orderMagnitudes x y
  | order => order

/-- Whether one value is below another. -/
def isLess (x y : Decimal) : Bool := x.order y == .lt

/-- Whether two values are the same. -/
def isSame (x y : Decimal) : Bool := x.order y == .eq

/-- Whether the value is one. -/
def isOne (x : Decimal) : Bool := x.isSame one

/-- The exact product. A factor of one leaves the form of the other factor alone. -/
def multiply (x y : Decimal) : Decimal :=
  if x.isOne then y
  else if y.isOne then x
  else ⟨x.mantissa * y.mantissa, x.scale + y.scale⟩

/-- Removes up to `limit` trailing zeros from a number, and tells how many. -/
def dropZeros : Nat → Nat → Nat × Nat
  | 0, number => (number, 0)
  | limit + 1, number =>
    if number % 10 = 0 then
      let (rest, dropped) := dropZeros limit (number / 10)
      (rest, dropped + 1)
    else (number, 0)

/-- The form without trailing zeros. Zero has the scale zero. -/
def normalized (x : Decimal) : Decimal :=
  if x.isZero then zero
  else
    let (magnitude, dropped) := dropZeros x.digits x.mantissa.natAbs
    ⟨x.mantissa.sign * magnitude, x.scale - Int64.ofNat dropped⟩

/-- The form with exactly `count` digits. Missing digits are filled up with zeros; digits
too many are cut off, and a positive value is rounded up when the first of them is five
or more. A negative value is cut toward zero. -/
def withDigits (x : Decimal) (count : Nat) : Decimal :=
  let digits := x.digits
  if count < digits then
    let excess := digits - count
    let unit := tenTo excess
    let quotient := x.mantissa.tdiv unit
    let rest := x.mantissa.tmod unit
    ⟨if (unit : Int) ≤ 2 * rest then quotient + 1 else quotient, x.scale - Int64.ofNat excess⟩
  else
    let missing := count - digits
    ⟨x.mantissa * tenTo missing, x.scale + Int64.ofNat missing⟩

/-- The number of digits at which a division stops. -/
def quotientDigits : Nat := 100

/-- The smallest number of zeros that makes a dividend at least as large as a divisor. -/
def missingZeros (dividend divisor : Nat) : Nat :=
  let zeros := Digits.count divisor - Digits.count dividend
  if dividend * tenTo zeros < divisor then zeros + 1 else zeros

/-- The quotient of two positive numbers and the number of digits it has behind the point.
Digits are produced until the division is exact or the quotient has a hundred of them; the
last digit is then rounded up when the next one is five or more. -/
def divideMagnitudes (dividend divisor : Nat) : Nat × Nat :=
  let zeros := missingZeros dividend divisor
  let lifted := dividend * tenTo zeros
  let whole := lifted / divisor
  if lifted % divisor = 0 then (whole, zeros)
  else
    let further := quotientDigits - Digits.count whole
    let extended := lifted * tenTo further
    let quotient := extended / divisor
    let rest := extended % divisor
    if rest = 0 then
      let (shortest, dropped) := dropZeros further quotient
      (shortest, zeros + (further - dropped))
    else if 5 ≤ 10 * rest / divisor then (quotient + 1, zeros + further)
    else (quotient, zeros + further)

/-- The quotient by a divisor that is not zero. A dividend of zero and a divisor of one
leave the dividend's form alone. -/
def divide (x y : Decimal) : Decimal :=
  if x.isZero || y.isOne then x
  else
    let scale := x.scale - y.scale
    if x.mantissa = y.mantissa then ⟨1, scale⟩
    else
      let (magnitude, places) := divideMagnitudes x.mantissa.natAbs y.mantissa.natAbs
      ⟨x.mantissa.sign * y.mantissa.sign * magnitude, scale + Int64.ofNat places⟩

/-- Rounds a number to its first `count` digits, a half to the even neighbour, and tells
how many digits were dropped. -/
def roundHalfEven (number count : Nat) : Nat × Nat :=
  let excess := Digits.count number - count
  let unit := tenTo excess
  let quotient := number / unit
  let rest := number % unit
  if unit < 2 * rest || (2 * rest = unit && excess != 0 && quotient % 2 = 1) then
    (quotient + 1, excess)
  else (quotient, excess)

/-- The square root to a hundred digits, a half rounded to the even neighbour, of a value
that is not negative. Zero and one are their own roots. -/
def squareRoot (x : Decimal) : Decimal :=
  if x.isZero || x.isOne then x
  else
    let digits := x.digits
    let places := (digits : Int) - x.scale.toInt
    let zeros := (2 * (quotientDigits + 5) - digits) + (if places % 2 = 0 then 0 else 1)
    let root := floorRoot 2 (x.mantissa.natAbs * tenTo zeros)
    let extra := Digits.count root - quotientDigits
    let (rounded, dropped) := roundHalfEven root quotientDigits
    let scale := Int.fdiv (2 * quotientDigits - places) 2 + extra - dropped
    ⟨rounded, Int64.ofInt scale⟩

/-- The largest power of ten that is formed to extract an integer from a decimal. -/
def integerDigits : Nat := 1000

/-- A power of ten, unless it is too large. -/
def powerOfTen (exponent : Nat) : Outcome Int :=
  if exponent ≤ integerDigits then .ok (tenTo exponent) else .error .badArgumentValue

/-- Whether the value lies strictly between minus one and one without being zero. -/
def isSmall (x : Decimal) : Bool := x.exponent < 0 && !x.isZero

/-- The largest integer that does not exceed the value. -/
def floor (x : Decimal) : Outcome Int :=
  if x.isSmall then .ok (if x.isNegative then -1 else 0)
  else do
    let unit ← powerOfTen x.scale.toInt.natAbs
    if x.scale ≤ 0 then return x.mantissa * unit
    else return x.mantissa.fdiv unit

/-- The integer part of the value. -/
def truncate (x : Decimal) : Outcome Int :=
  if x.isSmall then .ok 0
  else do
    let unit ← powerOfTen x.scale.toInt.natAbs
    if x.scale ≤ 0 then return x.mantissa * unit
    else return x.mantissa.tdiv unit

/-- The value as an integer, if it is one and of a usable size. -/
def integer? (x : Decimal) : Option Int :=
  if x.isSmall then none
  else
    match powerOfTen x.scale.toInt.natAbs with
    | .error _ => none
    | .ok unit =>
      if x.scale ≤ 0 then some (x.mantissa * unit)
      else if x.mantissa.tmod unit = 0 then some (x.mantissa.tdiv unit)
      else none

end Decimal

end Calculator
