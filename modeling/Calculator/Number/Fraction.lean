import Calculator.Number.Power

/-!
# Fractions

Rational numbers that are not integers, in lowest terms, and the ratios from which they
are formed. A ratio is any pair of integers; exact arithmetic forms a ratio without
looking for common factors and reduces it once at the end.
-/

namespace Calculator

/-- A reduced fraction. The denominator exceeds one, so the numerator is not zero. -/
structure Fraction where
  numerator : Int
  denominator : Nat
  proper : 1 < denominator
  reduced : numerator.natAbs.gcd denominator = 1
deriving DecidableEq, Repr

namespace Fraction

/-- The fraction with a numerator and a denominator, if they are in lowest terms and the
denominator exceeds one. -/
def ofReduced? (numerator : Int) (denominator : Nat) : Option Fraction :=
  if valid : 1 < denominator ∧ numerator.natAbs.gcd denominator = 1 then
    some ⟨numerator, denominator, valid.1, valid.2⟩
  else none

/-- Whether the fraction is below zero. -/
def isNegative (fraction : Fraction) : Bool := fraction.numerator < 0

/-- The fraction with the opposite sign. -/
def negated (fraction : Fraction) : Fraction :=
  ⟨-fraction.numerator, fraction.denominator, fraction.proper, by
    rw [Int.natAbs_neg]; exact fraction.reduced⟩

/-- Whether both parts fit machine words. -/
def isSmall (fraction : Fraction) : Bool :=
  fraction.numerator.natAbs < UInt64.size && fraction.denominator < UInt64.size

end Fraction

/-- A pair of integers standing for their quotient. -/
structure Ratio where
  numerator : Int
  denominator : Int
deriving DecidableEq, Repr

namespace Ratio

/-- An integer as a ratio. -/
def ofInt (value : Int) : Ratio := ⟨value, 1⟩

/-- The fraction's parts as a ratio. -/
def ofFraction (fraction : Fraction) : Ratio := ⟨fraction.numerator, fraction.denominator⟩

/-- The order of two ratios with positive denominators. -/
def order (left right : Ratio) : Ordering :=
  compare (left.numerator * right.denominator) (right.numerator * left.denominator)

/-- The sum. -/
def add (left right : Ratio) : Ratio :=
  ⟨left.numerator * right.denominator + right.numerator * left.denominator,
    left.denominator * right.denominator⟩

/-- The difference. -/
def subtract (left right : Ratio) : Ratio :=
  ⟨left.numerator * right.denominator - right.numerator * left.denominator,
    left.denominator * right.denominator⟩

/-- The product. -/
def multiply (left right : Ratio) : Ratio :=
  ⟨left.numerator * right.numerator, left.denominator * right.denominator⟩

/-- The quotient by a ratio that is not zero. -/
def divide (left right : Ratio) : Ratio :=
  ⟨left.numerator * right.denominator, left.denominator * right.numerator⟩

/-- What remains of a ratio when a whole number of another one is taken away. -/
def takeMultiple (left right : Ratio) (times : Int) : Ratio :=
  ⟨left.numerator * right.denominator - times * right.numerator * left.denominator,
    left.denominator * right.denominator⟩

/-- The remainder of the division rounded down, for a divisor that is not zero. -/
def modulo (left right : Ratio) : Ratio :=
  left.takeMultiple right
    (Int.fdiv (left.numerator * right.denominator) (left.denominator * right.numerator))

/-- The remainder of the division rounded toward zero, for a divisor that is not zero. -/
def remainder (left right : Ratio) : Ratio :=
  left.takeMultiple right
    (Int.tdiv (left.numerator * right.denominator) (left.denominator * right.numerator))

end Ratio

/-- The root of an integer, if the integer is not negative and is an exact power. -/
def exactRoot? (value : Int) (degree : Nat) : Option Int :=
  if value < 0 then none
  else
    let root := floorRoot degree value.natAbs
    if Nat.pow root degree = value.natAbs then some root else none

end Calculator
