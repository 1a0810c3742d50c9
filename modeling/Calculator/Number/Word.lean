import Calculator.Number.Power

/-!
# Machine integers

Integers of one sign and a magnitude that fits a machine word. Arithmetic on them is
exact: an operation either delivers the exact result or reports that the result does
not fit, so that the caller can turn to integers of any size.
-/

namespace Calculator

/-- An integer whose magnitude is a 64-bit word. Zero has no negative form. -/
structure Word where
  negative : Bool
  magnitude : UInt64
  canonical : negative = true → magnitude ≠ 0
deriving DecidableEq, Repr

namespace Word

/-- The machine integer with a sign and a magnitude; the sign of zero is dropped. -/
def ofSign (negative : Bool) (magnitude : UInt64) : Word :=
  if zero : magnitude = 0 then ⟨false, 0, by simp⟩
  else ⟨negative, magnitude, fun _ => zero⟩

/-- The value of a machine integer. -/
def toInt (word : Word) : Int :=
  if word.negative then -(word.magnitude.toNat : Int) else word.magnitude.toNat

/-- The machine integer with a value, if the magnitude fits. -/
def ofInt? (value : Int) : Option Word :=
  if value.natAbs < UInt64.size then some (ofSign (value < 0) (UInt64.ofNat value.natAbs)) else none

/-- Whether the value is zero. -/
def isZero (word : Word) : Bool := word.magnitude == 0

/-- The value with the opposite sign. -/
def negated (word : Word) : Word := ofSign (!word.negative) word.magnitude

/-- The value without its sign. -/
def absolute (word : Word) : Word := ofSign false word.magnitude

/-- The sum of two magnitudes, if it fits. -/
def addMagnitudes? (left right : UInt64) : Option UInt64 :=
  if left.toNat + right.toNat < UInt64.size then some (left + right) else none

/-- The product of two magnitudes, if it fits. -/
def multiplyMagnitudes? (left right : UInt64) : Option UInt64 :=
  if left.toNat * right.toNat < UInt64.size then some (left * right) else none

/-- The sum. Magnitudes of one sign are added; otherwise the smaller is taken from the
larger, whose sign the result has. -/
def add? (left right : Word) : Option Word :=
  if left.negative == right.negative then
    (addMagnitudes? left.magnitude right.magnitude).map (ofSign left.negative)
  else if right.magnitude ≤ left.magnitude then
    some (ofSign left.negative (left.magnitude - right.magnitude))
  else some (ofSign right.negative (right.magnitude - left.magnitude))

/-- The difference. -/
def subtract? (left right : Word) : Option Word := left.add? right.negated

/-- The product. -/
def multiply? (left right : Word) : Option Word :=
  (multiplyMagnitudes? left.magnitude right.magnitude).map
    (ofSign (left.negative != right.negative))

/-- The quotient by a divisor that is not zero, if the division is exact. -/
def divide? (left right : Word) : Option Word :=
  if left.magnitude % right.magnitude == 0 then
    some (ofSign (left.negative != right.negative) (left.magnitude / right.magnitude))
  else none

/-- The remainder of the division rounded toward zero. It has the sign of the dividend. -/
def remainder (left right : Word) : Word :=
  ofSign left.negative (left.magnitude % right.magnitude)

/-- The remainder of the division rounded down. It has the sign of the divisor. -/
def modulo? (left right : Word) : Option Word :=
  let rest := left.remainder right
  if rest.isZero || left.negative == right.negative then some rest else rest.add? right

/-- The power with a non-negative exponent. -/
def power? (base : Word) (exponent : UInt64) : Option Word :=
  (raiseOnto multiplyMagnitudes? 1 base.magnitude exponent.toNat).map
    (ofSign (base.negative && exponent % 2 == 1))

/-- The order of the values. -/
def order (left right : Word) : Ordering :=
  match left.negative, right.negative with
  | false, true => .gt
  | true, false => .lt
  | false, false => compare left.magnitude right.magnitude
  | true, true => compare right.magnitude left.magnitude

/-- The value as a signed machine word, if it fits one. -/
def toInt64? (word : Word) : Option Int64 :=
  if Int64.minValue.toInt ≤ word.toInt && word.toInt ≤ Int64.maxValue.toInt then some (Int64.ofInt word.toInt) else none

end Word

end Calculator
