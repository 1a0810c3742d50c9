/-!
# Decimal digits

Natural numbers as rows of decimal digits: how many there are, the row that writes a
number and the number that a row denotes.
-/

namespace Calculator.Digits

/-- The number of digits of a number, one for zero. Digits are counted off sixteen at a
time while that many remain. -/
def count (number : Nat) : Nat :=
  if number < 10 then 1
  else if number < 10000000000000000 then 1 + count (number / 10)
  else 16 + count (number / 10000000000000000)
termination_by number

/-- The number of binary digits of a number, none for zero. -/
def binaryCount (number : Nat) : Nat := if number = 0 then 0 else Nat.log2 number + 1

/-- The character of a digit. -/
def character (digit : Nat) : Char := Char.ofNat ('0'.toNat + digit)

/-- The digit a character stands for. -/
def value (character : Char) : Nat := character.toNat - '0'.toNat

/-- Writes a number in front of a row of characters. -/
def writeOnto (number : Nat) (rest : List Char) : List Char :=
  if number < 10 then character number :: rest
  else writeOnto (number / 10) (character (number % 10) :: rest)
termination_by number

/-- The digits of a number, the most significant one first. -/
def write (number : Nat) : List Char := writeOnto number []

/-- The number that a row of digits denotes, zero for the empty row. -/
def read (digits : List Char) : Nat :=
  digits.foldl (fun number digit => 10 * number + value digit) 0

/-- The text of a natural number. -/
def text (number : Nat) : String := String.ofList (write number)

/-- The text of an integer. -/
def signedText (number : Int) : String :=
  if number < 0 then "-" ++ text number.natAbs else text number.natAbs

end Calculator.Digits
