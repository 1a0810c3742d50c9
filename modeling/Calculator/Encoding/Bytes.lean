/-!
# Integers and texts as bytes

Integers of any size as rows of bytes, the least significant byte first and no more of
them than needed. Signed integers are written in two's complement; the sign is that of
the last byte. Texts are written in UTF-8.
-/

namespace Calculator.Bytes

/-- The bytes of a natural number. Zero has one byte. -/
def ofNat (number : Nat) : List UInt8 :=
  if number < 256 then [UInt8.ofNat number]
  else UInt8.ofNat (number % 256) :: ofNat (number / 256)
termination_by number

/-- The natural number that a row of bytes denotes. -/
def toNat : List UInt8 → Nat
  | [] => 0
  | byte :: bytes => byte.toNat + 256 * toNat bytes

/-- The bytes of an integer in two's complement. -/
def ofInt (number : Int) : List UInt8 :=
  if short : -128 ≤ number ∧ number < 128 then [UInt8.ofNat (number % 256).toNat]
  else UInt8.ofNat (number % 256).toNat :: ofInt (number / 256)
termination_by number.natAbs
decreasing_by omega

/-- The integer that a row of bytes denotes in two's complement. -/
def toInt : List UInt8 → Int
  | [] => 0
  | [byte] => if byte < 128 then byte.toNat else (byte.toNat : Int) - 256
  | byte :: bytes => byte.toNat + 256 * toInt bytes

/-- The bytes of a text. -/
def ofText (text : String) : List UInt8 := text.toUTF8.data.toList

/-- The text that a row of bytes denotes, if it is valid UTF-8. -/
def toText? (bytes : List UInt8) : Option String := String.fromUTF8? (ByteArray.mk bytes.toArray)

end Calculator.Bytes
