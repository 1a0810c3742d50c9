import Calculator.Number.Decimal

/-!
# Decimal literals

The decimals that can be written down: digits with an optional point and an optional
exponent. The exponent is marked by a letter or by the small raised e of the
calculator's keyboard.
-/

namespace Calculator.Decimal

/-- Whether a character is one of the ten ASCII digits. -/
def isDigit (character : Char) : Bool := '0' ≤ character && character ≤ '9'

/-- Reads an unsigned row of digits, in which underscores may stand behind the first
digit. -/
def readMagnitude? (characters : List Char) : Option Nat :=
  match characters with
  | [] => none
  | '_' :: _ => none
  | _ =>
    if characters.all fun c => isDigit c || c == '_' then
      some (Digits.read (characters.filter isDigit))
    else none

/-- Reads digits with at most one sign in front of them. -/
def readInteger? : List Char → Option Int
  | '-' :: rest => (readMagnitude? rest).map fun magnitude => -(magnitude : Int)
  | '+' :: rest => (readMagnitude? rest).map fun magnitude => (magnitude : Int)
  | other => (readMagnitude? other).map fun magnitude => (magnitude : Int)

/-- Reads an exponent: digits with an optional sign that fit a 128-bit word. -/
def readExponent? (characters : List Char) : Option Int :=
  let read (negative : Bool) (digits : List Char) : Option Int :=
    if digits.isEmpty || !digits.all isDigit then none
    else
      let magnitude : Int := Digits.read digits
      let value := if negative then -magnitude else magnitude
      if -(twoTo 127 : Int) ≤ value && value < (twoTo 127 : Int) then some value else none
  match characters with
  | '-' :: rest => read true rest
  | '+' :: rest => read false rest
  | other => read false other

/-- Splits a row of characters at the first one that satisfies a condition; that
character is dropped. -/
def splitAtFirst (condition : Char → Bool) (characters : List Char) :
    List Char × Option (List Char) :=
  match characters.dropWhile fun c => !condition c with
  | [] => (characters, none)
  | _ :: rest => (characters.takeWhile fun c => !condition c, some rest)

/-- Reads a decimal: an integer with an optional point in it and an optional exponent. The
scale is the number of digits behind the point less the exponent, and must fit a signed
machine word. -/
def read? (characters : List Char) : Option Decimal := do
  let (base, exponentText) := splitAtFirst (fun c => c == 'e' || c == 'E') characters
  let exponent ←
    match exponentText with
    | none => some 0
    | some text => readExponent? text
  if base.isEmpty then none
  else
    let (lead, trail) := splitAtFirst (· == '.') base
    let (row, places) :=
      match trail with
      | none => (base, 0)
      | some digits => (lead ++ digits, (digits.filter (· != '_')).length)
    let mantissa ← readInteger? row
    let scale : Int := (places : Int) - exponent
    if Int64.minValue.toInt ≤ scale && scale ≤ Int64.maxValue.toInt then some ⟨mantissa, Int64.ofInt scale⟩ else none

/-- Puts the letter E for the raised e. -/
def plainExponent (characters : List Char) : List Char :=
  characters.map fun c => if c == '⁳' then 'E' else c

/-- Removes a point that stands directly in front of an exponent letter. -/
def joinExponent (letter : Char) : List Char → List Char
  | '.' :: next :: rest =>
    if next == letter then letter :: joinExponent letter rest
    else '.' :: joinExponent letter (next :: rest)
  | character :: rest => character :: joinExponent letter rest
  | [] => []

/-- Reads a literal as the user writes it. A point may be the first or the last character
of the digits. -/
def literal? (text : String) : Option Decimal :=
  let joined := joinExponent 'e' (joinExponent 'E' (plainExponent text.toList))
  let trimmed := if joined.getLast? == some '.' then joined.dropLast else joined
  match trimmed with
  | '.' :: rest => read? ('0' :: '.' :: rest)
  | other => read? other

end Calculator.Decimal
