import Calculator.Number.Power
import Calculator.Settings.Toml

/-!
# TOML scalars

The items of a TOML document that are written without quotation marks or brackets: truth
values, integers in four bases, numbers with a fraction or an exponent, dates and times.
Digits may be parted by single underscores.
-/

namespace Calculator.Toml

/-- Whether a character may be in an unquoted scalar. -/
def isScalarCharacter (c : Char) : Bool :=
  c.isAlphanum || c == '+' || c == '-' || c == '_' || c == '.' || c == ':'

/-- The value of a digit in bases up to sixteen. -/
def digitValue? (base : Nat) (c : Char) : Option Nat :=
  let value :=
    if '0' ≤ c && c ≤ '9' then c.toNat - '0'.toNat
    else if 'a' ≤ c && c ≤ 'f' then c.toNat - 'a'.toNat + 10
    else if 'A' ≤ c && c ≤ 'F' then c.toNat - 'A'.toNat + 10
    else base
  if value < base then some value else none

/-- The values of digits that may be parted by single underscores. There is at least one
digit, and every underscore is between two of them. -/
def digitsFrom (base : Nat) (afterDigit : Bool) : List Char → Option (List Nat)
  | [] => if afterDigit then some [] else none
  | c :: rest =>
    match digitValue? base c with
    | some digit => (digitsFrom base true rest).map (digit :: ·)
    | none => if c == '_' && afterDigit then digitsFrom base false rest else none

/-- The natural number that digits denote. -/
def natural? (base : Nat) (text : List Char) : Option Nat :=
  (digitsFrom base false text).map fun digits =>
    digits.foldl (fun value digit => value * base + digit) 0

/-- A text without its sign, and whether the sign is a minus. -/
def unsigned : List Char → Bool × List Char
  | '-' :: rest => (true, rest)
  | '+' :: rest => (false, rest)
  | rest => (false, rest)

/-- A decimal integer with an optional sign, without needless zeros in front. -/
def decimalInteger? (text : List Char) : Option Int := do
  let (negative, digits) := unsigned text
  let magnitude ← natural? 10 digits
  if digits.head? == some '0' && 1 < digits.length then none
  else return if negative then -(magnitude : Int) else magnitude

/-- An integer in base ten, or with a mark in front in base two, eight or sixteen. -/
def anyInteger? (text : List Char) : Option Int :=
  match text with
  | '0' :: 'x' :: digits => (natural? 16 digits).map Int.ofNat
  | '0' :: 'o' :: digits => (natural? 8 digits).map Int.ofNat
  | '0' :: 'b' :: digits => (natural? 2 digits).map Int.ofNat
  | _ => decimalInteger? text

/-- An integer that fits 128 bits, signed or unsigned. -/
def integer? (text : List Char) : Option Int :=
  (anyInteger? text).filter fun value => -(twoTo 127 : Int) ≤ value && value < (twoTo 128 : Int)

/-- Whether a text is an exponent behind its mark. -/
def isExponent (text : List Char) : Bool := (natural? 10 (unsigned text).2).isSome

/-- Whether a text is a number with a fraction, with an exponent or with both. -/
def isFractional (text : List Char) : Bool :=
  let isMark (c : Char) : Bool := c == 'e' || c == 'E'
  let mantissa := text.takeWhile fun c => !isMark c
  let exponent := text.drop mantissa.length
  let whole := mantissa.takeWhile (· != '.')
  let fraction := mantissa.drop whole.length
  (decimalInteger? whole).isSome
    && (fraction.isEmpty || (natural? 10 (fraction.drop 1)).isSome)
    && (exponent.isEmpty || isExponent (exponent.drop 1))
    && !(fraction.isEmpty && exponent.isEmpty)

/-- Whether a text is one of the special numbers. -/
def isSpecial (text : List Char) : Bool :=
  let name := (unsigned text).2
  name == ['i', 'n', 'f'] || name == ['n', 'a', 'n']

/-- The number of days in a month of a year. -/
def daysIn (year month : Nat) : Nat :=
  if month = 2 then
    if year % 4 = 0 && (year % 100 != 0 || year % 400 = 0) then 29 else 28
  else if month = 4 || month = 6 || month = 9 || month = 11 then 30
  else 31

/-- The number of exactly so many digits in front of a text, and the rest. -/
def fixedDigits? (count : Nat) (text : List Char) : Option (Nat × List Char) :=
  let digits := text.take count
  if digits.length = count && digits.all Char.isDigit then
    (natural? 10 digits).map fun value => (value, text.drop count)
  else none

/-- The rest behind a date in front of a text. -/
def date? (text : List Char) : Option (List Char) := do
  let (year, text) ← fixedDigits? 4 text
  if text.head? != some '-' then none
  let (month, text) ← fixedDigits? 2 (text.drop 1)
  if text.head? != some '-' then none
  let (day, text) ← fixedDigits? 2 (text.drop 1)
  if 1 ≤ month && month ≤ 12 && 1 ≤ day && day ≤ daysIn year month then some text else none

/-- The rest behind the seconds of a time, which may be left out. -/
def seconds? (text : List Char) : Option (List Char) :=
  match text with
  | ':' :: text => do
    let (second, text) ← fixedDigits? 2 text
    if 60 < second then none
    match text with
    | '.' :: text =>
      let fraction := text.takeWhile Char.isDigit
      if fraction.isEmpty then none else some (text.drop fraction.length)
    | _ => some text
  | _ => some text

/-- The rest behind hours and minutes in front of a text. -/
def clock? (text : List Char) : Option (List Char) := do
  let (hour, text) ← fixedDigits? 2 text
  if text.head? != some ':' then none
  let (minute, text) ← fixedDigits? 2 (text.drop 1)
  if hour < 24 && minute < 60 then some text else none

/-- The rest behind a time in front of a text. -/
def time? (text : List Char) : Option (List Char) := do seconds? (← clock? text)

/-- Whether a text is empty or the distance of a time zone. -/
def isZone (text : List Char) : Bool :=
  match text with
  | [] | ['Z'] | ['z'] => true
  | sign :: text => (sign == '+' || sign == '-') && clock? text == some []

/-- Whether a text is a date, a time or both. -/
def isMoment (text : List Char) : Bool :=
  match date? text with
  | some [] => true
  | some (mark :: text) =>
    (mark == 'T' || mark == 't' || mark == ' ') && ((time? text).map isZone).getD false
  | none => time? text == some []

/-- Whether a text is a date, so that a time may follow behind a space. -/
def isDate (text : List Char) : Bool := date? text == some []

/-- The item that an unquoted scalar denotes. -/
def scalar? (text : List Char) : Option Item :=
  if text == ['t', 'r', 'u', 'e'] then some (.truth true)
  else if text == ['f', 'a', 'l', 's', 'e'] then some (.truth false)
  else
    match integer? text with
    | some value => some (.integer value)
    | none => if isFractional text || isSpecial text || isMoment text then some .other else none

end Calculator.Toml
