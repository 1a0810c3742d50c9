import Calculator.Value

/-!
# Type tags

The number in front of every encoded value, which tells what follows. The sign of an
exact number and the tier of a decimal are part of the tag. Commands have no payload:
their tags are their own numbers, counted from `commandBase` on.
-/

namespace Calculator

/-- What kind of value an encoding holds. -/
inductive Tag where
  | integer | negativeInteger | wide | negativeWide
  | fraction | negativeFraction | wideFraction | negativeWideFraction
  | decimal32 | decimal64 | decimal128
  | rectangular | polar
  | symbol | text | list | array | program | expression | polynomial | unit
deriving DecidableEq, Repr

namespace Tag

/-- The first tag of a command. -/
def commandBase : Nat := 64

/-- The tags, in ascending order of their numbers. -/
def all : List Tag :=
  [integer, negativeInteger, wide, negativeWide, fraction, negativeFraction, wideFraction,
    negativeWideFraction, decimal32, decimal64, decimal128, rectangular, polar, symbol, text,
    list, array, program, expression, polynomial, unit]

/-- The number of a tag. -/
def number : Tag → Nat
  | integer => 1
  | negativeInteger => 2
  | wide => 3
  | negativeWide => 4
  | fraction => 5
  | negativeFraction => 6
  | wideFraction => 7
  | negativeWideFraction => 8
  | decimal32 => 9
  | decimal64 => 10
  | decimal128 => 11
  | rectangular => 12
  | polar => 13
  | symbol => 16
  | text => 17
  | list => 18
  | array => 19
  | program => 20
  | expression => 21
  | polynomial => 22
  | unit => 23

/-- The name of a tag. -/
def name : Tag → String
  | integer => "Integer"
  | negativeInteger => "NegInteger"
  | wide => "Bignum"
  | negativeWide => "NegBignum"
  | fraction => "Fraction"
  | negativeFraction => "NegFraction"
  | wideFraction => "BigFraction"
  | negativeWideFraction => "NegBigFraction"
  | decimal32 => "Decimal32"
  | decimal64 => "Decimal64"
  | decimal128 => "Decimal128"
  | rectangular => "Rectangular"
  | polar => "Polar"
  | symbol => "Symbol"
  | text => "Text"
  | list => "List"
  | array => "Array"
  | program => "Program"
  | expression => "Expression"
  | polynomial => "Polynomial"
  | unit => "Unit"

/-- The tag with a number. -/
def ofNumber? (number : Nat) : Option Tag := all.find? fun tag => tag.number == number

/-- The tag with a name, in any mixture of capital and small ASCII letters. -/
def ofName? (text : String) : Option Tag :=
  all.find? fun tag => tag.name.map Char.toLower == text.map Char.toLower

/-- Whether the tag is that of an integer. -/
def isInteger : Tag → Bool
  | integer | negativeInteger | wide | negativeWide => true
  | _ => false

/-- Whether the tag is that of a fraction. -/
def isFraction : Tag → Bool
  | fraction | negativeFraction | wideFraction | negativeWideFraction => true
  | _ => false

/-- The tier of precision that a tag stands for. -/
def precision? : Tag → Option Precision
  | decimal32 => some .decimal32
  | decimal64 => some .decimal64
  | decimal128 => some .decimal128
  | _ => none

/-- Whether the tag is that of a decimal. -/
def isDecimal (tag : Tag) : Bool := tag.precision?.isSome

/-- Whether the tag is that of a real number. -/
def isReal (tag : Tag) : Bool := tag.isInteger || tag.isFraction || tag.isDecimal

/-- Whether the tag is that of a complex number. -/
def isComplex : Tag → Bool
  | rectangular | polar => true
  | _ => false

/-- Whether the tag is that of a number. -/
def isNumber (tag : Tag) : Bool := tag.isReal || tag.isComplex

/-- Whether the tag is that of an exact number below zero. -/
def isNegative : Tag → Bool
  | negativeInteger | negativeWide | negativeFraction | negativeWideFraction => true
  | _ => false

/-- The kind of sequence that a tag stands for. -/
def sequenceKind? : Tag → Option SequenceKind
  | list => some .list
  | array => some .array
  | program => some .program
  | expression => some .expression
  | _ => none

/-- Whether the tag is that of a sequence. -/
def isSequence (tag : Tag) : Bool := tag.sequenceKind?.isSome

/-- The tag of a decimal of a tier. -/
def ofPrecision : Precision → Tag
  | .decimal32 => decimal32
  | .decimal64 => decimal64
  | .decimal128 => decimal128

/-- The tag of a real number. -/
def ofReal : Real → Tag
  | .word value => if value.negative then negativeInteger else integer
  | .wide value => if value.value < 0 then negativeWide else wide
  | .fraction value =>
    match value.isSmall, value.isNegative with
    | true, false => fraction
    | true, true => negativeFraction
    | false, false => wideFraction
    | false, true => negativeWideFraction
  | .decimal value => ofPrecision value.precision

/-- The tag of a complex number. -/
def ofForm : ComplexForm → Tag
  | .rectangular => rectangular
  | .polar => polar

/-- The tag of a sequence. -/
def ofKind : SequenceKind → Tag
  | .list => list
  | .array => array
  | .program => program
  | .expression => expression

/-- The tag of a value. Commands have a number but no tag. -/
def ofValue? : Value → Option Tag
  | .real value => some (ofReal value)
  | .complex form _ _ => some (ofForm form)
  | .symbol _ => some symbol
  | .text _ => some text
  | .sequence kind _ => some (ofKind kind)
  | .polynomial _ => some polynomial
  | .unit _ _ => some unit
  | .command _ => none

/-- The number in front of the encoding of a value. -/
def numberOf : Value → Nat
  | .command command => commandBase + command.opcode
  | value => ((ofValue? value).map number).getD 0

end Tag

end Calculator
