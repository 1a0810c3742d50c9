import Calculator.Encoding.Bytes
import Calculator.Encoding.Leb128
import Calculator.Encoding.Tag

/-!
# Encoding values

The bytes in which a value is kept on the heap: its tag and a payload that the tag
explains. Texts, large numbers, sequences and polynomials carry the length of their
payload in front, so that a reader can pass over them without looking inside.
-/

namespace Calculator.Encoding

/-- Bytes with their number in front. -/
def counted (bytes : List UInt8) : List UInt8 := Leb128.write bytes.length ++ bytes

/-- The number of a tag as bytes. -/
def tagBytes (tag : Tag) : List UInt8 := Leb128.write tag.number

/-- The payload of a real number. The sign of an exact number is in the tag. -/
def realPayload : Real → List UInt8
  | .word value => Leb128.write value.magnitude.toNat
  | .wide value => counted (Bytes.ofNat value.value.natAbs)
  | .fraction value =>
    if value.isSmall then
      Leb128.write value.numerator.natAbs ++ Leb128.write value.denominator
    else
      counted (Bytes.ofNat value.numerator.natAbs) ++ counted (Bytes.ofNat value.denominator)
  | .decimal value =>
    Leb128.write (Leb128.zigzag value.value.scale).toNat
      ++ counted (Bytes.ofInt value.value.mantissa)

/-- The names of variables, with their number in front. -/
def variableBytes (names : List Symbol) : List UInt8 :=
  Leb128.write names.length ++ names.flatMap fun name => counted (Bytes.ofText name.name)

mutual

/-- The encoding of a value. -/
def encode : Value → List UInt8
  | .real value => tagBytes (.ofReal value) ++ realPayload value
  | .complex form first second => tagBytes (.ofForm form) ++ encode first ++ encode second
  | .symbol name => tagBytes .symbol ++ counted (Bytes.ofText name.name)
  | .text content => tagBytes .text ++ counted (Bytes.ofText content)
  | .sequence kind items => tagBytes (.ofKind kind) ++ counted (encodeItems items)
  | .polynomial p => tagBytes .polynomial ++ counted (encodePolynomial p)
  | .unit value items =>
    tagBytes .unit ++ encode value ++ (tagBytes .expression ++ counted (encodeItems items))
  | .command command => Leb128.write (Tag.commandBase + command.opcode)

/-- The encodings of the items of a sequence, one after the other. -/
def encodeItems : List Value → List UInt8
  | [] => []
  | item :: items => encode item ++ encodeItems items

/-- The payload of a polynomial: its variables and its terms. -/
def encodePolynomial : PolynomialOver Value → List UInt8
  | ⟨names, terms⟩ => variableBytes names ++ encodeTerms terms

/-- The encodings of terms, one after the other. -/
def encodeTerms : List (Term Value) → List UInt8
  | [] => []
  | term :: terms => encodeTerm term ++ encodeTerms terms

/-- The encoding of a term: its factor and its exponents. -/
def encodeTerm : Term Value → List UInt8
  | ⟨factor, exponents⟩ =>
    encode factor ++ exponents.flatMap fun exponent => Leb128.write exponent.toNat

end

end Calculator.Encoding
