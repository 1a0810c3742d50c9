import Calculator.Encoding.Writer

/-!
# Decoding values

Two readers of encoded values. `size` walks over an encoding and finds where it ends
without building anything; it is what separates the items of a sequence. `decode` builds
the value and checks that it is well formed: no negative zero, fractions in lowest
terms, valid text. It accepts numbers that are written longer than necessary, and values
that nest up to a limit.
-/

namespace Calculator.Encoding

/-- Reads from the front of a row of bytes and hands on what is left. -/
abbrev Reader := StateT (List UInt8) (Except Malformation)

namespace Reader

/-- A variable-length number. -/
def number : Reader UInt64 := fun bytes =>
  match Leb128.read bytes with
  | (some value, rest) => .ok (value, rest)
  | (none, _) => .error .truncatedNumber

/-- A given number of bytes. -/
def take (count : Nat) : Reader (List UInt8) := fun bytes =>
  let taken := bytes.take count
  if taken.length < count then .error .payloadTooLong else .ok (taken, bytes.drop count)

/-- Bytes with their number in front. -/
def counted : Reader (List UInt8) := do take (← number).toNat

/-- A text with the number of its bytes in front. -/
def text : Reader String := do
  match Bytes.toText? (← counted) with
  | some content => return content
  | none => throw .invalidText

end Reader

/-- Passes over the payload that a tag announces, given a way to pass over a value. -/
def skipPayload (skip : Reader Unit) (tag : Tag) : Reader Unit := do
  match tag with
  | .integer | .negativeInteger => discard Reader.number
  | .fraction | .negativeFraction =>
    discard Reader.number
    discard Reader.number
  | .wideFraction | .negativeWideFraction =>
    discard Reader.counted
    discard Reader.counted
  | .decimal32 | .decimal64 | .decimal128 =>
    discard Reader.number
    discard Reader.counted
  | .rectangular | .polar | .unit =>
    skip
    skip
  | _ => discard Reader.counted

/-- Passes over one encoded value. Every value within a value is announced by at least one
byte, so as many levels as there are bytes are enough. -/
def skipWithin : Nat → Reader Unit
  | 0 => throw .truncatedNumber
  | levels + 1 => do
    let number := (← Reader.number).toNat
    if Tag.commandBase ≤ number then return ()
    else
      match Tag.ofNumber? number with
      | some tag => skipPayload (skipWithin levels) tag
      | none => throw .unknownTag

/-- Passes over the encoded value at the front and answers its bytes. -/
def Reader.element : Reader (List UInt8) := fun bytes =>
  match skipWithin bytes.length bytes with
  | .ok (_, rest) => .ok (bytes.take (bytes.length - rest.length), rest)
  | .error reason => .error reason

/-- The number of bytes of the encoded value at the front. -/
def size (bytes : List UInt8) : Except Malformation Nat :=
  match skipWithin bytes.length bytes with
  | .ok (_, rest) => .ok (bytes.length - rest.length)
  | .error reason => .error reason

/-- The next encoded value of a payload, or the reason why it is malformed, and what is left
of the payload. At the end there is none. A malformed value is not passed over, so that
asking again gives the same reason. -/
def nextElement? (payload : List UInt8) :
    Option (Except Malformation (List UInt8) × List UInt8) :=
  if payload.isEmpty then none
  else
    match Reader.element payload with
    | .ok (element, rest) => some (.ok element, rest)
    | .error reason => some (.error reason, payload)

/-- The encoded values that a payload consists of, up to the first one that is malformed,
and the reason why it is. Every value has at least one byte, so as many steps as there are
bytes are enough. -/
def elementsWithin : Nat → List UInt8 → List (List UInt8) × Option Malformation
  | 0, _ => ([], none)
  | steps + 1, payload =>
    match nextElement? payload with
    | none => ([], none)
    | some (.error reason, _) => ([], some reason)
    | some (.ok element, rest) =>
      let (elements, reason) := elementsWithin steps rest
      (element :: elements, reason)

/-- The encoded values that a payload consists of. -/
def elements (payload : List UInt8) : List (List UInt8) × Option Malformation :=
  elementsWithin payload.length payload

/-- The fraction with the given sign and parts, if they are in lowest terms. -/
def fractionOf (negative : Bool) (numerator denominator : Nat) : Except Malformation Value :=
  let signed : Int := if negative then -(numerator : Int) else numerator
  if numerator = 0 then .error .unreducedFraction
  else
    match Fraction.ofReduced? signed denominator with
    | some fraction => .ok (.real (.fraction fraction))
    | none => .error .unreducedFraction

/-- An exponent of a term, which must fit a 32-bit word. -/
def Reader.exponent : Reader UInt32 := do
  let value ← Reader.number
  if value.toNat < UInt32.size then return value.toUInt32 else throw .exponentTooLarge

/-- Reads a number of things one after the other. -/
def Reader.times {Item : Type} (reader : Reader Item) : Nat → Reader (List Item)
  | 0 => return []
  | count + 1 => do
    let first ← reader
    let others ← Reader.times reader count
    return first :: others

/-- The terms of a polynomial in a number of variables, up to the end of the bytes. -/
def readTerms (value : Reader Value) (width : Nat) : Nat → Reader (List (Term Value))
  | 0 => return []
  | steps + 1 => do
    if (← get).isEmpty then return []
    else
      let factor ← value
      let exponents ← Reader.exponent.times width
      let others ← readTerms value width steps
      return ⟨factor, exponents⟩ :: others

/-- A polynomial that fills a row of bytes. -/
def readPolynomial (value : Reader Value) : Reader Polynomial := do
  let count := (← Reader.number).toNat
  let names ← Reader.times (Symbol.mk <$> Reader.text) count
  let terms ← readTerms value count (← get).length
  return ⟨names, terms⟩

/-- The items of a sequence that fills a payload. An item is decoded before the end of the
next one is looked for. -/
def readItems (value : Reader Value) : Nat → List UInt8 → Except Malformation (List Value)
  | 0, _ => .ok []
  | steps + 1, payload => do
    match nextElement? payload with
    | none => return []
    | some (.error reason, _) => throw reason
    | some (.ok element, rest) =>
      let (item, _) ← value element
      return item :: (← readItems value steps rest)

/-- Reads the payload that a tag announces, given a way to read a value inside it. -/
def readPayload (value : Reader Value) (tag : Tag) : Reader Value := do
  match tag with
  | .integer | .negativeInteger =>
    let magnitude ← Reader.number
    if tag.isNegative && magnitude == 0 then throw .negativeZero
    return .real (.word (Word.ofSign tag.isNegative magnitude))
  | .wide | .negativeWide =>
    let magnitude := Bytes.toNat (← Reader.counted)
    return .real (.ofInt (if tag.isNegative then -(magnitude : Int) else magnitude))
  | .fraction | .negativeFraction =>
    let numerator ← Reader.number
    let denominator ← Reader.number
    fractionOf tag.isNegative numerator.toNat denominator.toNat
  | .wideFraction | .negativeWideFraction =>
    let numerator ← Reader.counted
    let denominator ← Reader.counted
    fractionOf tag.isNegative (Bytes.toNat numerator) (Bytes.toNat denominator)
  | .decimal32 => readDecimal .decimal32
  | .decimal64 => readDecimal .decimal64
  | .decimal128 => readDecimal .decimal128
  | .rectangular => return .complex .rectangular (← value) (← value)
  | .polar => return .complex .polar (← value) (← value)
  | .symbol => return .symbol ⟨← Reader.text⟩
  | .text => return .text (← Reader.text)
  | .list => readSequence .list
  | .array => readSequence .array
  | .program => readSequence .program
  | .expression => readSequence .expression
  | .polynomial =>
    let payload ← Reader.counted
    let (p, _) ← readPolynomial value payload
    return .polynomial p
  | .unit =>
    let quantity ← value
    match ← value with
    | .sequence .expression items => return .unit quantity items
    | _ => throw .unitNotExpression
where
  readDecimal (precision : Precision) : Reader Value := do
    let scale := Leb128.unzigzag (← Reader.number)
    let mantissa := Bytes.toInt (← Reader.counted)
    return .real (.ofDecimal ⟨mantissa, scale⟩ precision)
  readSequence (kind : SequenceKind) : Reader Value := do
    let payload ← Reader.counted
    return .sequence kind (← readItems value payload.length payload)

/-- The deepest level at which a value may lie within another one. -/
def deepestLevel : Nat := 1024

/-- Reads a value that may have so many levels of values inside. -/
def readWithin : Nat → Reader Value
  | 0 => throw .nestingTooDeep
  | levels + 1 => do
    let number := (← Reader.number).toNat
    if Tag.commandBase ≤ number then
      match Command.ofOpcode? (number - Tag.commandBase) with
      | some command => return .command command
      | none => throw .unknownCommand
    else
      match Tag.ofNumber? number with
      | some tag => readPayload (readWithin levels) tag
      | none => throw .unknownTag

/-- Decodes the value at the front of a row of bytes and tells how many bytes it has. -/
def decode (bytes : List UInt8) : Except Malformation (Value × Nat) := do
  let (value, rest) ← readWithin (deepestLevel + 1) bytes
  return (value, bytes.length - rest.length)

end Calculator.Encoding
