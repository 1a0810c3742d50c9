import Calculator.Arithmetic
import Calculator.Source.Token

/-!
# Reading source text

From tokens to values. On the command line, and inside lists, arrays and programs, values
stand side by side. Inside quotation marks there is one algebraic expression: operators
stand between, before and behind their operands, and the value that is read is the
expression in postfix order.

All operators between two operands group to the left, so that `2^3^2` is `(2^3)^2`. The
sign in front of a power belongs to the whole power.

Every construct that holds another one reads it one level deeper, and the number of
levels is limited by the settings. What can be read on the next level is therefore a
parameter of everything that reads a construct.
-/

namespace Calculator.Source

/-- What does not change while a line is read. -/
structure Line where
  settings : Preferences
  /-- The number of bytes of the line. -/
  size : Nat

/-- How far a line has been read. -/
structure Cursor where
  /-- Where the last token ended, if a token has been read. -/
  passed : Option Nat
  rest : List Token.Spanned

/-- Reads from a line, in computations that may do more than fail. -/
abbrev ReadingOn (Base : Type → Type) := ReaderT Line (StateT Cursor Base)

/-- Reads from a line. -/
abbrev Reading := ReadingOn Outcome

variable {Base : Type → Type} [Monad Base] [MonadExceptOf Fault Base]

/-- The next token. -/
def peek : ReadingOn Base (Option Token) := do
  return (← get).rest.head?.map Token.Spanned.token

/-- The place of the next token, or the end of the line. -/
def here : ReadingOn Base Span := do
  match (← get).rest with
  | next :: _ => return next.span
  | [] => return ⟨(← read).size, 0⟩

/-- Passes over the next token. -/
def advance : ReadingOn Base (Option Token.Spanned) := do
  match (← get).rest with
  | next :: rest =>
    set (Cursor.mk (some next.span.stop) rest)
    return some next
  | [] => return none

/-- The number of bytes up to the end of the last token. -/
def consumed : ReadingOn Base Nat := do return (← get).passed.getD 0

/-- Whether the next token begins where the last one ended. -/
def isAdjacent : ReadingOn Base Bool := do
  match ← get with
  | ⟨some stop, next :: _⟩ => return next.span.offset == stop
  | _ => return false

/-- Passes over the next token if it is a given one that touches the last token. -/
def advanceAdjacent (token : Token) : ReadingOn Base Bool := do
  if (← isAdjacent) && (← peek) == some token then
    discard advance
    return true
  else return false

/-- Passes over the next token if it is a number that touches the last token. -/
def adjacentNumber? : ReadingOn Base (Option (String × Span)) := do
  if ← isAdjacent then
    match (← get).rest with
    | ⟨.number text, span⟩ :: _ =>
      discard advance
      return some (text, span)
    | _ => return none
  else return none

/-- Passes over commas and semicolons. -/
def Cursor.skipSeparators (cursor : Cursor) : Cursor :=
  go cursor.passed cursor.rest
where
  go (passed : Option Nat) : List Token.Spanned → Cursor
    | [] => ⟨passed, []⟩
    | next :: rest =>
      if next.token == .comma || next.token == .semicolon then go (some next.span.stop) rest
      else ⟨passed, next :: rest⟩

/-- The fault of a construct that the line ends in. -/
def unterminated (construct : Construct) (opening : Span) : ReadingOn Base Fault := do
  return .unterminated construct (.between opening.offset (← read).size)

/-- Whether a text consists of digits only. -/
def isPlainNumber (text : String) : Bool := text.toList.all Decimal.isDigit

/-- The number that a token stands for: an integer if it has digits only, and otherwise a
decimal of the tier in the settings. -/
def number (text : String) (span : Span) : ReadingOn Base Real := do
  if isPlainNumber text then return .ofInt (Digits.read text.toList)
  else
    match Decimal.literal? text with
    | some value => return .ofDecimal value (← read).settings.precision
    | none => throw (.invalidNumber text span)

/-- What can be read one level deeper. -/
structure DeeperOn (Base : Type → Type) where
  /-- An algebraic expression up to an operator that binds less tightly. -/
  algebraic : Precedence → ReadingOn Base (List Value)
  /-- The items of a sequence and its closing mark. -/
  sequence : SequenceKind → Span → ReadingOn Base Value

/-- What can be read one level deeper by a reader that may only fail. -/
abbrev Deeper := DeeperOn Outcome

section Constructs

variable (deeper : DeeperOn Base)

/-- A unit behind a value, written without a blank between them. -/
def unitSuffix (value : Value) : ReadingOn Base Value := do
  if ← advanceAdjacent .underscore then
    return .unit value (← deeper.algebraic Precedence.multiplicative)
  else return value

/-- The denominator behind a numerator and a stroke that touch. Without digits behind the
stroke nothing is passed over. -/
def denominator? : ReadingOn Base (Option Real) := do
  let start ← get
  if ← advanceAdjacent (.operator .divide) then
    match ← adjacentNumber? with
    | some (text, span) =>
      if isPlainNumber text then return some (← number text span)
    | none => pure ()
  set start
  return none

/-- A literal with what may touch it: a denominator behind an integer, and a unit. -/
def literalSuffix (value : Value) : ReadingOn Base Value := do
  match value.toInt? with
  | some numerator =>
    match ← denominator? with
    | some denominator =>
      let quotient ← MonadExcept.ofExcept (Real.ofQuotient numerator (denominator.toInt?.getD 0))
      unitSuffix deeper (.real quotient)
    | none => unitSuffix deeper value
  | none => unitSuffix deeper value

/-- The closing parenthesis of an opening one. -/
def closeParenthesis (opening : Span) : ReadingOn Base Unit := do
  match ← peek with
  | some .closeParenthesis => discard advance
  | some token => throw (.unexpectedToken token.message (← here))
  | none => throw (← unterminated .parentheses opening)

/-- The expression between quotation marks, of which the first has been read. -/
def quoted (opening : Span) : ReadingOn Base (List Value) := do
  let items ← deeper.algebraic Precedence.parentheses
  match ← advance with
  | some ⟨.quote, _⟩ => return items
  | some ⟨token, span⟩ => throw (.unexpectedToken token.message span)
  | none => throw (← unterminated .expression opening)

/-- The expression behind the mark of polynomials, as a polynomial. -/
def polynomial (mark : Span) : ReadingOn Base Value := do
  let opening ← here
  if (← peek) == some .quote then
    discard advance
    let items ← quoted deeper opening
    let settings := (← read).settings
    match Polynomial.ofExpression (Arithmetic.operations settings) settings items with
    | .ok p => return .polynomial p
    | .error reason => throw (.notPolynomial reason (.between mark.offset (← consumed)))
  else throw (.polynomialExpected mark)

/-- The part of a complex number, which must be a single real number. -/
def complexPart (items : List Value) (opening : Span) : ReadingOn Base Value :=
  match items with
  | [.real part] => return .real part
  | _ => throw (.partsNotReal opening)

/-- The second part of a complex number of a form, from the mark between the parts on. -/
def complexFrom (form : ComplexForm) (first : List Value) (opening : Span) :
    ReadingOn Base (List Value) := do
  let first ← complexPart first opening
  discard advance
  let second ← complexPart (← deeper.algebraic Precedence.parentheses) opening
  closeParenthesis opening
  return [.complex form first second]

/-- An expression in parentheses, or a complex number. -/
def parenthesized (opening : Span) : ReadingOn Base (List Value) := do
  let items ← deeper.algebraic Precedence.parentheses
  match ← peek with
  | some .semicolon => complexFrom deeper .rectangular items opening
  | some .angle => complexFrom deeper .polar items opening
  | _ =>
    closeParenthesis opening
    return items

/-- A complex number on the command line. -/
def complex (opening : Span) : ReadingOn Base Value := do
  match ← parenthesized deeper opening with
  | [.complex form first second] => return .complex form first second
  | _ => throw (.complexExpected opening)

/-- A text, which must be closed. -/
def text (body : String) (closed : Bool) (span : Span) : ReadingOn Base Value := do
  if closed then return .text body else throw (← unterminated .text span)

/-- The value that begins with a token on the command line. -/
def objectFrom (token : Token) (span : Span) : ReadingOn Base Value := do
  match token with
  | .number digits => literalSuffix deeper (.real (← number digits span))
  | .operator .subtract =>
    match ← adjacentNumber? with
    | some (digits, span) => literalSuffix deeper (.real (← number digits span).negated)
    | none => return .command .subtract
  | .operator command => return .command command
  | .name name =>
    match Command.lookup? name with
    | some command => return .command command
    | none => literalSuffix deeper (.symbol ⟨name⟩)
  | .text body closed => text body closed span
  | .openBrace => deeper.sequence .list span
  | .openBracket => deeper.sequence .array span
  | .openProgram => deeper.sequence .program span
  | .quote => return .expression (← quoted deeper span)
  | .polynomialMark => polynomial deeper span
  | .openParenthesis => complex deeper span
  | other => throw (.unexpectedToken other.message span)

/-- The next value on the command line, if there is one. -/
def object? : ReadingOn Base (Option Value) := do
  modify Cursor.skipSeparators
  match ← advance with
  | some next => return some (← objectFrom deeper next.token next.span)
  | none => return none

/-- The mark that closes a sequence. -/
def closing : SequenceKind → Token
  | .list => .closeBrace
  | .array => .closeBracket
  | .program => .closeProgram
  | .expression => .quote

/-- The items of a sequence up to its closing mark. An item has at least one token, so as
many steps as there are tokens are enough. -/
def itemsWithin (kind : SequenceKind) (opening : Span) : Nat → ReadingOn Base (List Value)
  | 0 => do throw (← unterminated kind.construct opening)
  | steps + 1 => do
    match ← peek with
    | none => throw (← unterminated kind.construct opening)
    | some token =>
      if token == closing kind then
        discard advance
        return []
      else if token == .comma || token == .semicolon then
        discard advance
        itemsWithin kind opening steps
      else
        let item ← object? deeper
        let others ← itemsWithin kind opening steps
        return item.toList ++ others

/-- A sequence whose opening mark has been read. -/
def sequenceItems (kind : SequenceKind) (opening : Span) : ReadingOn Base Value := do
  return .sequence kind (← itemsWithin deeper kind opening ((← get).rest.length + 1))

/-- The operator between operands that comes next, if there is one. -/
def infixed? : ReadingOn Base (Option Command) := do
  let command :=
    match ← peek with
    | some (.operator command) => some command
    | some (.name name) => Command.lookup? name
    | _ => none
  return command.filter fun command => command.fixity == .infixed

/-- The operand behind an operator in front of it. The sign of a real number is taken into
the number. -/
def prefixedOperand (command : Command) : ReadingOn Base (List Value) := do
  let items ← deeper.algebraic (command.precedence + 1)
  match command, items with
  | .negate, [.real number] => return [.real number.negated]
  | _, _ => return items ++ [.command command]

/-- The further arguments of a function, each behind a separator. -/
def furtherArguments : Nat → ReadingOn Base (List (List Value))
  | 0 => return []
  | count + 1 => do
    match ← peek with
    | some .semicolon | some .comma =>
      discard advance
      let argument ← deeper.algebraic Precedence.parentheses
      return argument :: (← furtherArguments count)
    | _ => throw (.argumentExpected (← here))

/-- The arguments of a function: in parentheses, or a single one without. The degree of a
root is written first but comes last. -/
def application (command : Command) : ReadingOn Base (List Value) := do
  if (← peek) == some .openParenthesis then
    let opening ← here
    discard advance
    let first ← deeper.algebraic Precedence.parentheses
    let others ← furtherArguments deeper (command.arity - 1)
    closeParenthesis opening
    let arguments := first :: others
    let arguments := if command == .nthRoot then arguments.reverse else arguments
    return arguments.flatten ++ [.command command]
  else if command.arity == 1 then
    return (← deeper.algebraic Precedence.function) ++ [.command command]
  else throw (.argumentExpected (← here))

/-- What a name stands for inside an expression. -/
def named (name : String) (span : Span) : ReadingOn Base (List Value) := do
  match Command.lookup? name with
  | none => return [.symbol ⟨name⟩]
  | some command =>
    match command.fixity with
    | .stack => throw (.notAlgebraic name span)
    | .function => application deeper command
    | .prefixed => prefixedOperand deeper command
    | .infixed => throw (.valueExpected name span)
    | .postfixed =>
      if (← peek) == some .openParenthesis then application deeper command
      else throw (.valueExpected name span)

/-- An operand without the operators behind it. -/
def operand : ReadingOn Base (List Value) := do
  let span ← here
  match ← advance with
  | none => throw (.argumentExpected span)
  | some ⟨token, _⟩ =>
    match token with
    | .number digits => return [← unitSuffix deeper (.real (← number digits span))]
    | .text body closed => return [← text body closed span]
    | .operator .subtract => prefixedOperand deeper .negate
    | .operator .squareRoot => application deeper .squareRoot
    | .operator command => throw (.valueExpected command.symbol span)
    | .name name => named deeper name span
    | .openParenthesis => parenthesized deeper span
    | .polynomialMark => return [← polynomial deeper span]
    | _ => throw (.argumentExpected span)

/-- The operators behind an operand that come first in a row of tokens, and where the row
goes on. -/
def postfixedFrom (passed : Option Nat) : List Token.Spanned → List Value × Cursor
  | [] => ([], ⟨passed, []⟩)
  | next :: rest =>
    match next.token with
    | .operator command =>
      if command.fixity == .postfixed then
        let (others, cursor) := postfixedFrom (some next.span.stop) rest
        (.command command :: others, cursor)
      else ([], ⟨passed, next :: rest⟩)
    | _ => ([], ⟨passed, next :: rest⟩)

/-- An operand with the operators behind it. -/
def primary : ReadingOn Base (List Value) := do
  let items ← operand deeper
  let cursor ← get
  let (operators, cursor) := postfixedFrom cursor.passed cursor.rest
  set cursor
  return items ++ operators

/-- The bindings in parentheses behind a bar. -/
def bindingsWithin (opening : Span) : Nat → ReadingOn Base (List Value)
  | 0 => do throw (.argumentExpected (← here))
  | steps + 1 => do
    let binding ← deeper.algebraic Precedence.equation
    match ← peek with
    | some .semicolon | some .comma =>
      discard advance
      let others ← bindingsWithin opening steps
      return binding ++ .command .whereBound :: others
    | _ =>
      closeParenthesis opening
      return binding ++ [.command .whereBound]

/-- The bindings behind a bar: one without parentheses or several within. Each of them
takes what precedes it for its body. -/
def bindings : ReadingOn Base (List Value) := do
  if (← peek) == some .openParenthesis then
    let opening ← here
    discard advance
    bindingsWithin deeper opening ((← get).rest.length + 1)
  else return (← deeper.algebraic Precedence.equation) ++ [.command .whereBound]

/-- The operators that bind at least as tightly as a minimum, with their right operands.
An operator is a token, so as many steps as there are tokens are enough. -/
def climbWithin (minimum : Precedence) : Nat → ReadingOn Base (List Value)
  | 0 => return []
  | steps + 1 => do
    match ← infixed? with
    | none => return []
    | some command =>
      if command.precedence < minimum then return []
      else
        discard advance
        let items ←
          if command == .whereBound then bindings deeper
          else (· ++ [.command command]) <$> deeper.algebraic (command.precedence + 1)
        return items ++ (← climbWithin minimum steps)

/-- An expression up to the first operator that binds less tightly than a minimum. -/
def climb (minimum : Precedence) : ReadingOn Base (List Value) := do
  let first ← primary deeper
  return first ++ (← climbWithin deeper minimum (← get).rest.length)

end Constructs

/-- The fault of a construct that lies too deep. -/
def tooDeep {Result : Type} : ReadingOn Base Result := do throw (.nestingTooDeep (← here))

mutual

/-- An expression that may have so many levels. -/
def algebraicWithin : Nat → Precedence → Reading (List Value)
  | 0, _ => tooDeep
  | levels + 1, minimum =>
    climb ⟨fun minimum => algebraicWithin levels minimum,
      fun kind opening => sequenceWithin levels kind opening⟩ minimum

/-- A sequence that may have so many levels. -/
def sequenceWithin : Nat → SequenceKind → Span → Reading Value
  | 0, _, _ => tooDeep
  | levels + 1, kind, opening =>
    sequenceItems ⟨fun minimum => algebraicWithin levels minimum,
      fun kind opening => sequenceWithin levels kind opening⟩ kind opening

end

/-- What can be read inside a construct on the command line. -/
def outermost (settings : Preferences) : Deeper :=
  ⟨algebraicWithin settings.maxRecursion.toNat, sequenceWithin settings.maxRecursion.toNat⟩

/-- Reads from a source text. -/
def start {Result : Type} (source : String) (settings : Preferences) (reading : Reading Result) :
    Outcome Result := do
  let tokens ← Token.split source
  let (result, _) ← reading ⟨settings, source.utf8ByteSize⟩ ⟨none, tokens⟩
  return result

/-- All values up to the end of the line. -/
def objectsWithin (deeper : DeeperOn Base) : Nat → ReadingOn Base (List Value)
  | 0 => return []
  | steps + 1 => do
    match ← object? deeper with
    | none => return []
    | some item => return item :: (← objectsWithin deeper steps)

/-- The values of a command line, in their order. -/
def readLine (source : String) (settings : Preferences) : Outcome (List Value) :=
  start source settings do objectsWithin (outermost settings) (← get).rest.length

/-- A value and the number of bytes that were read for it. -/
def withConsumed (value : Value) : Reading (Option (Value × Nat)) := do
  return some (value, ← consumed)

/-- Reads the first value of a text. With a kind, the text is the inside of a sequence whose
opening mark has been read already. Without one, the precedence decides: zero reads a
value of the command line, and any other an expression up to an operator that binds less
tightly. There is no value if the text has no tokens. -/
def readObject (source : String) (settings : Preferences) (kind : Option SequenceKind)
    (precedence : Precedence) : Outcome (Option (Value × Nat)) :=
  let deeper := outermost settings
  start source settings do
    match kind with
    | some .expression => withConsumed (.expression (← quoted deeper ⟨0, 0⟩))
    | some kind => withConsumed (← deeper.sequence kind ⟨0, 0⟩)
    | none =>
      if precedence = 0 then
        match ← object? deeper with
        | some value => withConsumed value
        | none => return none
      else if (← peek).isNone then return none
      else withConsumed (.expression (← deeper.algebraic precedence))

end Calculator.Source
