import Calculator.Command
import Calculator.Fault
import Calculator.Number.Decimal.Literal
import Calculator.Text.Blank

/-!
# Tokens

The words of a command line. Splitting a line only cuts it up: whether `1/3` is a
fraction or a division, and whether a sign belongs to a number, is decided when the
tokens are read, from how close together they stand. Between tokens there may be blanks
and comments, which run from an at sign to the end of the line.

A character at which no token can begin makes the whole line unreadable. The fault points
to the furthest character that was looked at in vain, which lies behind the beginning of
a token that was begun and could not be finished.
-/

namespace Calculator

/-- A word of a command line. -/
inductive Token where
  /-- Digits with an optional point and exponent, without a sign. -/
  | number (text : String)
  /-- The characters between quotation marks, and whether the closing mark was there. -/
  | text (body : String) (closed : Bool)
  | name (text : String)
  | operator (command : Command)
  | openParenthesis
  | closeParenthesis
  | openBrace
  | closeBrace
  | openBracket
  | closeBracket
  | openProgram
  | closeProgram
  | quote
  | comma
  | semicolon
  | underscore
  | angle
  | polynomialMark
deriving DecidableEq, Repr

namespace Token

/-- The text of a token in a fault's wording. -/
def message : Token → String
  | number digits => digits
  | text body _ => "\"" ++ body ++ "\""
  | name letters => letters
  | operator command => command.symbol
  | openParenthesis => "("
  | closeParenthesis => ")"
  | openBrace => "\x7b"
  | closeBrace => "\x7d"
  | openBracket => "["
  | closeBracket => "]"
  | openProgram => "«"
  | closeProgram => "»"
  | quote => "'"
  | comma => ","
  | semicolon => ";"
  | underscore => "_"
  | angle => "∡"
  | polynomialMark => "Ⓟ"

/-- Whether a name may begin with a character. The mark of polynomials is a letter but
begins no name. -/
def beginsName (character : Char) : Bool :=
  character != 'Ⓟ'
    && (Text.isAlphabetic character || ['→', '▶', '∂', '∑', '∏', '∫'].contains character)

/-- Whether a name may go on with a character. Raised digits do not belong to a name, so
that a name may be squared. -/
def continuesName (character : Char) : Bool :=
  character != 'Ⓟ'
    && (Text.isAlphabetic character || Decimal.isDigit character || character == '→')

/-- A token, the characters it is written with and the characters behind it. -/
structure Scanned where
  token : Token
  lexeme : List Char
  rest : List Char

/-- The digits at the front of a row of characters, and the rest. -/
def scanDigits (characters : List Char) : List Char × List Char :=
  (characters.takeWhile Decimal.isDigit, characters.dropWhile Decimal.isDigit)

/-- The mantissa of a number: digits with an optional point, or a point with digits. -/
def scanMantissa? (characters : List Char) : Option (List Char × List Char) :=
  match scanDigits characters with
  | ([], '.' :: rest) =>
    match scanDigits rest with
    | ([], _) => none
    | (places, rest) => some ('.' :: places, rest)
  | ([], _) => none
  | (whole, '.' :: rest) =>
    let (places, rest) := scanDigits rest
    some (whole ++ '.' :: places, rest)
  | found => some found

/-- An optional sign. -/
def scanSign : List Char → List Char × List Char
  | '+' :: rest => (['+'], rest)
  | '-' :: rest => (['-'], rest)
  | rest => ([], rest)

/-- The exponent of a number: a mark, an optional sign and digits. If the digits are
missing, the result is what is left behind the mark and the sign. -/
def scanExponent? (characters : List Char) : Option (Except (List Char) (List Char × List Char)) :=
  match characters with
  | mark :: rest =>
    if mark == 'e' || mark == 'E' || mark == '⁳' then
      let (sign, rest) := scanSign rest
      match scanDigits rest with
      | ([], _) => some (.error rest)
      | (digits, rest) => some (.ok (mark :: sign ++ digits, rest))
    else none
  | [] => none

/-- Whether a row of characters begins with the raised e. -/
def atRaisedMark : List Char → Bool
  | '⁳' :: _ => true
  | _ => false

/-- A number. A letter behind it that is no exponent begins a name; a raised e that is no
exponent begins nothing, and the error is what is left where the exponent breaks off. -/
def scanNumber? (characters : List Char) : Option (Except (List Char) Scanned) :=
  match scanMantissa? characters with
  | none => none
  | some (mantissa, rest) =>
    match scanExponent? rest with
    | some (.ok (exponent, rest)) =>
      let lexeme := mantissa ++ exponent
      some (.ok ⟨.number (String.ofList lexeme), lexeme, rest⟩)
    | some (.error brokenOff) =>
      if atRaisedMark rest then some (.error brokenOff)
      else some (.ok ⟨.number (String.ofList mantissa), mantissa, rest⟩)
    | none => some (.ok ⟨.number (String.ofList mantissa), mantissa, rest⟩)

/-- A text between quotation marks. -/
def scanText? : List Char → Option Scanned
  | '"' :: characters =>
    let body := characters.takeWhile (· != '"')
    match characters.dropWhile (· != '"') with
    | mark :: rest => some ⟨.text (String.ofList body) true, '"' :: body ++ [mark], rest⟩
    | [] => some ⟨.text (String.ofList body) false, '"' :: body, []⟩
  | _ => none

/-- The name that begins with given characters and goes on in others. -/
def nameFrom (beginning characters : List Char) : Scanned :=
  let lexeme := beginning ++ characters.takeWhile continuesName
  ⟨.name (String.ofList lexeme), lexeme, characters.dropWhile continuesName⟩

/-- A name. An arrow at its beginning may be written with two characters. -/
def scanName? : List Char → Option Scanned
  | '-' :: '>' :: character :: rest =>
    if Text.isAlphabetic character then some (nameFrom ['-', '>', character] rest) else none
  | character :: rest =>
    if beginsName character then some (nameFrom [character] rest) else none
  | [] => none

/-- A mark of punctuation. -/
def scanMark? : List Char → Option Scanned
  | '<' :: '<' :: rest => some ⟨.openProgram, ['<', '<'], rest⟩
  | '>' :: '>' :: rest => some ⟨.closeProgram, ['>', '>'], rest⟩
  | '«' :: rest => some ⟨.openProgram, ['«'], rest⟩
  | '»' :: rest => some ⟨.closeProgram, ['»'], rest⟩
  | '(' :: rest => some ⟨.openParenthesis, ['('], rest⟩
  | ')' :: rest => some ⟨.closeParenthesis, [')'], rest⟩
  | '\x7b' :: rest => some ⟨.openBrace, ['\x7b'], rest⟩
  | '\x7d' :: rest => some ⟨.closeBrace, ['\x7d'], rest⟩
  | '[' :: rest => some ⟨.openBracket, ['['], rest⟩
  | ']' :: rest => some ⟨.closeBracket, [']'], rest⟩
  | '\'' :: rest => some ⟨.quote, ['\''], rest⟩
  | ',' :: rest => some ⟨.comma, [','], rest⟩
  | ';' :: rest => some ⟨.semicolon, [';'], rest⟩
  | '_' :: rest => some ⟨.underscore, ['_'], rest⟩
  | '∡' :: rest => some ⟨.angle, ['∡'], rest⟩
  | 'Ⓟ' :: rest => some ⟨.polynomialMark, ['Ⓟ'], rest⟩
  | _ => none

/-- The operator that is written with a single character. -/
def operatorOf? : Char → Option Command
  | '+' => some .add
  | '-' => some .subtract
  | '*' | '×' | '·' => some .multiply
  | '/' | '÷' => some .divide
  | '^' | '↑' => some .power
  | '=' => some .equation
  | '≠' => some .notEqual
  | '<' => some .less
  | '>' => some .greater
  | '≤' => some .lessOrEqual
  | '≥' => some .greaterOrEqual
  | '²' => some .square
  | '³' => some .cube
  | '!' => some .factorial
  | '√' => some .squareRoot
  | '|' => some .whereBound
  | _ => none

/-- An operator. Operators of two characters come before those of one. -/
def scanOperator? : List Char → Option Scanned
  | '⁻' :: '¹' :: rest => some ⟨.operator .invert, ['⁻', '¹'], rest⟩
  | '=' :: '=' :: rest => some ⟨.operator .same, ['=', '='], rest⟩
  | '<' :: '=' :: rest => some ⟨.operator .lessOrEqual, ['<', '='], rest⟩
  | '>' :: '=' :: rest => some ⟨.operator .greaterOrEqual, ['>', '='], rest⟩
  | '<' :: '>' :: rest => some ⟨.operator .notEqual, ['<', '>'], rest⟩
  | '!' :: '=' :: rest => some ⟨.operator .notEqual, ['!', '='], rest⟩
  | character :: rest =>
    (operatorOf? character).map fun command => ⟨.operator command, [character], rest⟩
  | [] => none

/-- What is left where the search for a token ends in vain: a point needs a digit behind
it and a raised minus a raised one. -/
def brokenOff : List Char → List Char
  | '.' :: rest => rest
  | '⁻' :: rest => rest
  | characters => characters

/-- The token at the front of a row of characters. The error is what is left where no token
goes on. -/
def scan (characters : List Char) : Except (List Char) Scanned :=
  match scanNumber? characters with
  | some result => result
  | none =>
    match scanText? characters <|> scanName? characters <|> scanMark? characters
        <|> scanOperator? characters with
    | some result => .ok result
    | none => .error (brokenOff characters)

/-- The number of bytes of a row of characters in UTF-8. -/
def byteLength (characters : List Char) : Nat :=
  characters.foldl (fun bytes character => bytes + character.utf8Size) 0

/-- Passes over blanks and comments, counting their bytes onto those already passed. -/
def skipBlanks (comment : Bool) : Nat → List Char → Nat × List Char
  | passed, [] => (passed, [])
  | passed, character :: rest =>
    let next := passed + character.utf8Size
    if comment then skipBlanks (character != '\n') next rest
    else if Text.isBlank character then skipBlanks false next rest
    else if character == '@' then skipBlanks true next rest
    else (passed, character :: rest)

/-- The fault of a text that cannot be split beyond the characters that are left. -/
def stray (size : Nat) (left : List Char) : Fault :=
  .strayCharacter ⟨size - byteLength left, ((left.head?.map Char.utf8Size).getD 0)⟩

/-- A token and where it stands. -/
structure Spanned where
  token : Token
  span : Span
deriving DecidableEq, Repr

/-- Splits the characters that are left of a text of a given size in bytes. Every token has
at least one character, so as many steps as there are characters are enough. -/
def splitWithin (size : Nat) : Nat → List Char → Nat → Outcome (List Spanned)
  | 0, _, _ => .ok []
  | steps + 1, characters, offset => do
    let (start, trimmed) := skipBlanks false offset characters
    if trimmed.isEmpty then return []
    else
      match scan trimmed with
      | .error left => throw (stray size left)
      | .ok found =>
        let length := byteLength found.lexeme
        let others ← splitWithin size steps found.rest (start + length)
        return ⟨found.token, ⟨start, length⟩⟩ :: others

/-- Splits a source text into tokens. -/
def split (source : String) : Outcome (List Spanned) :=
  splitWithin source.utf8ByteSize source.toList.length source.toList 0

end Token

end Calculator
