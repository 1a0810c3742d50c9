import Calculator.Proofs.Source.Numerals
import Mathlib

/-!
# Rows of tokens

A row of tokens is written token by token, with or without a blank in front of each. If every
token may stand in front of what follows it, splitting the text gives the row back, each token at
the place where it was written. Tokens that are cut off by a mark of their own may stand in front
of anything; a number or a name must not run on in what follows, nor an operator become another
one.
-/

namespace Calculator.Token

/-! ## Characters -/

/-- Whether an operator in front of a character may become another one. -/
def extendsOperator (character : Char) : Bool :=
  character == '=' || character == '<' || character == '>'

/-- No operator is extended by a row of characters. -/
def Apart (characters : List Char) : Prop :=
  ∀ first ∈ characters.head?, extendsOperator first = false

/-- The marks and the characters of operators. -/
def symbols : List Char :=
  ['+', '-', '*', '×', '·', '/', '÷', '^', '↑', '=', '≠', '<', '>', '≤', '≥', '²', '³', '⁻', '!',
    '√', '|',
    '(', ')', '\x7b', '\x7d', '[', ']', '«', '»', '\'', ',', ';', '_', '∡', 'Ⓟ', '"']

/-- The alphabetic characters as the members of a list of ranges. -/
theorem isAlphabetic_eq (character : Char) :
    Text.isAlphabetic character = (character.isAlpha || Text.alphabeticRanges.toList.any
      fun (first, last) => first ≤ character.toNat && character.toNat ≤ last) := by
  rw [Text.isAlphabetic, Text.within, Array.any_toList]

/-- No mark and no character of an operator is a letter, but for the mark of polynomials. -/
theorem symbols_alphabetic :
    ∀ symbol ∈ symbols, symbol = 'Ⓟ' ∨ Text.isAlphabetic symbol = false := by
  intro symbol member
  rw [isAlphabetic_eq]
  fin_cases member <;> decide +kernel

/-- No mark and no character of an operator begins or continues a number or a name. -/
theorem symbols_separate : ∀ symbol ∈ symbols,
    beginsName symbol = false ∧ Decimal.isDigit symbol = false ∧ symbol ≠ '.' ∧
      runsOn symbol = false ∧ Text.isBlank symbol = false ∧ symbol ≠ '@' := by
  intro symbol member
  have letters := symbols_alphabetic symbol member
  fin_cases member <;> simp_all [beginsName, runsOn, continuesName] <;> decide

/-- No letter is a blank. -/
theorem isAlphabetic_of_isBlank {character : Char} (blank : Text.isBlank character = true) :
    Text.isAlphabetic character = false := by
  have listed : character.toNat ∈ [0x9, 0xA, 0xB, 0xC, 0xD, 0x20, 0x85, 0xA0, 0x1680, 0x2000, 0x2001,
      0x2002, 0x2003, 0x2004, 0x2005, 0x2006, 0x2007, 0x2008, 0x2009, 0x200A, 0x2028, 0x2029,
      0x202F, 0x205F, 0x3000] := by
    simp only [Text.isBlank, Bool.or_eq_true, Bool.and_eq_true, decide_eq_true_eq,
      beq_iff_eq] at blank
    simp only [List.mem_cons, List.not_mem_nil]
    omega
  rw [← Char.ofNat_toNat character, isAlphabetic_eq]
  generalize character.toNat = point at listed
  fin_cases listed <;> decide +kernel

/-- No name begins with a digit, a point or an at sign. -/
theorem beginsName_eq_false : ∀ character ∈
    ['0', '1', '2', '3', '4', '5', '6', '7', '8', '9', '.', '@'], beginsName character = false := by
  intro character member
  rw [beginsName, isAlphabetic_eq]
  fin_cases member <;> decide +kernel

/-- What begins a name is no blank and begins nothing else. -/
theorem beginsName_separate {character : Char} (begins : beginsName character = true) :
    Text.isBlank character = false ∧ Decimal.isDigit character = false ∧
      character ∉ symbols ∧ character ≠ '.' ∧ character ≠ '@' := by
  refine ⟨Bool.eq_false_iff.mpr fun blank => ?_, Bool.eq_false_iff.mpr fun digit => ?_,
    fun member => ?_, ?_, ?_⟩
  · have letter := isAlphabetic_of_isBlank blank
    simp only [beginsName, letter, Bool.false_or, Bool.and_eq_true, List.contains_eq_mem,
      decide_eq_true_eq] at begins
    obtain ⟨-, listed⟩ := begins
    fin_cases listed <;> simp [Text.isBlank] at blank
  · have member := beginsName_eq_false character
      (List.mem_append_left ['.', '@'] (mem_of_isDigit digit))
    simp [begins] at member
  · have nameless := (symbols_separate character member).1
    simp [begins] at nameless
  · rintro rfl
    simp [beginsName_eq_false] at begins
  · rintro rfl
    simp [beginsName_eq_false] at begins

/-! ## Scanning -/

section Scanning

variable {first : Char} {next : List Char}

/-- No number begins with a character that is neither a digit nor a point. -/
theorem scanNumber?_eq_none (digit : Decimal.isDigit first = false) (point : first ≠ '.') :
    scanNumber? (first :: next) = none := by
  simp [scanNumber?, scanMantissa?, scanDigits, digit, point]

/-- A numeral is scanned as a number if no number runs on behind it. -/
theorem scan_number {numeral : List Char} (written : IsNumeral numeral) (ends : Ends next) :
    scan (numeral ++ next) = .ok ⟨.number (String.ofList numeral), numeral, next⟩ := by
  rw [scan, scanNumber?_append written ends]

/-- Whether a row of characters is a name: a letter, or an arrow of two characters and a letter,
with what continues a name behind it. -/
def isName : List Char → Bool
  | '-' :: '>' :: first :: others => Text.isAlphabetic first && others.all continuesName
  | first :: others => beginsName first && others.all continuesName
  | [] => false

/-- The characters that continue a name are passed over if the name does not run on. -/
theorem nameFrom_append {beginning others : List Char}
    (continues : others.all continuesName = true) (ends : Ends next) :
    nameFrom beginning (others ++ next) =
      ⟨.name (String.ofList (beginning ++ others)), beginning ++ others, next⟩ := by
  have continues := List.all_eq_true.mp continues
  rw [nameFrom, List.takeWhile_append_of_pos continues, List.dropWhile_append_of_pos continues]
  cases next with
  | nil => simp
  | cons character rest => simp [ends.head.1]

/-- A name is scanned as a name if it does not run on behind it. -/
theorem scan_name {characters : List Char} (name : isName characters = true) (ends : Ends next) :
    scan (characters ++ next) = .ok ⟨.name (String.ofList characters), characters, next⟩ := by
  unfold isName at name
  split at name
  · rename_i first others
    rw [Bool.and_eq_true] at name
    have number : scanNumber? ('-' :: '>' :: first :: (others ++ next)) = none :=
      scanNumber?_eq_none (by decide) (by decide)
    simp only [List.cons_append, scan, number, scanText?, scanName?, name.1, if_true,
      nameFrom_append name.2 ends]
    rfl
  · rename_i first others notArrow
    rw [Bool.and_eq_true] at name
    obtain ⟨-, digit, member, point, -⟩ := beginsName_separate name.1
    have number : scanNumber? (first :: (others ++ next)) = none := scanNumber?_eq_none digit point
    have quote : first ≠ '"' := fun same => member (by simp [same, symbols])
    have sign : first ≠ '-' := fun same => member (by simp [same, symbols])
    simp only [List.cons_append, scan, number]
    simp [scanText?, quote, scanName?, sign, name.1, nameFrom_append name.2 ends]
  · simp at name

/-- What a mark or the character of an operator begins is a mark or an operator. -/
theorem scan_symbol (symbol : first ∈ symbols) (noQuote : first ≠ '"')
    (apart : first = '-' → Apart next) :
    scan (first :: next) =
      match scanMark? (first :: next) <|> scanOperator? (first :: next) with
      | some found => .ok found
      | none => .error (brokenOff (first :: next)) := by
  obtain ⟨name, digit, point, -⟩ := symbols_separate first symbol
  have noName : scanName? (first :: next) = none := by
    unfold scanName?
    split
    · rename_i character rest same
      obtain ⟨rfl, rfl⟩ := List.cons.inj same
      have extended := apart rfl '>' rfl
      simp [extendsOperator] at extended
    · rename_i same
      obtain ⟨rfl, rfl⟩ := List.cons.inj same
      simp [name]
    · rfl
  have noText : scanText? (first :: next) = none := by simp [scanText?, noQuote]
  rw [scan, scanNumber?_eq_none digit point, noText, noName]
  rfl

/-- A text is scanned up to its closing mark. -/
theorem scan_text {body : List Char} (noQuote : '"' ∉ body) :
    scan ('"' :: body ++ '"' :: next) =
      .ok ⟨.text (String.ofList body) true, '"' :: body ++ ['"'], next⟩ := by
  have inside : ∀ character ∈ body, (character != '"') = true := fun character member =>
    bne_iff_ne.mpr fun same => noQuote (same ▸ member)
  have number : scanNumber? ('"' :: (body ++ '"' :: next)) = none :=
    scanNumber?_eq_none (by decide) (by decide)
  simp [scan, number, scanText?, List.takeWhile_append_of_pos inside,
    List.dropWhile_append_of_pos inside]

end Scanning

/-- Whether a token is spelled as it is worded: a numeral, a name, a closed text or a mark. The sign
of a root is not among the operators, because its wording is a name. -/
def Spelled : Token → Prop
  | number numeral => IsNumeral numeral.toList
  | text body closed => closed = true ∧ '"' ∉ body.toList
  | name letters => isName letters.toList = true
  | operator command =>
    command ∈ [.add, .subtract, .multiply, .divide, .power, .equation, .same, .notEqual, .less,
      .lessOrEqual, .greater, .greaterOrEqual, .square, .cube, .factorial, .invert, .whereBound]
  | _ => True

/-- Whether a token may stand in front of a row of characters. -/
def Precedes : Token → List Char → Prop
  | number _, next | name _, next => Ends next
  | operator command, next =>
    command ∈ [.subtract, .equation, .less, .greater, .factorial] → Apart next
  | _, _ => True

/-- Where no operator is extended there is no sign of a comparison. -/
theorem Apart.head {first : Char} {next : List Char} (apart : Apart (first :: next)) :
    first ≠ '=' ∧ first ≠ '<' ∧ first ≠ '>' := by
  have stops := apart first rfl
  simpa [extendsOperator, and_assoc] using stops

/-- An operator is scanned from its wording. -/
theorem scan_operator {command : Command} {next : List Char}
    (spelled : (operator command).Spelled) (precedes : (operator command).Precedes next) :
    scan (command.symbol.toList ++ next) =
      .ok ⟨.operator command, command.symbol.toList, next⟩ := by
  by_cases extended : command ∈ [.subtract, .equation, .less, .greater, .factorial]
  · have apart := precedes extended
    fin_cases extended
    all_goals simp only [Command.symbol, Command.entry, Option.getD_none, String.reduceToList]
    all_goals refine (scan_symbol (by decide) (by decide) fun _ => apart).trans ?_
    all_goals
      rcases next with _ | ⟨character, rest⟩
      · rfl
      · obtain ⟨equal, less, greater⟩ := apart.head
        simp [scanMark?, scanOperator?, operatorOf?, equal, less, greater]
  · simp only [Spelled] at spelled
    fin_cases spelled <;> simp at extended
    all_goals simp only [Command.symbol, Command.entry, Option.getD_none, Option.getD_some,
      String.reduceToList]
    all_goals exact (scan_symbol (by decide) (by decide) (by simp)).trans rfl

/-- A token is scanned from its wording, in front of everything that it may stand in front of. -/
theorem scan_message {token : Token} (spelled : token.Spelled) {next : List Char}
    (precedes : token.Precedes next) :
    scan (token.message.toList ++ next) = .ok ⟨token, token.message.toList, next⟩ := by
  cases token with
  | number numeral => simpa [message] using scan_number spelled precedes
  | text body closed =>
    obtain ⟨rfl, noQuote⟩ := spelled
    simpa [message] using scan_text noQuote
  | name letters => simpa [message] using scan_name spelled precedes
  | operator command => exact scan_operator spelled precedes
  | _ =>
    simp only [message, String.reduceToList]
    exact (scan_symbol (by decide) (by decide) (by simp)).trans rfl

/-- The wording of a token begins with neither a blank nor the mark of a comment. -/
theorem Spelled.head {token : Token} (spelled : token.Spelled) :
    ∃ first others, token.message.toList = first :: others ∧ Text.isBlank first = false ∧
      first ≠ '@' := by
  have symbol (marked : ∃ first ∈ symbols, token.message.toList.head? = some first) :
      ∃ first others, token.message.toList = first :: others ∧ Text.isBlank first = false ∧
        first ≠ '@' := by
    obtain ⟨first, member, head⟩ := marked
    obtain ⟨others, worded⟩ := List.head?_eq_some_iff.mp head
    obtain ⟨-, -, -, -, blank, comment⟩ := symbols_separate first member
    exact ⟨first, others, worded, blank, comment⟩
  cases token with
  | number numeral =>
    obtain ⟨first, others, worded, member⟩ := IsNumeral.head spelled
    refine ⟨first, others, worded, ?_, ?_⟩ <;> fin_cases member <;> decide
  | text body closed => exact symbol (by simp [message, symbols])
  | name letters =>
    simp only [Spelled, isName] at spelled
    split at spelled
    · rename_i worded
      exact symbol ⟨'-', by decide, by rw [message, worded]; rfl⟩
    · rename_i first others _ worded
      rw [Bool.and_eq_true] at spelled
      obtain ⟨blank, -, -, -, comment⟩ := beginsName_separate spelled.1
      exact ⟨first, others, worded, blank, comment⟩
    · simp at spelled
  | operator command =>
    simp only [Spelled] at spelled
    fin_cases spelled <;> exact symbol (by simp [message, Command.symbol, Command.entry, symbols])
  | _ => exact symbol (by simp [message, symbols])

/-! ## Rows -/

/-- A token as it stands in a line, with or without a blank in front of it. -/
structure Written where
  spaced : Bool
  token : Token

/-- The characters of a token in a line. -/
def Written.characters (written : Written) : List Char :=
  (if written.spaced then [' '] else []) ++ written.token.message.toList

/-- The characters of a row of tokens. -/
def characters (row : List Written) : List Char := row.flatMap Written.characters

/-- One row of tokens behind another. -/
theorem characters_append (row others : List Written) :
    characters (row ++ others) = characters row ++ characters others :=
  List.flatMap_append

/-- A token in front of a row. -/
theorem characters_cons (written : Written) (row : List Written) :
    characters (written :: row) = written.characters ++ characters row := rfl

/-- The text of a row of tokens. -/
def textOf (row : List Written) : String := String.ofList (characters row)

/-- The text of one row of tokens behind another. -/
theorem textOf_append (row others : List Written) : textOf (row ++ others) = textOf row ++ textOf others := by
  rw [textOf, characters_append, String.ofList_append]
  rfl

/-- The text of a token in front of a row. -/
theorem textOf_cons (written : Written) (row : List Written) :
    textOf (written :: row) =
      (if written.spaced then " " else "") ++ written.token.message ++ textOf row := by
  rw [textOf, characters_cons, String.ofList_append, Written.characters]
  cases written.spaced <;> simp [textOf]

/-- The text of no tokens. -/
theorem textOf_nil : textOf [] = "" := rfl

/-- A row of tokens in parentheses, with or without a blank in front. -/
def inParentheses (spaced : Bool) (row : List Written) : List Written :=
  ⟨spaced, .openParenthesis⟩ :: row ++ [⟨false, .closeParenthesis⟩]

/-- The tokens of a row at the places where they stand. -/
def spans (offset : Nat) : List Written → List Spanned
  | [] => []
  | written :: row =>
    let start := offset + (if written.spaced then 1 else 0)
    let length := byteLength written.token.message.toList
    ⟨written.token, ⟨start, length⟩⟩ :: spans (start + length) row

/-- There are as many places as tokens. -/
theorem spans_length (offset : Nat) (row : List Written) :
    (spans offset row).length = row.length := by
  induction row generalizing offset with
  | nil => rfl
  | cons written row inductionHypothesis => exact congrArg (· + 1) (inductionHypothesis _)

/-- Whether every token of a row can be told from what follows it. -/
def Legible : List Written → Prop
  | [] => True
  | written :: row =>
    written.token.Spelled ∧ written.token.Precedes (characters row) ∧ Legible row

/-- Blanks are passed over up to the next token. -/
theorem skipBlanks_written {written : Written} (spelled : written.token.Spelled) (offset : Nat)
    (next : List Char) :
    skipBlanks false offset (written.characters ++ next) =
      (offset + (if written.spaced then 1 else 0), written.token.message.toList ++ next) := by
  obtain ⟨first, others, worded, blank, comment⟩ := spelled.head
  have stops (offset : Nat) :
      skipBlanks false offset (first :: others ++ next) = (offset, first :: others ++ next) := by
    simp [skipBlanks, blank, comment]
  cases spaced : written.spaced with
  | false => simpa [Written.characters, spaced, worded] using stops offset
  | true =>
    have passed (rest : List Char) :
        skipBlanks false offset (' ' :: rest) = skipBlanks false (offset + 1) rest := rfl
    simpa [Written.characters, spaced, worded, passed] using stops (offset + 1)

/-- What is left of a line is split into the tokens of the row that is written there. -/
theorem splitWithin_characters (size : Nat) (row : List Written) (legible : Legible row) :
    ∀ (steps offset : Nat), (characters row).length ≤ steps →
      splitWithin size steps (characters row) offset = .ok (spans offset row) := by
  induction row with
  | nil =>
    rintro (_ | steps) offset -
    · rfl
    · simp [characters, splitWithin, skipBlanks, spans]
      rfl
  | cons written row inductionHypothesis =>
    obtain ⟨spelled, precedes, legible⟩ := legible
    obtain ⟨first, others, worded, -⟩ := spelled.head
    have text : characters (written :: row) = written.characters ++ characters row := rfl
    have shorter : (characters row).length < (characters (written :: row)).length := by
      rw [text, List.length_append, Written.characters, List.length_append, worded,
        List.length_cons]
      omega
    rintro (_ | steps) offset enough
    · omega
    · rw [splitWithin, text, skipBlanks_written spelled]
      simp only [worded, List.cons_append, List.isEmpty_cons]
      rw [← List.cons_append, ← worded, scan_message spelled precedes]
      simp [inductionHypothesis legible steps _ (by omega), spans, bind, Except.bind]
      rfl

/-- The text of a row of tokens that can be told apart is split into the row. -/
theorem split_characters {row : List Written} (legible : Legible row) :
    split (textOf row) = .ok (spans 0 row) := by
  rw [split, textOf, String.toList_ofList]
  exact splitWithin_characters _ row legible _ _ le_rfl

/-- A name that is scanned has the form of a name. -/
theorem isName_of_scanName {letters : String} {found : Scanned} {characters : List Char}
    (scanned : scanName? characters = some found) (name : found.token = .name letters) :
    isName letters.toList = true := by
  have continues (beginning rest : List Char) (token : (nameFrom beginning rest).token = .name letters) :
      letters.toList = beginning ++ rest.takeWhile continuesName := by
    obtain rfl := Token.name.inj token
    rw [String.toList_ofList]
  unfold scanName? at scanned
  split at scanned
  · rename_i first rest
    split_ifs at scanned with letter
    obtain rfl := Option.some.inj scanned
    rw [continues _ _ name]
    simp [isName, letter]
  · rename_i first rest notArrow
    split_ifs at scanned with begins
    obtain rfl := Option.some.inj scanned
    have sign : first ≠ '-' := fun same =>
      (beginsName_separate begins).2.2.1 (by simp [same, symbols])
    rw [continues _ _ name]
    simp [isName, sign, begins]
  · simp at scanned

/-- What is scanned is scanned as a number, a text, a name, a mark or an operator. -/
theorem scan_cases {found : Scanned} {characters : List Char}
    (scanned : scan characters = .ok found) :
    scanNumber? characters = some (.ok found) ∨ scanText? characters = some found ∨
      scanName? characters = some found ∨ scanMark? characters = some found ∨
      scanOperator? characters = some found := by
  unfold scan at scanned
  split at scanned
  · rename_i result number
    exact .inl (scanned ▸ number)
  · split at scanned
    · rename_i result other
      obtain rfl := Except.ok.inj scanned
      simp only [Option.orElse_eq_orElse, Option.orElse_eq_or, Option.or_eq_some_iff] at other
      tauto
    · simp at scanned

/-- What is scanned as a name has the form of a name. -/
theorem isName_of_scan {letters : String} {found : Scanned} {characters : List Char}
    (scanned : scan characters = .ok found) (name : found.token = .name letters) :
    isName letters.toList = true := by
  rcases scan_cases scanned with number | text | other | mark | operator
  · have token := (append_of_scanNumber? number).2.1
    simp [name] at token
  · unfold scanText? at text
    grind
  · exact isName_of_scanName other name
  · unfold scanMark? at mark
    grind
  · unfold scanOperator? at operator
    grind [Option.map_eq_some_iff]

/-- The text of a name is split into the name, and no other text is. -/
theorem split_name_iff (letters : String) :
    (∃ span, split letters = .ok [⟨.name letters, span⟩]) ↔ isName letters.toList = true := by
  constructor
  · rintro ⟨span, found⟩
    rw [split] at found
    generalize letters.toList.length = steps at found
    cases steps with
    | zero => simp [splitWithin] at found
    | succ steps =>
      rw [splitWithin] at found
      dsimp only at found
      split_ifs at found with nothing
      · cases found
      · cases scanned : scan (skipBlanks false 0 letters.toList).2 with
        | error left =>
          rw [scanned] at found
          cases found
        | ok token =>
          rw [scanned] at found
          dsimp only at found
          rcases others : splitWithin letters.utf8ByteSize steps token.rest
              ((skipBlanks false 0 letters.toList).1 + byteLength token.lexeme) with fault | spanned
          · rw [others] at found
            cases found
          · rw [others] at found
            obtain ⟨same, -⟩ := List.cons.inj (Except.ok.inj found)
            exact isName_of_scan scanned (Spanned.mk.inj same).1
  · intro name
    have legible : Legible [⟨false, .name letters⟩] :=
      ⟨name, by simp [Precedes, Ends, characters], trivial⟩
    have text : textOf [⟨false, .name letters⟩] = letters := by
      simp [textOf_cons, textOf_nil, message]
    have found := split_characters legible
    rw [text] at found
    exact ⟨_, found⟩

end Calculator.Token
