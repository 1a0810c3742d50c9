import Calculator.Settings.Toml.Scalar

/-!
# Reading TOML

Reads a TOML document: lines that are empty, give a key an item or begin a table. Texts
are quoted in four ways, with or without escapes and on one line or on several. Arrays and
inline tables may span lines and may end in a comma, and they nest up to a limit.

A document that is not well formed is refused as a whole.
-/

namespace Calculator.Toml

/-- Reads from the front of a text and hands on what is left. -/
abbrev Reading := StateT (List Char) Option

/-- How deep arrays and inline tables may nest. -/
def deepestNesting : Nat := 80

/-- The next character, which stays where it is. -/
def peek : Reading (Option Char) := return (← get).head?

/-- Passes over the next character. -/
def skip : Reading Unit := modify (List.drop 1)

/-- Passes over a given character, which must come next. -/
def expect (c : Char) : Reading Unit := do
  if (← peek) == some c then skip else failure

/-- The characters in front for which a condition holds. -/
def takeWhile (condition : Char → Bool) : Reading (List Char) :=
  modifyGet fun text => (text.takeWhile condition, text.dropWhile condition)

/-- Whether a character is blank within a line. -/
def isBlank (c : Char) : Bool := c == ' ' || c == '\t'

/-- Whether a character may be in a comment or between quotation marks on one line. -/
def isPlain (c : Char) : Bool := c == '\t' || (' ' ≤ c && c.toNat != 0x7F)

/-- Passes over blanks. -/
def blanks : Reading Unit := discard (takeWhile isBlank)

/-- Passes over a comment, if there is one. -/
def comment : Reading Unit := do
  if (← peek) == some '#' then discard (takeWhile isPlain)

/-- Passes over the end of a line, if it comes next. Tells whether it did. -/
def lineBreak : Reading Bool := fun text =>
  match text with
  | '\n' :: rest | '\r' :: '\n' :: rest => some (true, rest)
  | _ => some (false, text)

/-- Passes over the rest of a line, in which nothing more may be written. -/
def restOfLine : Reading Unit := do
  blanks
  comment
  unless ← lineBreak do
    if (← peek).isSome then failure

/-- Passes over blanks, comments and ends of lines, in so many steps. -/
def gapsWithin : Nat → Reading Unit
  | 0 => return
  | steps + 1 => do
    blanks
    comment
    if ← lineBreak then gapsWithin steps

/-- Passes over blanks, comments and ends of lines. -/
def gaps : Reading Unit := do gapsWithin (← get).length

/-- A way to quote a text. -/
structure Quotation where
  mark : Char
  /-- Whether three marks on either side enclose the text, which may then span lines. -/
  long : Bool
deriving DecidableEq, Repr

/-- Whether a backslash begins an escape. -/
def Quotation.escapes (quotation : Quotation) : Bool := quotation.mark == '\"'

/-- What a quoted text is in the middle of. -/
inductive Pending where
  | nothing
  /-- A backslash has been read. -/
  | escape
  /-- So many hexadecimal digits are still to come. -/
  | digits (count value : Nat)
  /-- A backslash at the end of a line has been read: blanks and further ends of lines do
  not belong to the text. -/
  | fold
deriving DecidableEq, Repr

/-- The character with a code point. -/
def characterOf? (point : Nat) : Option Char :=
  if point.isValidChar then some (Char.ofNat point) else none

/-- The character that an escape of one letter stands for. -/
def escaped? (c : Char) : Option Char :=
  match c with
  | 'b' => some '\x08'
  | 't' => some '\t'
  | 'n' => some '\n'
  | 'f' => some '\x0c'
  | 'r' => some '\r'
  | 'e' => some '\x1b'
  | '\"' => some '\"'
  | '\\' => some '\\'
  | _ => none

/-- The number of hexadecimal digits behind the letter of an escape by code point. -/
def escapeDigits? (c : Char) : Option Nat :=
  match c with
  | 'x' => some 2
  | 'u' => some 4
  | 'U' => some 8
  | _ => none

/-- Whether the end of a line comes next, behind blanks. -/
def endsLine (text : List Char) : Bool :=
  match text.dropWhile isBlank with
  | '\n' :: _ | '\r' :: '\n' :: _ => true
  | _ => false

/-- The number of quotation marks that end a text when so many of them stand in a row. Up to
two of a long text's last marks belong to the text itself. -/
def closingMarks (quotation : Quotation) (row : Nat) : Nat :=
  if quotation.long then if 3 ≤ row then min row 5 else 0
  else 1

/-- The characters of a quoted text up to the marks that close it, and what is left. -/
def quotedFrom (quotation : Quotation) :
    Pending → List Char → Option (List Char × List Char)
  | _, [] => none
  | pending, c :: rest =>
    let folds := isBlank c || c == '\n' || (c == '\r' && endsLine (c :: rest))
    let pending := if pending == .fold && !folds then .nothing else pending
    let go (pending : Pending) : Option (List Char × List Char) :=
      quotedFrom quotation pending rest
    let put (c : Char) : Option (List Char × List Char) := do
      let (content, rest) ← go .nothing
      return (c :: content, rest)
    match pending with
    | .fold => go .fold
    | .digits count value =>
      match digitValue? 16 c with
      | none => none
      | some digit =>
        let value := value * 16 + digit
        if count = 1 then (characterOf? value).bind put else go (.digits (count - 1) value)
    | .escape =>
      match escaped? c, escapeDigits? c with
      | some meant, _ => put meant
      | none, some count => go (.digits count 0)
      | none, none => if quotation.long && endsLine (c :: rest) then go .fold else none
    | .nothing =>
      if c == quotation.mark then
        let row := ((c :: rest).takeWhile (· == quotation.mark)).length
        let closing := closingMarks quotation row
        if closing = 0 then put c
        else some (List.replicate (closing - 3) c, (c :: rest).drop closing)
      else if c == '\\' && quotation.escapes then go .escape
      else if isPlain c then put c
      else if quotation.long && endsLine (c :: rest) then put c
      else none

/-- A quoted text on one line. -/
def shortText (mark : Char) : Reading String := do
  expect mark
  let content ← fun text => quotedFrom ⟨mark, false⟩ .nothing text
  return String.ofList content

/-- A quoted text. The end of a line right behind the opening marks of a long text does not
belong to it. -/
def quotedText (mark : Char) : Reading String := do
  if (← get).take 3 == [mark, mark, mark] then
    modify (List.drop 3)
    discard lineBreak
    let content ← fun text => quotedFrom ⟨mark, true⟩ .nothing text
    return String.ofList content
  else shortText mark

/-- Whether a character may be in a key without quotation marks. -/
def isBare (c : Char) : Bool := c.isAlphanum || c == '_' || c == '-'

/-- One part of a key. -/
def simpleKey : Reading String := do
  match ← peek with
  | some '\"' => shortText '\"'
  | some '\'' => shortText '\''
  | _ =>
    let name ← takeWhile isBare
    if name.isEmpty then failure else return String.ofList name

/-- The parts of a key between dots: all but the last one, and the last one. Every part has
at least one character, so as many steps as there are characters are enough. -/
def keyWithin : Nat → Reading (List String × String)
  | 0 => failure
  | steps + 1 => do
    blanks
    let name ← simpleKey
    blanks
    if (← peek) == some '.' then
      skip
      let (path, last) ← keyWithin steps
      return (name :: path, last)
    else return ([], name)

/-- A key. -/
def key : Reading (List String × String) := do keyWithin ((← get).length + 1)

/-- An unquoted scalar. A space may stand between a date and a time. -/
def scalar : Reading Item := do
  let text ← takeWhile isScalarCharacter
  let next := (← get).drop 1
  let joins := isDate text && (← peek) == some ' ' && (next.head?.map Char.isDigit).getD false
  let text ←
    if joins then
      skip
      (text ++ ' ' :: ·) <$> takeWhile isScalarCharacter
    else pure text
  match scalar? text with
  | some item => return item
  | none => failure

/-- The items of an array up to its closing bracket. -/
def arrayWithin (item : Reading Item) : Nat → Reading (List Item)
  | 0 => failure
  | steps + 1 => do
    gaps
    if (← peek) == some ']' then
      skip
      return []
    else
      let first ← item
      gaps
      if (← peek) == some ',' then
        skip
        return first :: (← arrayWithin item steps)
      else
        expect ']'
        return [first]

/-- The entries of an inline table up to its closing brace, behind those read before. -/
def inlineWithin (item : Reading Item) (entries : Table) : Nat → Reading Table
  | 0 => failure
  | steps + 1 => do
    gaps
    if (← peek) == some '\x7d' then
      skip
      return entries
    else
      let (path, name) ← key
      expect '='
      blanks
      let value ← item
      match entries.addEntry path name value .inline with
      | none => failure
      | some entries =>
        gaps
        if (← peek) == some ',' then
          skip
          inlineWithin item entries steps
        else
          expect '\x7d'
          return entries

/-- An item, with so many levels of nesting left. -/
def itemWithin : Nat → Reading Item
  | 0 => failure
  | levels + 1 => do
    match ← peek with
    | some '\"' => return .text (← quotedText '\"')
    | some '\'' => return .text (← quotedText '\'')
    | some '[' =>
      skip
      return .array (← arrayWithin (itemWithin levels) ((← get).length + 1))
    | some '\x7b' =>
      skip
      return .table .inline (← inlineWithin (itemWithin levels) [] ((← get).length + 1))
    | _ => scalar

/-- A header, which begins a table: the document with that table, and the path to it. -/
def header (root : Table) : Reading (Table × List String) := do
  expect '['
  let repeated := (← peek) == some '['
  if repeated then skip
  let (path, name) ← key
  expect ']'
  if repeated then expect ']'
  match if repeated then root.append path name else root.define path name with
  | some root => return (root, path ++ [name])
  | none => failure

/-- A key and its item in the table that the last header began. -/
def entry (root : Table) (under : List String) : Reading Table := do
  let (path, name) ← key
  expect '='
  blanks
  let item ← itemWithin (deepestNesting + 1)
  match root.addUnder under path name item with
  | some root => return root
  | none => failure

/-- The lines of a document, behind those read before. -/
def linesWithin (root : Table) (under : List String) : Nat → Reading Table
  | 0 => return root
  | steps + 1 => do
    blanks
    match ← peek with
    | none => return root
    | some '[' =>
      let (root, under) ← header root
      restOfLine
      linesWithin root under steps
    | some '#' | some '\n' | some '\r' =>
      restOfLine
      linesWithin root under steps
    | some _ =>
      let root ← entry root under
      restOfLine
      linesWithin root under steps

/-- The mark of the byte order, which may stand in front of a document. -/
def byteOrderMark : Char := '\ufeff'

/-- The table that a document describes. -/
def read? (document : String) : Option Table :=
  let text := document.toList
  let text := if text.head? == some byteOrderMark then text.drop 1 else text
  ((linesWithin [] [] (text.length + 1)).run text).map Prod.fst

end Calculator.Toml
