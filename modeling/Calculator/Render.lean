import Calculator.Polynomial.Expression

/-!
# Written values

The text of a value. It reads back as the same value, except where the settings ask for
mixed fractions or for another sign of multiplication. An expression is written with its
operators between, before and behind the operands; parentheses appear where the
precedence of the operators needs them and nowhere else.
-/

namespace Calculator.Render

/-- The capital or small letters that the settings ask for. The spellings of commands hold
ASCII letters only. -/
def recased (settings : Preferences) (name : String) : String :=
  if settings.render.contains .uppercase then name.map Char.toUpper
  else if settings.render.contains .lowercase then name.map Char.toLower
  else name

/-- The name of a command under the settings. -/
def commandName (settings : Preferences) (command : Command) : String :=
  recased settings
    (if settings.render.contains .longNames then command.entry.long else command.entry.name)

/-- A digit in the raised position. -/
def raised (digit : Char) : Char :=
  (['⁰', '¹', '²', '³', '⁴', '⁵', '⁶', '⁷', '⁸', '⁹'][Digits.value digit]?).getD digit

/-- A digit in the lowered position. -/
def lowered (digit : Char) : Char :=
  (['₀', '₁', '₂', '₃', '₄', '₅', '₆', '₇', '₈', '₉'][Digits.value digit]?).getD digit

/-- A sign in front of a negative number. -/
def sign (negative : Bool) : String := if negative then "-" else ""

/-- A fraction: numerator and denominator, or a whole part and a proper fraction. -/
def fraction (settings : Preferences) (value : Fraction) : String :=
  let numerator := value.numerator.natAbs
  let unsigned :=
    if settings.render.contains .mixedFractions then
      let whole := numerator / value.denominator
      (if whole = 0 then "" else Digits.text whole ++ " ")
        ++ String.ofList ((Digits.write (numerator % value.denominator)).map raised) ++ "/"
        ++ String.ofList ((Digits.write value.denominator).map lowered)
    else Digits.text numerator ++ "/" ++ Digits.text value.denominator
  sign value.isNegative ++ unsigned

/-- A row of zeros. -/
def zeros (count : Nat) : List Char := List.replicate count '0'

/-- Digits with a point at the place that the scale gives. -/
def positional (digits : List Char) (scale : Int) : List Char :=
  if scale ≤ 0 then digits ++ zeros scale.natAbs ++ ['.']
  else
    let places := scale.toNat
    if digits.length ≤ places then '0' :: '.' :: zeros (places - digits.length) ++ digits
    else
      digits.take (digits.length - places) ++ '.' :: digits.drop (digits.length - places)

/-- Digits with a point behind the first one, and an exponent. -/
def scientific (digits : List Char) (exponent : Int) : List Char :=
  let places := digits.drop 1
  digits.take 1 ++ (if places.isEmpty then [] else '.' :: places)
    ++ 'E' :: (Digits.signedText exponent).toList

/-- The smallest exponent of a decimal that is written without an exponent. -/
def smallestPositional : Int := -5

/-- A decimal: without an exponent while that is readable and within the precision. -/
def decimal (value : Rounded) : String :=
  if value.value.isZero then "0."
  else
    let x := value.value.normalized
    let digits := Digits.write x.mantissa.natAbs
    let exponent := x.exponent.toInt
    let unsigned :=
      if smallestPositional ≤ exponent && exponent < value.precision.digits then
        positional digits x.scale.toInt
      else scientific digits exponent
    sign value.value.isNegative ++ String.ofList unsigned

/-- A real number. -/
def real (settings : Preferences) : Real → String
  | .word value => sign value.negative ++ Digits.text value.magnitude.toNat
  | .wide value => Digits.signedText value.value
  | .fraction value => fraction settings value
  | .decimal value => decimal value

/-- The text of a part of an expression and the precedence of its outermost operator. -/
structure Fragment where
  text : String
  level : Precedence

/-- The text of a fragment, in parentheses if they are needed. -/
def Fragment.within (fragment : Fragment) (parentheses : Bool) : String :=
  if parentheses then "(" ++ fragment.text ++ ")" else fragment.text

/-- The precedence of a value that stands for itself in an expression. -/
def leafLevel : Value → Precedence
  | .real (.fraction _) => Precedence.multiplicative
  | .real number => if number.isNegative then Precedence.negate else Precedence.primary
  | _ => Precedence.primary

/-- Whether a text has a letter or a digit. -/
def hasLetter (text : String) : Bool :=
  text.toList.any fun c => Text.isAlphabetic c || c.isDigit

/-- An operator between two operands. Names are set off by blanks. -/
def operator (settings : Preferences) (command : Command) : String :=
  if command == .multiply && settings.render.contains .multiplyDot then "·"
  else if command == .multiply && settings.render.contains .multiplyCross then "×"
  else
    let name := commandName settings command
    if hasLetter name then " " ++ name ++ " " else name

/-- Texts with a separator between them. -/
def joinWith (separator : String) : List String → String
  | [] => ""
  | [text] => text
  | text :: texts => text ++ separator ++ joinWith separator texts

/-- An operator between two operands. The left operand needs parentheses if it binds less
tightly, the right one also if it binds equally or begins with a sign. -/
def infixed (settings : Preferences) (command : Command) (left right : Fragment) : Fragment :=
  let level := command.precedence
  ⟨left.within (left.level < level) ++ operator settings command
      ++ right.within (right.level ≤ level || right.text.startsWith "-"),
    level⟩

/-- A function applied to its arguments. The degree of a root is written first. -/
def applied (settings : Preferences) (command : Command) (arguments : List Fragment) : Fragment :=
  let texts := arguments.map Fragment.text
  let texts := if command == .nthRoot then texts.reverse else texts
  ⟨commandName settings command ++ "(" ++ joinWith ";" texts ++ ")", Precedence.primary⟩

/-- A command applied to its operands. -/
def node (settings : Preferences) (command : Command) (operands : List Fragment) : Fragment :=
  match command.fixity, operands with
  | .infixed, left :: right :: _ => infixed settings command left right
  | .prefixed, [operand] =>
    let level := command.precedence
    let glyph := command.entry.glyph.getD (commandName settings command ++ " ")
    ⟨glyph ++ operand.within (operand.level ≤ level), level⟩
  | .postfixed, [operand] =>
    ⟨operand.within (operand.level < Precedence.trailing) ++ command.symbol, Precedence.trailing⟩
  | _, _ => applied settings command operands

section Level

variable (settings : Preferences) (inner : Value → String)

/-- An expression in postfix order, written with its operators in place. Items that do not
make up a single expression are written one after the other. -/
def expression (items : List Value) : String :=
  match Expression.fold (fun item => .ok ⟨inner item, leafLevel item⟩)
      (fun command operands => .ok (node settings command operands)) items with
  | .ok [whole] => whole.text
  | _ => joinWith " " (items.map inner)

/-- The mark between the parts of a complex number. -/
def separator : ComplexForm → String
  | .rectangular => ";"
  | .polar => "∡"

/-- The text of a value, given the texts of the values inside it. -/
def valueOver (value : Value) : String :=
  match value with
  | .real number => real settings number
  | .complex form first second => "(" ++ inner first ++ separator form ++ inner second ++ ")"
  | .symbol name => name.name
  | .text content => "\"" ++ content ++ "\""
  | .sequence .expression items => "'" ++ expression settings inner items ++ "'"
  | .sequence kind items =>
    kind.opening ++ String.join (items.map fun item => " " ++ inner item) ++ " " ++ kind.closing
  | .polynomial p => "Ⓟ'" ++ expression settings inner (Polynomial.toExpression p) ++ "'"
  | .unit quantity items => inner quantity ++ "_" ++ expression settings inner items
  | .command command => commandName settings command

end Level

/-- The text of a value that is no higher than a limit. -/
def upTo (settings : Preferences) : Nat → Value → String
  | 0, value => valueOver settings (fun _ => "") value
  | limit + 1, value => valueOver settings (upTo settings limit) value

/-- The text of a value. -/
def value (value : Value) (settings : Preferences) : String := upTo settings value.height value

end Calculator.Render
