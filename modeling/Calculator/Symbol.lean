import Calculator.Text.Lowercase

/-!
# Symbols

The names of variables, directories and functions. Whether two names are the same
depends on a setting: either letter by letter, or after both are put into lower case.
-/

namespace Calculator

/-- A name. Equality of symbols is exact; `Symbol.sameAs` is the equality under which
variables are looked up. -/
structure Symbol where
  name : String
deriving DecidableEq, Repr, Inhabited

namespace Symbol

/-- The lexicographic order of two texts by code point. -/
def compareCharacters : List Char → List Char → Ordering
  | [], [] => .eq
  | [], _ :: _ => .lt
  | _ :: _, [] => .gt
  | left :: lefts, right :: rights =>
    match compare left.toNat right.toNat with
    | .eq => compareCharacters lefts rights
    | order => order

/-- The order of two names. Without case sensitivity every character is put into lower
case on its own before the texts are compared. -/
def compare (left right : Symbol) (caseSensitive : Bool) : Ordering :=
  if caseSensitive then compareCharacters left.name.toList right.name.toList
  else
    compareCharacters (Text.foldedCharacters left.name) (Text.foldedCharacters right.name)

/-- Whether two names denote the same thing. -/
def sameAs (left right : Symbol) (caseSensitive : Bool) : Bool :=
  left.compare right caseSensitive == .eq

/-- Whether a name is spelled like a text. Without case sensitivity both are put into
lower case as whole texts, so a final sigma differs from an inner one. -/
def matchesText (symbol : Symbol) (text : String) (caseSensitive : Bool) : Bool :=
  if caseSensitive then symbol.name == text
  else Text.lowercase symbol.name == Text.lowercase text

end Symbol

end Calculator
