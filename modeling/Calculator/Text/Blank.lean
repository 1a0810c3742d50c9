/-!
# Blank characters

The Unicode property White_Space. Blanks separate tokens and have no other meaning.
-/

namespace Calculator.Text

/-- The code points of the property White_Space are exactly these: the controls from
tabulation to carriage return, the space, the next-line control and the spaces and
separators of the general punctuation. -/
def isBlank (character : Char) : Bool :=
  let point := character.toNat
  (0x9 ≤ point && point ≤ 0xD) || point == 0x20 || point == 0x85 || point == 0xA0
    || point == 0x1680 || (0x2000 ≤ point && point ≤ 0x200A) || point == 0x2028
    || point == 0x2029 || point == 0x202F || point == 0x205F || point == 0x3000

/-- Removes the blanks at both ends of a text. -/
def trimBlanks (characters : List Char) : List Char :=
  ((characters.dropWhile isBlank).reverse.dropWhile isBlank).reverse

end Calculator.Text
