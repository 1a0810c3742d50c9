import Calculator.Command
import Calculator.Number.Real
import Calculator.Symbol

/-!
# Values

Everything the calculator computes with: numbers, names, texts, sequences of values,
polynomials, values with units, and commands. An algebraic expression is a sequence of
values in postfix order, operands first. A unit expression is such a sequence, too.

The parts of a complex number and the factors of a polynomial are values of any kind;
which of them are numbers is a matter of how the value came about.
-/

namespace Calculator

/-- The two ways to give a complex number. -/
inductive ComplexForm where
  /-- By real and imaginary part. -/
  | rectangular
  /-- By modulus and argument. -/
  | polar
deriving DecidableEq, Repr

/-- The kinds of sequences. -/
inductive SequenceKind where
  | list
  | array
  | program
  | expression
deriving DecidableEq, Repr

namespace SequenceKind

/-- The construct a sequence is in source text. -/
def construct : SequenceKind → Construct
  | list => .list
  | array => .array
  | program => .program
  | expression => .expression

/-- The mark in front of a sequence. -/
def opening : SequenceKind → String
  | list => "\x7b"
  | array => "["
  | program => "«"
  | expression => "'"

/-- The mark behind a sequence. -/
def closing : SequenceKind → String
  | list => "\x7d"
  | array => "]"
  | program => "»"
  | expression => "'"

end SequenceKind

/-- A product of a factor and powers of the variables of a polynomial, given by their
exponents in the order of the variables. -/
structure Term (Factor : Type) where
  factor : Factor
  exponents : List UInt32
deriving DecidableEq, Repr

/-- A sum of terms in some variables. -/
structure PolynomialOver (Factor : Type) where
  names : List Symbol
  terms : List (Term Factor)
deriving DecidableEq, Repr

/-- The values of the calculator. -/
inductive Value where
  | real (number : Real)
  | complex (form : ComplexForm) (first second : Value)
  | symbol (name : Symbol)
  | text (content : String)
  | sequence (kind : SequenceKind) (items : List Value)
  | polynomial (polynomial : PolynomialOver Value)
  /-- A value with a unit, which is an expression in postfix order. -/
  | unit (value : Value) (unit : List Value)
  | command (command : Command)

/-- A polynomial whose factors are values. -/
abbrev Polynomial := PolynomialOver Value

namespace Value

instance : Inhabited Value := ⟨.real (.ofInt 0)⟩

mutual

/-- Equality of values. -/
def same : Value → Value → Bool
  | .real x, .real y => x == y
  | .complex form a b, .complex form' a' b' => form == form' && same a a' && same b b'
  | .symbol name, .symbol name' => name == name'
  | .text content, .text content' => content == content'
  | .sequence kind items, .sequence kind' items' => kind == kind' && sameItems items items'
  | .polynomial p, .polynomial q => samePolynomial p q
  | .unit value items, .unit value' items' => same value value' && sameItems items items'
  | .command x, .command y => x == y
  | _, _ => false

/-- Equality of rows of values. -/
def sameItems : List Value → List Value → Bool
  | [], [] => true
  | item :: items, item' :: items' => same item item' && sameItems items items'
  | _, _ => false

/-- Equality of polynomials. -/
def samePolynomial : PolynomialOver Value → PolynomialOver Value → Bool
  | ⟨names, terms⟩, ⟨names', terms'⟩ => names == names' && sameTerms terms terms'

/-- Equality of rows of terms. -/
def sameTerms : List (Term Value) → List (Term Value) → Bool
  | [], [] => true
  | term :: terms, term' :: terms' => sameTerm term term' && sameTerms terms terms'
  | _, _ => false

/-- Equality of terms. -/
def sameTerm : Term Value → Term Value → Bool
  | ⟨factor, exponents⟩, ⟨factor', exponents'⟩ => same factor factor' && exponents == exponents'

end

instance : BEq Value := ⟨same⟩

mutual

/-- How deep values nest in a value, zero for one without values inside. -/
def height : Value → Nat
  | .complex _ first second => max (height first) (height second) + 1
  | .sequence _ items => heightOfItems items + 1
  | .polynomial p => heightOfPolynomial p + 1
  | .unit value items => max (height value) (heightOfItems items) + 1
  | _ => 0

/-- The greatest height of a row of values. -/
def heightOfItems : List Value → Nat
  | [] => 0
  | item :: items => max (height item) (heightOfItems items)

/-- The greatest height of the factors of a polynomial. -/
def heightOfPolynomial : PolynomialOver Value → Nat
  | ⟨_, terms⟩ => heightOfTerms terms

/-- The greatest height of the factors of a row of terms. -/
def heightOfTerms : List (Term Value) → Nat
  | [] => 0
  | term :: terms => max (heightOfTerm term) (heightOfTerms terms)

/-- The height of a term's factor. -/
def heightOfTerm : Term Value → Nat
  | ⟨factor, _⟩ => height factor

end

/-- The integer with a value. -/
def ofInt (value : Int) : Value := .real (.ofInt value)

/-- One for truth and zero for falsehood. -/
def ofBool (truth : Bool) : Value := .real (.ofBool truth)

/-- An algebraic expression. -/
def expression (items : List Value) : Value := .sequence .expression items

/-- The real number a value is, if it is one. -/
def real? : Value → Option Real
  | real number => some number
  | _ => none

/-- Whether the value is a real number. -/
def isReal : Value → Bool
  | real _ => true
  | _ => false

/-- Whether the value is an integer or a fraction. -/
def isExact : Value → Bool
  | real number => number.isExact
  | _ => false

/-- Whether the value is an integer. -/
def isInteger : Value → Bool
  | real number => number.isInteger
  | _ => false

/-- Whether the value is a complex number of either form. -/
def isComplex : Value → Bool
  | complex _ _ _ => true
  | _ => false

/-- Whether the value is a real or complex number. -/
def isNumber (value : Value) : Bool := value.isReal || value.isComplex

/-- Whether the value is computed with symbolically. -/
def isSymbolic : Value → Bool
  | symbol _ | sequence .expression _ | polynomial _ => true
  | _ => false

/-- Whether the value is a real zero. -/
def isZero : Value → Bool
  | real number => number.isZero
  | _ => false

/-- Whether the value is the integer one. -/
def isOne : Value → Bool
  | real number => number.isOne
  | _ => false

/-- Whether the value is a real number below zero. -/
def isNegative : Value → Bool
  | real number => number.isNegative
  | _ => false

/-- The value of an integer. -/
def toInt? : Value → Option Int
  | real number => number.toInt?
  | _ => none

/-- The value of an integer that fits a signed machine word. -/
def toInt64? : Value → Option Int64
  | real number => number.toInt64?
  | _ => none

/-- The name that a symbol, or an expression of nothing but a symbol, stands for. -/
def symbol? : Value → Option Symbol
  | symbol name => some name
  | sequence .expression [symbol name] => some name
  | _ => none

/-- The items of a program. -/
def program (items : List Value) : Value := .sequence .program items

end Value

end Calculator
