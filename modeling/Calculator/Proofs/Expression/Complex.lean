import Calculator.Arithmetic
import Calculator.Proofs.Number.Made
import Calculator.Proofs.Outcome
import Mathlib

/-!
# Complex arithmetic stays inside

The parts of a complex number are values of any kind, and so are the results of operations on them.
If these operations stay inside a kind of values, then so does complex arithmetic, which is made of
them, as long as a complex number is inside where its parts are. What an operation does is followed
step by step: of every intermediate result it is known that it is inside, and at the end so is what
is made of them.
-/

namespace Calculator

/-- Whether a command takes two operands and computes with them. An equation and a binding take two
as well, but only hold them together. -/
def Command.isDyadic : Command → Bool
  | .equation | .whereBound => false
  | command => command.operands == 2

/-- What is dyadic takes two operands. -/
theorem Command.operands_of_isDyadic {command : Command} (dyadic : command.isDyadic = true) :
    command.operands = 2 := by
  cases command <;> first | rfl | cases dyadic

/-- What takes two operands is dyadic, an equation or a binding. -/
theorem Command.isDyadic_of_operands {command : Command} (both : command.operands = 2)
    (noEquation : command ≠ .equation) (noBinding : command ≠ .whereBound) :
    command.isDyadic = true := by
  cases command <;> first | rfl | contradiction

/-- A kind of values that arithmetic may stay inside, together with a kind of rows that units may be
of: numbers that operations make are inside, and complex numbers, texts and values with units are
inside where their parts are. -/
structure Domain (Inside : Value → Prop) (Row : List Value → Prop) : Prop where
  made {x : Real} (made : x.IsMade) : Inside (.real x)
  negated {x : Real} (inside : Inside (.real x)) : Inside (.real x.negated)
  applied {x result : Real} {command : Command} {settings : Preferences}
    (inside : Inside (.real x)) (done : x.apply command settings = .ok result) :
    Inside (.real result)
  complex {form : ComplexForm} {first second : Value} :
    Inside (.complex form first second) ↔ Inside first ∧ Inside second
  text (content : String) : Inside (.text content)
  unit {value : Value} {items : List Value} :
    Inside (.unit value items) ↔ Inside value ∧ Row items
  rowLeaf {value : Value} (inside : Inside value) : Row [value]
  rowUnary {items : List Value} {command : Command} (row : Row items)
    (one : command.operands = 1) : Row (items ++ [.command command])
  rowBinary {left right : List Value} {command : Command} (first : Row left) (second : Row right)
    (two : command.operands = 2) : Row (left ++ right ++ [.command command])

/-- Whether operations on values of a kind have results of the kind. -/
structure Operations.Stay (operations : Operations) (Inside : Value → Prop)
    (Row : List Value → Prop) : Prop extends Domain Inside Row where
  unary {command : Command} {x : Value} (single : command.operands = 1) (inside : Inside x) :
    SatisfiesM Inside (operations.unary command x)
  binary {command : Command} {x y : Value} (dyadic : command.isDyadic = true) (left : Inside x)
    (right : Inside y) : SatisfiesM Inside (operations.binary command x y)

section Domain

variable {Inside : Value → Prop} {Row : List Value → Prop} (domain : Domain Inside Row)
include domain

/-- An integer is inside. -/
theorem Domain.ofInt (value : ℤ) : Inside (.ofInt value) := domain.made (Real.isMade_ofInt value)

/-- A real number without an imaginary part is inside. -/
theorem Domain.withoutImaginary {x : Value} (inside : Inside x) :
    Inside (Complex.withoutImaginary x) :=
  domain.complex.mpr ⟨inside, domain.ofInt 0⟩

end Domain

namespace Complex

/-- Whether both of two parts are of a kind. -/
def Both (Inside : Value → Prop) (pair : Value × Value) : Prop := Inside pair.1 ∧ Inside pair.2

variable {parts : Operations} {settings : Preferences} {x y : Value}
variable {Inside : Value → Prop} {Row : List Value → Prop} (stay : parts.Stay Inside Row)
include stay

/-- A number is inside if its two parts are. -/
theorem inside_rectangular {re im : Value} (first : Inside re) (second : Inside im) :
    Inside (rectangular re im) := by
  unfold rectangular
  split
  · exact first
  · exact stay.complex.mpr ⟨first, second⟩

/-- A number by modulus and argument is inside if these are. -/
theorem inside_polar {length argument : Value} (first : Inside length)
    (second : Inside argument) : Inside (polar length argument) := by
  unfold polar
  split
  · exact first
  · exact stay.complex.mpr ⟨first, second⟩

/-- The real and the imaginary part of a number inside are inside. -/
theorem both_rectangularParts (inside : Inside x) :
    SatisfiesM (Both Inside) (rectangularParts parts x) := by
  unfold rectangularParts
  cases x with
  | real number => exact .pure ⟨inside, stay.ofInt _⟩
  | complex form a b =>
    obtain ⟨first, second⟩ := stay.complex.mp inside
    cases form with
    | rectangular => exact .pure ⟨first, second⟩
    | polar =>
      refine (stay.unary rfl second).bind fun _ cosine => ?_
      refine (stay.unary rfl second).bind fun _ sine => ?_
      refine (stay.binary rfl first cosine).bind fun _ re => ?_
      refine (stay.binary rfl first sine).bind fun _ im => ?_
      exact .pure ⟨re, im⟩
  | _ => exact Outcome.satisfiesM_error _

/-- The modulus of a number whose parts are inside is inside. -/
theorem inside_modulus {a b : Value} (first : Inside a) (second : Inside b) :
    SatisfiesM Inside (modulus parts a b) := by
  unfold modulus
  refine (stay.binary rfl first first).bind fun _ aa => ?_
  refine (stay.binary rfl second second).bind fun _ bb => ?_
  refine (stay.binary rfl aa bb).bind fun _ sum => ?_
  exact stay.unary rfl sum

/-- The modulus and the argument of a number inside are inside. -/
theorem both_polarParts (inside : Inside x) :
    SatisfiesM (Both Inside) (polarParts parts settings x) := by
  unfold polarParts
  cases x with
  | real number =>
    dsimp only
    split
    · refine (stay.unary rfl inside).bind fun _ opposite => ?_
      exact .pure ⟨opposite, stay.made (Real.isMade_ofDecimal _ _)⟩
    · exact .pure ⟨inside, stay.ofInt _⟩
  | complex form a b =>
    obtain ⟨first, second⟩ := stay.complex.mp inside
    cases form with
    | rectangular =>
      refine (inside_modulus stay first second).bind fun _ length => ?_
      refine (stay.binary rfl second first).bind fun _ argument => ?_
      exact .pure ⟨length, argument⟩
    | polar => exact .pure ⟨first, second⟩
  | _ => exact Outcome.satisfiesM_error _

/-- Sums and differences are inside. -/
theorem inside_combine {command : Command} (dyadic : command.isDyadic = true)
    (left : Inside x) (right : Inside y) :
    SatisfiesM Inside (combine parts command x y) := by
  unfold combine
  refine (both_rectangularParts stay left).bind fun ⟨a, b⟩ ⟨aIn, bIn⟩ => ?_
  refine (both_rectangularParts stay right).bind fun ⟨c, d⟩ ⟨cIn, dIn⟩ => ?_
  refine (stay.binary dyadic aIn cIn).bind fun _ re => ?_
  refine (stay.binary dyadic bIn dIn).bind fun _ im => ?_
  exact .pure (inside_rectangular stay re im)

/-- Products are inside. -/
theorem inside_multiply (left : Inside x) (right : Inside y) :
    SatisfiesM Inside (multiply parts settings x y) := by
  unfold multiply
  split
  · refine (both_polarParts stay left).bind fun ⟨r, s⟩ ⟨length, argument⟩ => ?_
    refine (both_polarParts stay right).bind fun ⟨r', s'⟩ ⟨length', argument'⟩ => ?_
    refine (stay.binary rfl length length').bind fun _ product => ?_
    refine (stay.binary rfl argument argument').bind fun _ sum => ?_
    exact .pure (inside_polar stay product sum)
  · refine (both_rectangularParts stay left).bind fun ⟨a, b⟩ ⟨aIn, bIn⟩ => ?_
    refine (both_rectangularParts stay right).bind fun ⟨c, d⟩ ⟨cIn, dIn⟩ => ?_
    refine (stay.binary rfl aIn cIn).bind fun _ ac => ?_
    refine (stay.binary rfl bIn dIn).bind fun _ bd => ?_
    refine (stay.binary rfl aIn dIn).bind fun _ ad => ?_
    refine (stay.binary rfl bIn cIn).bind fun _ bc => ?_
    refine (stay.binary rfl ac bd).bind fun _ re => ?_
    refine (stay.binary rfl ad bc).bind fun _ im => ?_
    exact .pure (inside_rectangular stay re im)

/-- Quotients are inside. -/
theorem inside_divide (left : Inside x) (right : Inside y) :
    SatisfiesM Inside (divide parts settings x y) := by
  unfold divide
  split
  · refine (both_polarParts stay left).bind fun ⟨r, s⟩ ⟨length, argument⟩ => ?_
    refine (both_polarParts stay right).bind fun ⟨r', s'⟩ ⟨length', argument'⟩ => ?_
    dsimp only
    split
    · exact Outcome.satisfiesM_error _
    · refine (stay.binary rfl length length').bind fun _ quotient => ?_
      refine (stay.binary rfl argument argument').bind fun _ difference => ?_
      exact .pure (inside_polar stay quotient difference)
  · refine (both_rectangularParts stay left).bind fun ⟨a, b⟩ ⟨aIn, bIn⟩ => ?_
    refine (both_rectangularParts stay right).bind fun ⟨c, d⟩ ⟨cIn, dIn⟩ => ?_
    refine (stay.binary rfl cIn cIn).bind fun _ cc => ?_
    refine (stay.binary rfl dIn dIn).bind fun _ dd => ?_
    refine (stay.binary rfl cc dd).bind fun _ denominator => ?_
    dsimp only
    split
    · exact Outcome.satisfiesM_error _
    · refine (stay.binary rfl aIn cIn).bind fun _ ac => ?_
      refine (stay.binary rfl bIn dIn).bind fun _ bd => ?_
      refine (stay.binary rfl bIn cIn).bind fun _ bc => ?_
      refine (stay.binary rfl aIn dIn).bind fun _ ad => ?_
      refine (stay.binary rfl ac bd).bind fun _ above => ?_
      refine (stay.binary rfl bc ad).bind fun _ beside => ?_
      refine (stay.binary rfl above denominator).bind fun _ re => ?_
      refine (stay.binary rfl beside denominator).bind fun _ im => ?_
      exact .pure (inside_rectangular stay re im)

/-- Powers with integer exponents are inside. -/
theorem inside_integerPower {exponent : ℤ} (inside : Inside x) :
    SatisfiesM Inside (integerPower parts settings x exponent) := by
  have raised : SatisfiesM Inside
      (raiseOnto (multiply parts settings) (.ofInt 1) x exponent.natAbs) := by
    have product {a b c : Value} (left : Inside a) (right : Inside b)
        (done : multiply parts settings a b = .ok c) : Inside c :=
      SatisfiesM_Except_eq.mp (inside_multiply stay left right) c done
    refine SatisfiesM_Except_eq.mpr fun power done => ?_
    exact raiseOnto_induction (fun _ => Inside) (fun _ => Inside) product
      (fun base => product base base) (i := 0) (j := 1) (stay.ofInt _) inside done
  unfold integerPower
  dsimp only
  split
  · exact Outcome.satisfiesM_error _
  · refine raised.bind fun _ power => ?_
    split
    · exact inside_divide stay (stay.ofInt _) power
    · exact .pure power

/-- The exponential function stays inside. -/
theorem inside_exponential (inside : Inside x) :
    SatisfiesM Inside (exponential parts x) := by
  unfold exponential
  refine (both_rectangularParts stay inside).bind fun ⟨a, b⟩ ⟨aIn, bIn⟩ => ?_
  refine (stay.unary rfl aIn).bind fun _ scale => ?_
  refine (stay.unary rfl bIn).bind fun _ cosine => ?_
  refine (stay.unary rfl bIn).bind fun _ sine => ?_
  refine (stay.binary rfl scale cosine).bind fun _ re => ?_
  refine (stay.binary rfl scale sine).bind fun _ im => ?_
  exact .pure (inside_rectangular stay re im)

/-- The logarithm stays inside. -/
theorem inside_naturalLogarithm (inside : Inside x) :
    SatisfiesM Inside (naturalLogarithm parts settings x) := by
  unfold naturalLogarithm
  refine (both_polarParts stay inside).bind fun ⟨r, s⟩ ⟨length, argument⟩ => ?_
  dsimp only
  split
  · exact Outcome.satisfiesM_error _
  · refine (stay.unary rfl length).bind fun _ logarithm => ?_
    exact .pure (inside_rectangular stay logarithm argument)

/-- The square root stays inside. -/
theorem inside_squareRoot (inside : Inside x) :
    SatisfiesM Inside (squareRoot parts settings x) := by
  unfold squareRoot
  split
  · refine (both_polarParts stay inside).bind fun ⟨r, s⟩ ⟨length, argument⟩ => ?_
    refine (stay.unary rfl length).bind fun _ root => ?_
    refine (stay.binary rfl argument (stay.ofInt _)).bind fun _ half => ?_
    exact .pure (inside_polar stay root half)
  · refine (both_rectangularParts stay inside).bind fun ⟨a, b⟩ ⟨aIn, bIn⟩ => ?_
    refine (inside_modulus stay aIn bIn).bind fun _ m => ?_
    refine (stay.binary rfl m aIn).bind fun _ sum => ?_
    refine (stay.binary rfl sum (stay.ofInt _)).bind fun _ reSquared => ?_
    refine (stay.binary rfl m aIn).bind fun _ difference => ?_
    refine (stay.binary rfl difference (stay.ofInt _)).bind fun _ imSquared => ?_
    refine (stay.unary rfl reSquared).bind fun _ re => ?_
    refine (stay.unary rfl imSquared).bind fun _ im => ?_
    dsimp only
    split
    · refine (stay.unary rfl im).bind fun _ opposite => ?_
      exact .pure (inside_rectangular stay re opposite)
    · exact .pure (inside_rectangular stay re im)

/-- Powers are inside. -/
theorem inside_power (left : Inside x) (right : Inside y) :
    SatisfiesM Inside (power parts settings x y) := by
  unfold power
  split
  · exact inside_integerPower stay left
  · refine (inside_naturalLogarithm stay left).bind fun logarithm inside => ?_
    have factor :
        Inside (if logarithm.isReal then withoutImaginary logarithm else logarithm) := by
      split
      · exact stay.withoutImaginary inside
      · exact inside
    refine (inside_multiply stay right factor).bind fun _ product => ?_
    exact inside_exponential stay product

/-- All operations on two numbers inside have results inside. -/
theorem inside_binary {command : Command} (left : Inside x) (right : Inside y) :
    SatisfiesM Inside (binary parts settings command x y) := by
  unfold binary
  split
  · exact inside_combine stay rfl left right
  · exact inside_combine stay rfl left right
  · exact inside_multiply stay left right
  · exact inside_divide stay left right
  · exact inside_power stay left right
  · exact Outcome.satisfiesM_error _

/-- All functions of a number inside have values inside. -/
theorem inside_unary {command : Command} (inside : Inside x) :
    SatisfiesM Inside (unary parts settings command x) := by
  unfold unary
  split
  · refine (both_rectangularParts stay inside).bind fun ⟨a, b⟩ ⟨aIn, bIn⟩ => ?_
    refine (stay.unary rfl aIn).bind fun _ re => ?_
    refine (stay.unary rfl bIn).bind fun _ im => ?_
    exact .pure (inside_rectangular stay re im)
  · exact inside_divide stay (stay.withoutImaginary (stay.ofInt 1)) inside
  · exact inside_multiply stay inside inside
  · refine (inside_multiply stay inside inside).bind fun _ square => ?_
    exact inside_multiply stay square inside
  · refine (both_rectangularParts stay inside).bind fun ⟨a, b⟩ ⟨aIn, bIn⟩ => ?_
    exact inside_modulus stay aIn bIn
  · exact inside_squareRoot stay inside
  · exact inside_exponential stay inside
  · exact inside_naturalLogarithm stay inside
  · refine (stay.unary rfl (stay.ofInt _)).bind fun _ base => ?_
    refine (inside_naturalLogarithm stay inside).bind fun _ logarithm => ?_
    exact inside_divide stay logarithm (stay.withoutImaginary base)
  · exact Outcome.satisfiesM_error _

end Complex

end Calculator
