import Calculator.Arithmetic.Complex
import Calculator.Polynomial

/-!
# Polynomials and expressions

The two directions between algebraic expressions and polynomials whose factors are
values. An expression is a polynomial if it is built from names and numbers by
negation, addition, subtraction, multiplication and powers with exponents that are
natural numbers. Written back, a polynomial becomes the sum of its monomials in order,
with a subtraction in front of a factor below zero.
-/

namespace Calculator.Polynomial

/-- The arithmetic of values as the arithmetic of factors. -/
def factors (operations : Operations) : FactorOperations Value where
  add := operations.binary .add
  multiply := operations.binary .multiply
  negate := operations.unary .negate
  isZero := Value.isZero

/-- The polynomial that consists of one variable. -/
def ofVariable (name : Symbol) : Polynomial := ⟨[name], [⟨.ofInt 1, [1]⟩]⟩

/-- The polynomial that consists of one number. -/
def ofConstant (value : Value) : Polynomial :=
  if value.isZero then .zero else ⟨[], [⟨value, []⟩]⟩

/-- The value of a polynomial without variables. -/
def constant? (p : Polynomial) : Option Value :=
  match p.terms with
  | [] => some (.ofInt 0)
  | [term] => if term.exponents.all (· == 0) then some term.factor else none
  | _ => none

/-- The number of a value that is a natural number and fits a 32-bit word. -/
def exponent? (value : Value) : Option UInt32 :=
  match value.toInt? with
  | some n => if 0 ≤ n && n.toNat < UInt32.size then some (UInt32.ofNat n.toNat) else none
  | none => none

/-- The sum of two polynomials. -/
def add (operations : Operations) (settings : Preferences) (p q : Polynomial) : Outcome Polynomial :=
  PolynomialOver.add (factors operations) settings.caseSensitive p q

/-- The difference of two polynomials. -/
def subtract (operations : Operations) (settings : Preferences) (p q : Polynomial) :
    Outcome Polynomial :=
  PolynomialOver.subtract (factors operations) settings.caseSensitive p q

/-- The product of two polynomials. -/
def multiply (operations : Operations) (settings : Preferences) (p q : Polynomial) :
    Outcome Polynomial :=
  PolynomialOver.multiply (factors operations) settings.caseSensitive p q

/-- The polynomial with the opposite sign. -/
def negate (operations : Operations) (p : Polynomial) : Outcome Polynomial :=
  PolynomialOver.negate (factors operations) p

/-- The power of a polynomial. -/
def power (operations : Operations) (settings : Preferences) (p : Polynomial) (exponent : UInt32) :
    Outcome Polynomial :=
  PolynomialOver.power (factors operations) settings.caseSensitive (.ofInt 1) p exponent

/-- The polynomial that a leaf of an expression stands for. -/
def ofLeaf (item : Value) : Outcome Polynomial :=
  match item with
  | .symbol name => .ok (ofVariable name)
  | .polynomial p => .ok p
  | .real _ | .complex _ _ _ => .ok (ofConstant item)
  | _ => .error .badArgumentType

/-- The polynomial that an operator makes of polynomials. -/
def ofNode (operations : Operations) (settings : Preferences) (command : Command)
    (operands : List Polynomial) : Outcome Polynomial :=
  match command, operands with
  | .negate, [p] => negate operations p
  | .square, [p] => power operations settings p 2
  | .cube, [p] => power operations settings p 3
  | .add, [p, q] => add operations settings p q
  | .subtract, [p, q] => subtract operations settings p q
  | .multiply, [p, q] => multiply operations settings p q
  | .power, [p, q] =>
    match (constant? q).bind exponent? with
    | some exponent => power operations settings p exponent
    | none => .error .badArgumentValue
  | _, _ => .error .badArgumentValue

/-- The polynomial that an expression denotes. -/
def ofExpression (operations : Operations) (settings : Preferences) (items : List Value) :
    Outcome Polynomial := do
  match ← Expression.fold ofLeaf (ofNode operations settings) items with
  | [p] => return p
  | _ => throw .badArgumentValue

/-- The polynomial that a value denotes. -/
def ofValue (operations : Operations) (settings : Preferences) (value : Value) :
    Outcome Polynomial :=
  match value with
  | .sequence .expression items => ofExpression operations settings items
  | other => ofLeaf other

/-- A power of a variable in postfix order. -/
def powerItems (name : Symbol) (exponent : UInt32) : List Value :=
  if exponent = 1 then [.symbol name]
  else [.symbol name, .ofInt exponent.toNat, .command .power]

/-- The powers of variables in postfix order, each multiplied onto those before it. -/
def monomialItems (names : List Symbol) (exponents : List UInt32) : List Value :=
  let powers := (names.zip exponents).filter fun (_, exponent) => exponent != 0
  match powers with
  | [] => []
  | (name, exponent) :: rest =>
    powerItems name exponent
      ++ rest.flatMap fun (name, exponent) => powerItems name exponent ++ [.command .multiply]

/-- A term in postfix order, with a factor that may differ from its own. -/
def termItems (factor : Value) (monomial : List Value) : List Value :=
  if monomial.isEmpty then [factor]
  else if factor.isOne then monomial
  else if factor == .ofInt (-1) then monomial ++ [.command .negate]
  else factor :: monomial ++ [.command .multiply]

/-- A term that is not the first one, in postfix order. A factor below zero is subtracted
with the opposite sign, any other is added. -/
def laterTermItems (names : List Symbol) (term : Term Value) : List Value :=
  let monomial := monomialItems names term.exponents
  match term.factor with
  | .real number =>
    if number.isNegative then termItems (.real number.negated) monomial ++ [.command .subtract]
    else termItems term.factor monomial ++ [.command .add]
  | factor => termItems factor monomial ++ [.command .add]

/-- The expression that a polynomial denotes, in postfix order. -/
def toExpression (p : Polynomial) : List Value :=
  match p.terms with
  | [] => [.ofInt 0]
  | first :: rest =>
    termItems first.factor (monomialItems p.names first.exponents)
      ++ rest.flatMap (laterTermItems p.names)

/-- Multiplies a factor by the powers of the variables' values. -/
def evaluateTerm (operations : Operations) :
    Value → List (Value × UInt32) → Outcome Value
  | product, [] => .ok product
  | product, (value, exponent) :: rest => do
    if exponent = 0 then evaluateTerm operations product rest
    else
      let power ← operations.binary .power value (.ofInt exponent.toNat)
      evaluateTerm operations (← operations.binary .multiply product power) rest

/-- The value of a polynomial for values of its variables, given in their order. -/
def evaluateAt (operations : Operations) (p : Polynomial) (values : List Value) :
    Outcome Value := do
  if values.length != p.names.length then throw .tooFewArguments
  p.terms.foldlM (fun sum term => do
    operations.binary .add sum (← evaluateTerm operations term.factor (values.zip term.exponents)))
    (.ofInt 0)

end Calculator.Polynomial

namespace Calculator.Value

/-- The items that a value contributes to an expression in postfix order. -/
def postfixItems : Value → List Value
  | .sequence .expression items => items
  | .polynomial p => Polynomial.toExpression p
  | other => [other]

end Calculator.Value
