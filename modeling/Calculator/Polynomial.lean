import Calculator.Expression

/-!
# Polynomials

Polynomials in any number of variables over any kind of factors. The variables are kept
in descending order and the terms in descending order of their exponents; like terms are
combined, terms with a factor of zero are left out, and so are variables that no term
has. The sum of two polynomials is formed over the union of their variables.

Adding and multiplying factors may fail, and so may every operation that does it.
-/

namespace Calculator

/-- The arithmetic of factors that polynomials need. -/
structure FactorOperations (Factor : Type) where
  add : Factor → Factor → Outcome Factor
  multiply : Factor → Factor → Outcome Factor
  negate : Factor → Outcome Factor
  isZero : Factor → Bool

namespace PolynomialOver

variable {Factor : Type}

/-- The polynomial without terms. -/
def zero : PolynomialOver Factor := ⟨[], []⟩

/-- Whether the polynomial has no terms. -/
def isZero (p : PolynomialOver Factor) : Bool := p.terms.isEmpty

/-- The polynomial of a single factor without variables. -/
def constant (operations : FactorOperations Factor) (factor : Factor) : PolynomialOver Factor :=
  if operations.isZero factor then zero else ⟨[], [⟨factor, []⟩]⟩

/-- The union of two descending rows of variables. Every variable is marked with whether
it comes from the first row and whether it comes from the second. -/
def mergeVariables (caseSensitive : Bool) : List Symbol → List Symbol → List (Symbol × Bool × Bool)
  | [], [] => []
  | x :: xs, [] => (x, true, false) :: mergeVariables caseSensitive xs []
  | [], y :: ys => (y, false, true) :: mergeVariables caseSensitive [] ys
  | x :: xs, y :: ys =>
    match x.compare y caseSensitive with
    | .gt => (x, true, false) :: mergeVariables caseSensitive xs (y :: ys)
    | .lt => (y, false, true) :: mergeVariables caseSensitive (x :: xs) ys
    | .eq => (x, true, true) :: mergeVariables caseSensitive xs ys
termination_by xs ys => xs.length + ys.length

/-- Spreads exponents over more variables: a marked place takes the next exponent, and
another place takes zero. -/
def spread : List Bool → List UInt32 → List UInt32
  | [], _ => []
  | true :: marks, exponent :: exponents => exponent :: spread marks exponents
  | _ :: marks, exponents => 0 :: spread marks exponents

/-- The terms of a polynomial over the variables among which its own are marked. -/
def spreadTerms (marks : List Bool) (terms : List (Term Factor)) : List (Term Factor) :=
  terms.map fun term => ⟨term.factor, spread marks term.exponents⟩

/-- The order of two rows of exponents: the first difference decides. -/
def orderExponents : List UInt32 → List UInt32 → Ordering
  | [], [] => .eq
  | [], _ :: _ => .lt
  | _ :: _, [] => .gt
  | x :: xs, y :: ys =>
    match compare x y with
    | .eq => orderExponents xs ys
    | order => order

/-- Sorts terms by descending exponents. Like terms keep their order. -/
def sortTerms (terms : List (Term Factor)) : List (Term Factor) :=
  terms.mergeSort fun left right => orderExponents left.exponents right.exponents != .lt

/-- Adds neighbouring like terms, given a term that comes before all others. -/
def combineOnto (operations : FactorOperations Factor) :
    Term Factor → List (Term Factor) → Outcome (List (Term Factor))
  | last, [] => .ok [last]
  | last, term :: terms => do
    if last.exponents = term.exponents then
      let factor ← operations.add last.factor term.factor
      combineOnto operations ⟨factor, last.exponents⟩ terms
    else
      let combined ← combineOnto operations term terms
      return last :: combined

/-- Adds neighbouring like terms. -/
def combine (operations : FactorOperations Factor) :
    List (Term Factor) → Outcome (List (Term Factor))
  | [] => .ok []
  | term :: terms => combineOnto operations term terms

/-- For every variable, whether some term has it with a positive exponent. -/
def usedVariables (count : Nat) (terms : List (Term Factor)) : List Bool :=
  terms.foldl (fun used term => List.zipWith (fun u e => u || 0 < e) used term.exponents)
    (List.replicate count false)

/-- The entries of a row at the marked places. -/
def select {α : Type} : List Bool → List α → List α
  | true :: marks, x :: xs => x :: select marks xs
  | false :: marks, _ :: xs => select marks xs
  | _, _ => []

/-- The polynomial with the given variables and terms, put into order. -/
def normalize (operations : FactorOperations Factor) (names : List Symbol)
    (terms : List (Term Factor)) : Outcome (PolynomialOver Factor) := do
  let combined ← combine operations (sortTerms terms)
  let kept := combined.filter fun term => !operations.isZero term.factor
  let used := usedVariables names.length kept
  return ⟨select used names, kept.map fun term => ⟨term.factor, select used term.exponents⟩⟩

/-- The sum. -/
def add (operations : FactorOperations Factor) (caseSensitive : Bool)
    (p q : PolynomialOver Factor) : Outcome (PolynomialOver Factor) :=
  let merged := mergeVariables caseSensitive p.names q.names
  normalize operations (merged.map Prod.fst)
    (spreadTerms (merged.map fun entry => entry.2.1) p.terms
      ++ spreadTerms (merged.map fun entry => entry.2.2) q.terms)

/-- The polynomial with the opposite sign. -/
def negate (operations : FactorOperations Factor) (p : PolynomialOver Factor) :
    Outcome (PolynomialOver Factor) := do
  let terms ← p.terms.mapM fun term => do
    let factor ← operations.negate term.factor
    return ⟨factor, term.exponents⟩
  return ⟨p.names, terms⟩

/-- The difference. -/
def subtract (operations : FactorOperations Factor) (caseSensitive : Bool)
    (p q : PolynomialOver Factor) : Outcome (PolynomialOver Factor) := do
  add operations caseSensitive p (← negate operations q)

/-- The sum of two exponents, if it fits a word. -/
def addExponents (x y : UInt32) : Outcome UInt32 :=
  if x.toNat + y.toNat < UInt32.size then .ok (x + y) else .error .badArgumentValue

/-- The product of two terms over the same variables. -/
def multiplyTerms (operations : FactorOperations Factor) (left right : Term Factor) :
    Outcome (Term Factor) := do
  let exponents ← (left.exponents.zip right.exponents).mapM fun (x, y) => addExponents x y
  let factor ← operations.multiply left.factor right.factor
  return ⟨factor, exponents⟩

/-- The product. -/
def multiply (operations : FactorOperations Factor) (caseSensitive : Bool)
    (p q : PolynomialOver Factor) : Outcome (PolynomialOver Factor) := do
  let merged := mergeVariables caseSensitive p.names q.names
  let lefts := spreadTerms (merged.map fun entry => entry.2.1) p.terms
  let rights := spreadTerms (merged.map fun entry => entry.2.2) q.terms
  let products ← lefts.mapM fun left => rights.mapM (multiplyTerms operations left)
  normalize operations (merged.map Prod.fst) products.flatten

/-- The power. The polynomial without terms has no power with the exponent zero. -/
def power (operations : FactorOperations Factor) (caseSensitive : Bool) (unit : Factor)
    (p : PolynomialOver Factor) (exponent : UInt32) : Outcome (PolynomialOver Factor) :=
  if exponent = 0 && p.isZero then .error .undefinedOperation
  else
    raiseOnto (multiply operations caseSensitive) (constant operations unit) p exponent.toNat

end PolynomialOver

end Calculator
