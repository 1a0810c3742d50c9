import Calculator.Arithmetic
import Calculator.Proofs.Expression.Folding
import Calculator.Proofs.Number.Sign
import Calculator.Proofs.Polynomial.Normal
import Mathlib

/-!
# The polynomials that can be made

Polynomials are made of names and numbers by changes of sign, sums, differences, products and
powers, one by one or as an expression says. What all of these keep holds of every polynomial that
can be made. So all of them are orderly, and of those made of real numbers none has a zero for a
factor.
-/

namespace Calculator

/-! ## What the operations keep -/

namespace Polynomial

/-- What the operations on polynomials keep. -/
structure Closed (operations : Operations) (settings : Preferences) (Holds : Polynomial → Prop) :
    Prop where
  negate {p result} : Holds p → negate operations p = .ok result → Holds result
  add {p q result} : Holds p → Holds q → add operations settings p q = .ok result → Holds result
  subtract {p q result} : Holds p → Holds q → subtract operations settings p q = .ok result →
    Holds result
  multiply {p q result} : Holds p → Holds q → multiply operations settings p q = .ok result →
    Holds result
  power {p exponent result} : Holds p → power operations settings p exponent = .ok result →
    Holds result

variable {operations : Operations} {settings : Preferences} {Holds : Polynomial → Prop}

/-- An operator of an expression keeps what the operations keep. -/
theorem Closed.ofNode (closed : Closed operations settings Holds) {command : Command}
    {operands : List Polynomial} {result : Polynomial} (all : ∀ operand ∈ operands, Holds operand)
    (done : ofNode operations settings command operands = .ok result) : Holds result := by
  unfold Polynomial.ofNode at done
  have single {p : Polynomial} (only : ∀ operand ∈ [p], Holds operand) : Holds p :=
    only p List.mem_cons_self
  have pair {p q : Polynomial} (both : ∀ operand ∈ [p, q], Holds operand) : Holds p ∧ Holds q :=
    ⟨both p List.mem_cons_self, both q (List.mem_cons_of_mem p List.mem_cons_self)⟩
  split at done
  · exact closed.negate (single all) done
  · exact closed.power (single all) done
  · exact closed.power (single all) done
  · exact closed.add (pair all).1 (pair all).2 done
  · exact closed.subtract (pair all).1 (pair all).2 done
  · exact closed.multiply (pair all).1 (pair all).2 done
  · split at done
    · exact closed.power (pair all).1 done
    · cases done
  · cases done

/-- What the operations keep holds of the polynomial an expression denotes, if it holds of the
names, polynomials and numbers in the expression. -/
theorem Closed.ofExpression (closed : Closed operations settings Holds) {items : List Value}
    {result : Polynomial} (names : ∀ name, .symbol name ∈ items → Holds (ofVariable name))
    (polynomials : ∀ p, .polynomial p ∈ items → Holds p)
    (numbers : ∀ value ∈ items, value.isNumber = true → Holds (ofConstant value))
    (done : ofExpression operations settings items = .ok result) : Holds result := by
  obtain ⟨results, folded, rest⟩ := Outcome.bind_eq_ok.mp done
  have all : ∀ result ∈ results, Holds result :=
    Expression.foldOnto_induction ?_ ?_ (List.forall_mem_nil _) folded
  · split at rest
    · obtain rfl := Except.ok.inj rest
      exact all _ List.mem_cons_self
    · cases rest
  · intro item among _ p leaf
    unfold ofLeaf at leaf
    split at leaf
    · obtain rfl := Except.ok.inj leaf
      exact names _ among
    · obtain rfl := Except.ok.inj leaf
      exact polynomials _ among
    · obtain rfl := Except.ok.inj leaf
      exact numbers _ among rfl
    · obtain rfl := Except.ok.inj leaf
      exact numbers _ among rfl
    · cases leaf
  · exact fun command operands result _ _ => closed.ofNode

/-- The polynomials that can be made of names and certain constants. An expression may contain
polynomials that were made before. -/
inductive Made (operations : Operations) (settings : Preferences) (Constant : Value → Prop) :
    Polynomial → Prop
  | name (name : Symbol) : Made operations settings Constant (ofVariable name)
  | constant (value : Value) (allowed : Constant value) :
      Made operations settings Constant (ofConstant value)
  | negate {p result} (operand : Made operations settings Constant p)
      (done : negate operations p = .ok result) : Made operations settings Constant result
  | add {p q result} (left : Made operations settings Constant p)
      (right : Made operations settings Constant q)
      (done : add operations settings p q = .ok result) : Made operations settings Constant result
  | subtract {p q result} (left : Made operations settings Constant p)
      (right : Made operations settings Constant q)
      (done : subtract operations settings p q = .ok result) :
      Made operations settings Constant result
  | multiply {p q result} (left : Made operations settings Constant p)
      (right : Made operations settings Constant q)
      (done : multiply operations settings p q = .ok result) :
      Made operations settings Constant result
  | power {p exponent result} (base : Made operations settings Constant p)
      (done : power operations settings p exponent = .ok result) :
      Made operations settings Constant result
  | expression {items : List Value} {result}
      (polynomials : ∀ p, .polynomial p ∈ items → Made operations settings Constant p)
      (numbers : ∀ value ∈ items, value.isNumber = true → Constant value)
      (done : ofExpression operations settings items = .ok result) :
      Made operations settings Constant result

/-- What the operations keep holds of all polynomials that can be made. -/
theorem Made.induction (closed : Closed operations settings Holds) {Constant : Value → Prop}
    (names : ∀ name, Holds (ofVariable name))
    (constants : ∀ value, Constant value → Holds (ofConstant value)) {p : Polynomial}
    (made : Made operations settings Constant p) : Holds p := by
  induction made with
  | name name => exact names name
  | constant value allowed => exact constants value allowed
  | negate _ done operand => exact closed.negate operand done
  | add _ _ done left right => exact closed.add left right done
  | subtract _ _ done left right => exact closed.subtract left right done
  | multiply _ _ done left right => exact closed.multiply left right done
  | power _ done base => exact closed.power base done
  | expression _ numbers done polynomials =>
    exact closed.ofExpression (fun name _ => names name) polynomials
      (fun value among number => constants value (numbers value among number)) done

/-! ## Names -/

/-- No operation makes a name. -/
theorem closed_names (Allowed : Symbol → Prop) :
    Closed operations settings fun p => ∀ name ∈ p.names, Allowed name := by
  have merged {p q result : Polynomial} {terms : List (Term Value)}
      (left : ∀ name ∈ p.names, Allowed name) (right : ∀ name ∈ q.names, Allowed name)
      (done : PolynomialOver.normalize (factors operations)
        ((PolynomialOver.mergeVariables settings.caseSensitive p.names q.names).map Prod.fst)
          terms = .ok result) : ∀ name ∈ result.names, Allowed name := by
    intro name among
    obtain ⟨entry, listed, rfl⟩ :=
      List.mem_map.mp (PolynomialOver.mem_names_normalize done name among)
    exact (PolynomialOver.mem_mergeVariables listed).elim (left _) (right _)
  have product {p q result : Polynomial} (left : ∀ name ∈ p.names, Allowed name)
      (right : ∀ name ∈ q.names, Allowed name)
      (done : multiply operations settings p q = .ok result) :
      ∀ name ∈ result.names, Allowed name := by
    obtain ⟨products, normalized, -⟩ := PolynomialOver.multiply_eq_ok done
    exact merged left right normalized
  refine ⟨fun base done => ?_, fun left right done => merged left right done,
    fun left right done => ?_, product, fun base done => ?_⟩
  · rwa [(PolynomialOver.negate_eq_ok done).1]
  · obtain ⟨opposite, negated, added⟩ := Outcome.bind_eq_ok.mp done
    rw [← (PolynomialOver.negate_eq_ok negated).1] at right
    exact merged left right added
  · unfold power PolynomialOver.power at done
    split at done
    · cases done
    · refine raiseOnto_induction (fun _ p => ∀ name ∈ p.names, Allowed name)
        (fun _ p => ∀ name ∈ p.names, Allowed name) product (fun square => product square square)
        (i := 0) (j := 1) ?_ base done
      unfold PolynomialOver.constant
      split <;> exact List.forall_mem_nil _

/-- The names of the polynomial that an expression denotes are names in the expression, if there are
no polynomials in it. -/
theorem symbol_mem_of_ofExpression {items : List Value} {p : Polynomial}
    (plain : ∀ q, .polynomial q ∉ items) (done : ofExpression operations settings items = .ok p) :
    ∀ name ∈ p.names, .symbol name ∈ items := by
  refine (closed_names fun name => .symbol name ∈ items).ofExpression ?_
    (fun q among => absurd among (plain q)) (fun value _ _ => ?_) done
  · intro name among other same
    obtain rfl := List.mem_singleton.mp same
    exact among
  · unfold ofConstant
    split <;> exact List.forall_mem_nil _

/-! ## Factors -/

/-- All operations keep what sums, products and opposites of factors keep, if it holds of one. -/
theorem closed_factors {Kind : Value → Prop}
    (sum : ∀ {x y z}, Kind x → Kind y → operations.binary .add x y = .ok z → Kind z)
    (product : ∀ {x y z}, Kind x → Kind y → operations.binary .multiply x y = .ok z → Kind z)
    (opposite : ∀ {x z}, Kind x → operations.unary .negate x = .ok z → Kind z)
    (one : Kind (.ofInt 1)) :
    Closed operations settings fun p => ∀ term ∈ p.terms, Kind term.factor := by
  have negated {p result : Polynomial} (all : ∀ term ∈ p.terms, Kind term.factor)
      (done : negate operations p = .ok result) : ∀ term ∈ result.terms, Kind term.factor := by
    intro term among
    obtain ⟨before, listed, changed⟩ := PolynomialOver.exists_of_mem_negate done among
    exact opposite (all before listed) changed
  refine ⟨negated, fun left right done => ?_, fun left right done => ?_,
    fun left right done => ?_, fun base done => ?_⟩
  · exact PolynomialOver.factors_add Kind sum left right done
  · obtain ⟨turned, opposite, added⟩ := Outcome.bind_eq_ok.mp done
    exact PolynomialOver.factors_add Kind sum left (negated right opposite) added
  · exact PolynomialOver.factors_multiply Kind sum product left right done
  · exact PolynomialOver.factors_power Kind sum product one base done

/-- What holds of a number holds of the factor of the number as a polynomial. -/
theorem factors_ofConstant {Kind : Value → Prop} {value : Value} (kind : Kind value) :
    ∀ term ∈ (ofConstant value).terms, Kind term.factor := by
  unfold ofConstant
  split
  · exact List.forall_mem_nil _
  · simpa using kind

/-! ## Order -/

/-- All operations keep an exponent for each name in every term. -/
theorem closed_aligned :
    Closed operations settings fun p => ∀ row ∈ p.rows, row.length = p.names.length where
  negate aligned done := by
    rw [PolynomialOver.rows_negate done, (PolynomialOver.negate_eq_ok done).1]
    exact aligned
  add _ _ done := PolynomialOver.aligned_add done
  subtract _ _ done := by
    obtain ⟨opposite, negated, added⟩ := Outcome.bind_eq_ok.mp done
    exact PolynomialOver.aligned_add added
  multiply _ _ done := PolynomialOver.aligned_multiply done
  power _ done := PolynomialOver.aligned_power done

/-- All operations keep order. -/
theorem closed_orderly :
    Closed operations settings (PolynomialOver.Orderly settings.caseSensitive) where
  negate orderly done := PolynomialOver.orderly_negate orderly done
  add left right done := (PolynomialOver.normal_add left.names right.names done).toOrderly
  subtract left right done := by
    obtain ⟨opposite, negated, added⟩ := Outcome.bind_eq_ok.mp done
    have turned := PolynomialOver.orderly_negate right negated
    exact (PolynomialOver.normal_add left.names turned.names added).toOrderly
  multiply left right done := (PolynomialOver.normal_multiply left.names right.names done).toOrderly
  power base done := (PolynomialOver.normal_power base.names done).toOrderly

/-- A name is a polynomial in normal form. -/
theorem normal_ofVariable (name : Symbol) :
    PolynomialOver.Normal (factors operations) settings.caseSensitive (ofVariable name) where
  names := List.pairwise_singleton _ _
  aligned := by simp [ofVariable, PolynomialOver.rows]
  descend := List.pairwise_singleton _ _
  used place inside := by
    obtain rfl : place = 0 := Nat.lt_one_iff.mp inside
    exact ⟨[1], List.mem_singleton_self _, by decide⟩
  nonzero term among := by
    obtain rfl := List.mem_singleton.mp among
    rfl

/-- A number is a polynomial in normal form. -/
theorem normal_ofConstant (value : Value) :
    PolynomialOver.Normal (factors operations) settings.caseSensitive (ofConstant value) :=
  (PolynomialOver.normal_constant value :
    PolynomialOver.Normal (factors operations) settings.caseSensitive
      (PolynomialOver.constant (factors operations) value))

/-- All polynomials that can be made are orderly. -/
theorem Made.orderly {Constant : Value → Prop} {p : Polynomial}
    (made : Made operations settings Constant p) :
    PolynomialOver.Orderly settings.caseSensitive p :=
  made.induction closed_orderly
    (fun name => (normal_ofVariable name :
      PolynomialOver.Normal (factors operations) _ _).toOrderly)
    fun value _ => (normal_ofConstant value :
      PolynomialOver.Normal (factors operations) _ _).toOrderly

/-! ## Normal form -/

/-- Whether all factors are real numbers. -/
def IsReal (p : Polynomial) : Prop := ∀ term ∈ p.terms, term.factor.isReal = true

/-- What normal form needs of the arithmetic of real numbers: sums, products and opposites are real
numbers again, and the opposite of a number that is not zero is not zero. -/
structure RealArithmetic (operations : Operations) : Prop where
  add {x y z : Value} : x.isReal = true → y.isReal = true → operations.binary .add x y = .ok z →
    z.isReal = true
  multiply {x y z : Value} : x.isReal = true → y.isReal = true →
    operations.binary .multiply x y = .ok z → z.isReal = true
  negate {x z : Value} : x.isReal = true → x.isZero = false → operations.unary .negate x = .ok z →
    z.isReal = true ∧ z.isZero = false

/-- All operations keep normal form, as long as the factors are real numbers. -/
theorem closed_normal (arithmetic : RealArithmetic operations) :
    Closed operations settings fun p =>
      PolynomialOver.Normal (factors operations) settings.caseSensitive p ∧ IsReal p := by
  have opposite {p result : Polynomial}
      (base : PolynomialOver.Normal (factors operations) settings.caseSensitive p ∧ IsReal p)
      (done : negate operations p = .ok result) :
      PolynomialOver.Normal (factors operations) settings.caseSensitive result ∧ IsReal result := by
    have turned (term) (among : term ∈ result.terms) :
        term.factor.isReal = true ∧ term.factor.isZero = false := by
      obtain ⟨before, listed, changed⟩ := PolynomialOver.exists_of_mem_negate done among
      exact arithmetic.negate (base.2 before listed) (base.1.nonzero before listed) changed
    exact ⟨⟨PolynomialOver.orderly_negate base.1.toOrderly done, fun term among =>
      (turned term among).2⟩, fun term among => (turned term among).1⟩
  refine ⟨opposite, fun left right done => ?_, fun left right done => ?_,
    fun left right done => ?_, fun base done => ?_⟩
  · exact ⟨PolynomialOver.normal_add left.1.names right.1.names done,
      PolynomialOver.factors_add (fun value : Value => value.isReal = true) arithmetic.add
        left.2 right.2 done⟩
  · obtain ⟨turned, negated, added⟩ := Outcome.bind_eq_ok.mp done
    obtain ⟨normal, real⟩ := opposite right negated
    exact ⟨PolynomialOver.normal_add left.1.names normal.names added,
      PolynomialOver.factors_add (fun value : Value => value.isReal = true) arithmetic.add
        left.2 real added⟩
  · exact ⟨PolynomialOver.normal_multiply left.1.names right.1.names done,
      PolynomialOver.factors_multiply (fun value : Value => value.isReal = true) arithmetic.add
        arithmetic.multiply left.2 right.2 done⟩
  · exact ⟨PolynomialOver.normal_power base.1.names done,
      PolynomialOver.factors_power (fun value : Value => value.isReal = true) arithmetic.add
        arithmetic.multiply rfl base.2 done⟩

/-- A polynomial that is made of names and real numbers is in normal form. -/
theorem Made.normal (arithmetic : RealArithmetic operations) {p : Polynomial}
    (made : Made operations settings (fun value => value.isReal = true) p) :
    PolynomialOver.Normal (factors operations) settings.caseSensitive p := by
  refine (made.induction (closed_normal arithmetic) ?_ ?_).1
  · refine fun name => ⟨normal_ofVariable name, fun term among => ?_⟩
    obtain rfl := List.mem_singleton.mp among
    rfl
  · refine fun value real => ⟨normal_ofConstant value, fun term among => ?_⟩
    unfold ofConstant at among
    split at among
    · cases among
    · obtain rfl := List.mem_singleton.mp among
      exact real

/-- What a real number is. -/
theorem exists_real {x : Value} (real : x.isReal = true) : ∃ a, x = .real a := by
  cases x with
  | real a => exact ⟨a, rfl⟩
  | _ => cases real

/-- A change of sign makes the opposite of a real number, in the form that is asked for. -/
theorem unary_negate (x : Real) :
    Arithmetic.unary .negate (.real x) settings = .ok (.real (x.negated.finished settings)) := by
  have level : Arithmetic.unary .negate (.real x) settings =
    Arithmetic.unaryOver (Arithmetic.upTo settings 7) settings .negate (.real x) := rfl
  rw [level, Arithmetic.unaryOver_real _ _ rfl]
  rfl

/-- The arithmetic of values is as normal form needs it. -/
theorem realArithmetic (settings : Preferences) :
    RealArithmetic (Arithmetic.operations settings) := by
  have binary {command : Command} {operation : ℚ → ℚ → ℚ}
      (known : command.rational? = some operation) {x y z : Value} (left : x.isReal = true)
      (right : y.isReal = true) (done : Arithmetic.binary command x y settings = .ok z) :
      z.isReal = true := by
    obtain ⟨a, rfl⟩ := exists_real left
    obtain ⟨b, rfl⟩ := exists_real right
    rw [Arithmetic.binary_real known] at done
    obtain ⟨result, -, rfl⟩ := Outcome.map_eq_ok.mp done
    rfl
  have unary {x z : Value} (real : x.isReal = true) (nonzero : x.isZero = false)
      (done : Arithmetic.unary .negate x settings = .ok z) :
      z.isReal = true ∧ z.isZero = false := by
    obtain ⟨a, rfl⟩ := exists_real real
    rw [unary_negate] at done
    obtain rfl := Except.ok.inj done
    refine ⟨rfl, ?_⟩
    change a.isZero = false at nonzero
    change Real.isZero _ = false
    rw [← Bool.not_eq_true, Real.isZero_iff] at nonzero ⊢
    rwa [Real.sign_finished, Real.sign_negated, neg_eq_zero]
  exact ⟨@binary .add _ rfl, @binary .multiply _ rfl, unary⟩

end Polynomial

end Calculator
