import Calculator.Proofs.Expression.Arithmetic
import Calculator.Proofs.Expression.Binding
import Calculator.Proofs.Source.Permitted
import Calculator.Source.Reading
import Mathlib

/-!
# What is read has a single root

Whatever the tokens are, an expression that is read has a single root, and so have all units and
expressions in it, as well-rooted values permit all that can be read. With what arithmetic makes of
operands, what polynomials are written as and what becomes of bindings, these are all expressions
that are ever built.
-/

namespace Calculator.Source

open Expression (IsSingle Rooted Tail expandBindings rooted_iff tail_nil tail_operator)
open Value (Sound WellRooted)

/-- Leaves that are well rooted are sound. -/
theorem rooted_sound {items : List Value} (rooted : Rooted WellRooted items) : Rooted Sound items :=
  rooted.imp fun _ _ leaf _ => leaf

/-- Well-rooted values are a kind that permits what can be read. -/
theorem permits_wellRooted : Permits (fun _ => WellRooted) fun _ => WellRooted where
  alone rooted := Value.operandsOf_of_isCommand rooted.isCommand
  wider rooted := rooted
  object rooted := rooted
  made _ := .real _
  negated _ := .real _
  symbol := .symbol
  text := .text
  complex form _ _ first second := .complex form first second
  polynomial {_ items settings _} rooted done := by
    have expression := Value.wellRooted_expression (rooted_sound rooted)
    have factors : SatisfiesM Polynomial.FactorsRooted
        (Polynomial.ofExpression (Arithmetic.operations settings) settings items) :=
      Polynomial.factorsRooted_ofValue (Arithmetic.keepRoots_operations settings) expression
    exact .polynomial (SatisfiesM_Except_eq.mp factors _ done)
  quantity rooted unit := Value.wellRooted_unit_iff.mpr ⟨rooted, rooted_sound unit⟩
  unit rooted unit := Value.wellRooted_unit_iff.mpr ⟨rooted, rooted_sound unit⟩
  sequence plain inside := .sequence (fun same => absurd same plain) inside
  expression rooted := Value.wellRooted_expression (rooted_sound rooted)

/-- The values of a command line are commands or well rooted. -/
theorem sound_readLine (source : String) (settings : Preferences) :
    SatisfiesM (fun items => ∀ item ∈ items, Sound item) (readLine source settings) :=
  readable_readLine permits_wellRooted source settings

/-- The first value of a text is a command or well rooted. -/
theorem sound_readObject (source : String) (settings : Preferences) (kind : Option SequenceKind)
    (precedence : Precedence) :
    SatisfiesM (fun found => ∀ read ∈ found, Sound read.1)
      (readObject source settings kind precedence) :=
  readable_readObject permits_wellRooted source settings kind precedence

/-! ## All expressions that are built -/

/-- Every expression that is built has a single root. All values that are read are commands or well
rooted: every expression and every unit in them folds to exactly one value, however deep it lies. An
operator behind as many operands as it takes makes an expression with a single root of such
operands, and a well-rooted one of well-rooted operands; and whatever arithmetic makes of
well-rooted operands is well rooted, such as products, quotients and powers of values with units. A
polynomial with numbers for its factors is written out as an expression with a single root, which is
well rooted if the factors are. And an expression with a single root keeps it when its bindings are
carried out, and stays well rooted if it was. -/
theorem built_single_rooted (settings : Preferences) :
    (∀ source values, readLine source settings = .ok values → ∀ value ∈ values, Sound value) ∧
    (∀ source kind precedence value length,
      readObject source settings kind precedence = .ok (some (value, length)) → Sound value) ∧
    (∀ command x y, command.operands = 2 →
      (IsSingle x.postfixItems → IsSingle y.postfixItems →
        ∃ items, Arithmetic.symbolicBinary command x y = .expression items ∧ IsSingle items) ∧
      (WellRooted x → WellRooted y → WellRooted (Arithmetic.symbolicBinary command x y) ∧
        ∀ z, Arithmetic.binary command x y settings = .ok z → WellRooted z)) ∧
    (∀ command x, command.operands = 1 →
      (IsSingle x.postfixItems →
        ∃ items, Arithmetic.symbolicUnary command x = .expression items ∧ IsSingle items) ∧
      (WellRooted x → WellRooted (Arithmetic.symbolicUnary command x) ∧
        ∀ z, Arithmetic.unary command x settings = .ok z → WellRooted z)) ∧
    (∀ p : Polynomial, (∀ term ∈ p.terms, term.factor.isNumber = true) →
      IsSingle p.toExpression ∧
        (WellRooted (.polynomial p) → WellRooted (.expression p.toExpression))) ∧
    (∀ items caseSensitive result, IsSingle items →
      expandBindings items caseSensitive = .ok result →
        IsSingle result ∧ (WellRooted (.expression items) → WellRooted (.expression result))) := by
  have single_iff (items : List Value) : IsSingle items ↔ Rooted (fun _ => True) items := by
    simp [rooted_iff]
  refine ⟨fun source values done => ?_, fun source kind precedence value length done => ?_,
    fun command x y both => ⟨fun left right => ?_, fun left right => ⟨?_, ?_⟩⟩,
    fun command x single => ⟨fun operand => ?_, fun operand => ⟨?_, ?_⟩⟩,
    fun p numbers => ⟨?_, fun rooted => ?_⟩,
    fun items caseSensitive result single done => ⟨?_, fun rooted => ?_⟩⟩
  · exact SatisfiesM_Except_eq.mp (sound_readLine source settings) values done
  · exact SatisfiesM_Except_eq.mp (sound_readObject source settings kind precedence) _ done _ rfl
  · rw [single_iff] at left right
    exact ⟨_, rfl, (single_iff _).mpr (left.binary right both)⟩
  · exact Value.wellRooted_symbolicBinary both left right
  · exact SatisfiesM_Except_eq.mp (Arithmetic.wellRooted_binary both left right)
  · rw [single_iff] at operand
    exact ⟨_, rfl, (single_iff _).mpr (operand.unary single)⟩
  · exact Value.wellRooted_symbolicUnary single operand
  · exact SatisfiesM_Except_eq.mp (Arithmetic.wellRooted_unary single operand)
  · rw [single_iff]
    refine Polynomial.rooted_toExpression ⟨fun _ => trivial, fun _ => trivial⟩ fun term among => ?_
    have plain := Value.isCommand_of_isNumber (numbers term among)
    exact .leaf _ (Value.operandsOf_of_isCommand plain) trivial
  · exact Value.wellRooted_expression rooted.postfixItems
  · rw [single_iff] at single ⊢
    exact single.expandBindings done
  · exact Value.wellRooted_expression (rooted.expressionItems.expandBindings done)

/-- What is read of a product whose first factor has a unit is well rooted, the power of that factor
is, and so is what becomes of a name that is bound to the power. -/
theorem built_single_rooted_square :
    let speed := Value.unit (.ofInt 3) [.symbol ⟨"m"⟩]
    let square := Value.unit (.ofInt 9) [.symbol ⟨"m"⟩, .ofInt 2, .command .power]
    let product := Value.expression [speed, .symbol ⟨"X"⟩, .command .multiply]
    let bound := [.symbol ⟨"X"⟩, .symbol ⟨"X"⟩, square, .command .equation, .command .whereBound]
    (readLine "'(3_m)*X'" {} = .ok [product] ∧ WellRooted product) ∧
      (Arithmetic.binary .power speed (.ofInt 2) {} = .ok square ∧ WellRooted square) ∧
      expandBindings bound true = .ok [square] ∧ IsSingle [square] := by
  intro speed square product bound
  obtain ⟨lines, -, operators, -, -, bindings⟩ := built_single_rooted {}
  have read : readLine "'(3_m)*X'" {} = .ok [product] := by
    have text : "'(3_m)*X'" = Token.textOf (productRow true) := by with_unfolding_all rfl
    rw [text, readLine_spans (legible_product true)]
    with_unfolding_all rfl
  have productRooted : WellRooted product := lines _ _ read product List.mem_cons_self rfl
  have speedRooted : WellRooted speed :=
    productRooted.expressionItems.leaves speed List.mem_cons_self rfl rfl
  have raised : Arithmetic.binary .power speed (.ofInt 2) {} = .ok square := by
    with_unfolding_all rfl
  have carried : expandBindings bound true = .ok [square] := by with_unfolding_all rfl
  refine ⟨⟨read, productRooted⟩, ⟨raised, ?_⟩, carried, ?_⟩
  · exact ((operators .power speed (.ofInt 2) rfl).2 speedRooted (.real _)).2 square raised
  · exact (bindings bound true _ rfl carried).1

end Calculator.Source
