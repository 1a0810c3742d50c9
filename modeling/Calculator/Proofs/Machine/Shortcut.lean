import Calculator.Proofs.Expression.Binding
import Calculator.Proofs.Machine.Levels
import Mathlib

/-!
# The shortcut through polynomials

An expression that is a polynomial in variables which stand for numbers is evaluated as one. Where
all numbers are exact, that puts the number on the stack which comes of executing the items one
after the other. Every item does to the polynomials that are left of the items before it what it
does to the numbers on the stack, so each polynomial stands for the number on its level.

The two may fail in different cases. Terms that cancel are not computed by the polynomial, so the
memory may last for the one and not for the other, and a power of a variable with the exponent zero
is one, where the operator has no power of zero.
-/

namespace Calculator

/-! ## Names that are the same -/

/-- Names that are the same find the same entry. -/
theorem Directory.find?_congr {Content : Type} {x y : Symbol} {caseSensitive : Bool}
    (same : x.compare y caseSensitive = .eq) (entries : Directory Content) :
    entries.find? x caseSensitive = entries.find? y caseSensitive := by
  have alike (other : Symbol) : other.sameAs x caseSensitive = other.sameAs y caseSensitive := by
    rw [Symbol.sameAs, Symbol.sameAs]
    exact congrArg (· == .eq) (@Std.TransCmp.congr_right _
      (fun left right : Symbol => left.compare right caseSensitive) _ _ _ _ same)
  simp only [find?, alike]

namespace Machine

open Calculator.Polynomial Calculator.Expression

section Names

variable {Store Reference : Type} [Storage Store Reference]

/-- Names that are the same have the same value. -/
theorem lookup?_congr {machine : Machine Store Reference} {x y : Symbol}
    (same : x.compare y machine.settings.caseSensitive = .eq) :
    machine.lookup? x = machine.lookup? y := by
  have refers : machine.reference? x = machine.reference? y := by
    simp only [reference?, referenceIn?, Directory.find?_congr same]
  rw [lookup?, lookup?, refers]

/-- The number that a variable of a machine stands for. -/
def standing (machine : Machine Store Reference) (name : Symbol) : GaussianRational :=
  ((machine.lookup? name).getD (.ofInt 0)).gaussian

/-- Whether a name is that of a variable with an exact real number. -/
def Known (machine : Machine Store Reference) (name : Symbol) : Prop :=
  ∃ x : Real, x.isExact = true ∧ machine.lookup? name = some (.real x)

/-- Names that are the same stand for the same number. -/
theorem congruent_standing (machine : Machine Store Reference) :
    Congruent machine.standing machine.Known machine.settings.caseSensitive :=
  fun _ _ _ _ same => congrArg (fun value => (value.getD (.ofInt 0)).gaussian) (lookup?_congr same)

/-- A polynomial that stands for a number, given the variables of a machine. -/
abbrev StandsIn (machine : Machine Store Reference) : Polynomial → Value → Prop :=
  Stands machine.standing machine.Known machine.settings.caseSensitive

/-- The numbers that are fetched for known names are what the names stand for. -/
theorem given_of_numbers? {machine : Machine Store Reference} {names : List Symbol}
    {values : List Value} (known : ∀ name ∈ names, machine.Known name)
    (fetched : machine.numbers? names = some values) : Given machine.standing names values := by
  unfold numbers? at fetched
  induction names generalizing values with
  | nil =>
    obtain rfl : [] = values := Option.some.inj fetched
    exact .nil
  | cons name names inductionHypothesis =>
    obtain ⟨⟨x, exact, found⟩, others⟩ := List.forall_mem_cons.mp known
    rw [List.mapM_cons, found] at fetched
    obtain ⟨first, number, remaining⟩ := Option.bind_eq_some_iff.mp fetched
    obtain rfl : .real x = first := Option.some.inj number
    obtain ⟨rest, fetchedRest, same⟩ := Option.bind_eq_some_iff.mp remaining
    obtain rfl : .real x :: rest = values := Option.some.inj same
    refine .cons ⟨.real x exact, ?_⟩ (inductionHypothesis others fetchedRest)
    rw [standing, found, Option.getD_some]

/-- An operand of an expression and the exact number that it denotes: itself, or the value of a
variable whose name does not stand for a subdirectory. -/
inductive Denotes (machine : Machine Store Reference) : Value → Value → Prop
  | number {value} (exact : value.IsGaussian) : Denotes machine value value
  | named {name} {x : Real} (outside : machine.isDirectory name = false)
      (exact : x.isExact = true) (found : machine.lookup? name = some (.real x)) :
      Denotes machine (.symbol name) (.real x)

/-- What the items of an expression are to be: operators, and operands that denote exact
numbers. -/
inductive Calculable (machine : Machine Store Reference) : Value → Prop
  | operator (command : Command) : Calculable machine (.command command)
  | operand {item value : Value} (denotes : Denotes machine item value) : Calculable machine item

/-- Whether the items, executed one after the other, come to an operator that is to raise zero to
zero. -/
def RaisesZero (deeper : Deeper Store Reference) (items : List Value)
    (machine : Machine Store Reference) : Prop :=
  ∃ front back before, items = front ++ .command .power :: back ∧
    enact (executeAll deeper front) machine = (.ok (), before) ∧
    enact (arguments 2) before = (.ok [.ofInt 0, .ofInt 0], before)

end Names

/-! ## One item -/

/-- An operator that makes a polynomial operates on the stack. -/
theorem operates_of_ofNode {operations : Operations} {settings : Preferences} {command : Command}
    {operands : List Polynomial} {result : Polynomial}
    (done : ofNode operations settings command operands = .ok result) :
    command.operates = true := by
  unfold ofNode at done
  split at done <;> first | rfl | cases done

section Items

variable {machine : Machine} (symbolic : machine.settings.numericalResults = false)
include symbolic

/-- What an item makes of numbers for which polynomials stand, such that what it makes of the
polynomials stands for it: a further number, or what an operator computes of the topmost ones. -/
inductive Advances (machine : Machine) (values : List Value) : Value → List Value → Prop
  | operand {item value} (denotes : Denotes machine item value) :
      Advances machine values item (value :: values)
  | operator {command : Command} {result} (operates : command.operates = true)
      (enough : command.arity ≤ values.length) (exact : result.IsGaussian)
      (raised : Raised (command = .power ∧ values.take 2 = [.ofInt 0, .ofInt 0]) result
        (Arithmetic.ofOperands command (values.take command.arity).reverse
          machine.settings.toPreferences)) :
      Advances machine values (.command command) (result :: values.drop command.arity)

/-- What an item makes of polynomials stands for what it makes of the numbers. -/
theorem advances_of_step {item : Value} (calculable : Calculable machine item)
    {results next : List Polynomial} {values : List Value}
    (stand : List.Forall₂ machine.StandsIn results values)
    (step : Step ofLeaf (ofNode (Arithmetic.operations machine.settings.toPreferences)
      machine.settings.toPreferences) results item next) :
    ∃ others, Advances machine values item others ∧ List.Forall₂ machine.StandsIn next others := by
  cases step with
  | leaf alone done =>
    cases calculable with
    | operator command => cases done
    | operand denotes =>
      refine ⟨_, .operand denotes, .cons ?_ stand⟩
      cases denotes with
      | number exact =>
        have single : ofLeaf item = .ok (ofConstant item) := by cases exact <;> rfl
        obtain rfl := Except.ok.inj (single.symm.trans done)
        exact stands_ofConstant symbolic (congruent_standing machine) exact
      | @named name x outside exact found =>
        obtain rfl : ofVariable name = _ := Except.ok.inj done
        refine stands_ofVariable exact ⟨x, exact, found⟩ ?_
        rw [standing, found, Option.getD_some]
  | @node command result several enough done =>
    have length := stand.length_eq
    have operands := List.rel_reverse (List.forall₂_take command.operands stand)
    obtain ⟨arity, z, stands, raised⟩ :=
      stands_ofNode symbolic (congruent_standing machine) operands done
    have same : command.arity = command.operands := by
      rw [arity, List.length_reverse, List.length_take]
      omega
    rw [← same] at raised ⊢
    refine ⟨_, .operator (operates_of_ofNode done) (by omega) (Value.isGaussian_ofGaussian z) ?_,
      .cons stands (List.forall₂_drop _ stand)⟩
    refine raised.imp ?_
    rintro ⟨rfl, zeros⟩
    exact ⟨rfl, List.reverse_injective zeros⟩

omit symbolic in
/-- What an item makes of numbers is what it makes of them on the stack. -/
theorem Advances.puts {item : Value} {values others : List Value}
    (advances : Advances machine values item others) {after : Machine}
    (stacked : Stacked machine values after) (word : machine.heap.limit < 2 ^ 64)
    (deeper : Deeper Heap Handle)
    (few : (enact (execute deeper item) after).2.heap.slots.size ≤ UInt32.size) :
    Puts machine others (fun fault => Shortage fault ∨
      fault = .undefinedOperation ∧ item = .command .power ∧
        enact (arguments 2) after = (.ok [.ofInt 0, .ofInt 0], after))
      (enact (execute deeper item) after) := by
  cases advances with
  | @operand _ value denotes =>
    have pushes : enact (execute deeper item) after = enact (push value) after := by
      cases denotes with
      | number exact => cases exact <;> rfl
      | named outside exact found =>
        exact enact_resolve_real deeper ((stacked.piled.isDirectory _).trans outside)
          (stacked.lookup? found)
    have exact : value.IsGaussian := by
      cases denotes with
      | number exact => exact exact
      | named outside exact found => exact .real _ exact
    rw [pushes] at few ⊢
    exact (stacked.push exact few).imp fun _ => .inl
  | @operator command result operates enough exact raised =>
    have operation : execute deeper (.command command) = operate command :=
      perform_operates operates
    rw [operation] at few ⊢
    refine (stacked.operate word enough exact raised few).imp fun fault excuse => ?_
    rcases excuse with short | ⟨undefined, rfl, zeros⟩
    · exact .inl short
    · refine .inr ⟨undefined, rfl, ?_⟩
      have read : enact (arguments 2) after = (.ok (values.take 2).reverse, after) :=
        stacked.arguments word enough
      rwa [zeros] at read

/-- What the items of an expression make of polynomials stands for numbers. -/
theorem stand_of_foldOnto {items : List Value} (calculable : ∀ item ∈ items, Calculable machine item)
    {results final : List Polynomial} {values : List Value}
    (stand : List.Forall₂ machine.StandsIn results values)
    (done : foldOnto ofLeaf (ofNode (Arithmetic.operations machine.settings.toPreferences)
      machine.settings.toPreferences) items results = .ok final) :
    ∃ others, List.Forall₂ machine.StandsIn final.reverse others := by
  induction items generalizing results values with
  | nil =>
    obtain rfl : results.reverse = final := Except.ok.inj done
    exact ⟨values, by rwa [List.reverse_reverse]⟩
  | cons item items inductionHypothesis =>
    obtain ⟨first, rest⟩ := List.forall_mem_cons.mp calculable
    obtain ⟨next, step, remaining⟩ := foldOnto_cons.mp done
    obtain ⟨others, -, standNext⟩ := advances_of_step symbolic first stand step
    exact inductionHypothesis rest standNext remaining

/-- Executed one after the other, the items put the numbers on the stack for which the polynomials
stand that they make. They fail only for want of memory or because they raise zero to zero. -/
theorem puts_executeAll (word : machine.heap.limit < 2 ^ 64) {deeper : Deeper Heap Handle}
    (evolves : deeper.Evolves) {items : List Value}
    (calculable : ∀ item ∈ items, Calculable machine item) {results final : List Polynomial}
    {values : List Value} (stand : List.Forall₂ machine.StandsIn results values)
    (done : foldOnto ofLeaf (ofNode (Arithmetic.operations machine.settings.toPreferences)
      machine.settings.toPreferences) items results = .ok final)
    {after : Machine} (stacked : Stacked machine values after)
    (few : (enact (executeAll deeper items) after).2.heap.slots.size ≤ UInt32.size) :
    ∃ others, List.Forall₂ machine.StandsIn final.reverse others ∧
      Puts machine others (fun fault => Shortage fault ∨
        fault = .undefinedOperation ∧ RaisesZero deeper items after)
        (enact (executeAll deeper items) after) := by
  induction items generalizing results values after with
  | nil =>
    obtain rfl : results.reverse = final := Except.ok.inj done
    exact ⟨values, by rwa [List.reverse_reverse], .done stacked⟩
  | cons item items inductionHypothesis =>
    obtain ⟨first, rest⟩ := List.forall_mem_cons.mp calculable
    obtain ⟨next, step, remaining⟩ := foldOnto_cons.mp done
    obtain ⟨others, advances, standNext⟩ := advances_of_step symbolic first stand step
    have start : executeAll deeper (item :: items) =
        execute deeper item >>= fun _ => executeAll deeper items := List.forM_cons ..
    rw [start] at few ⊢
    have put := advances.puts stacked word deeper
    rcases answer : enact (execute deeper item) after with ⟨outcome, between⟩
    rw [answer] at put
    cases outcome with
    | error fault =>
      rw [enact_bind_error answer] at few ⊢
      obtain ⟨last, standLast⟩ := stand_of_foldOnto symbolic rest standNext remaining
      refine ⟨last, standLast, .failed ?_⟩
      cases put few with
      | failed excuse =>
        rcases excuse with short | ⟨undefined, rfl, zeros⟩
        · exact .inl short
        · exact .inr ⟨undefined, [], items, after, rfl, rfl, zeros⟩
    | ok _ =>
      rw [enact_bind_ok answer] at few ⊢
      have early : between.heap.slots.size ≤ UInt32.size :=
        ((evolving_executeAll evolves items between).maintains.slots).trans few
      cases put early with
      | done stackedNext =>
        obtain ⟨last, standLast, puts⟩ :=
          inductionHypothesis rest standNext remaining stackedNext few
        refine ⟨last, standLast, puts.imp fun fault excuse => ?_⟩
        rcases excuse with short | ⟨undefined, front, back, before, rfl, executed, zeros⟩
        · exact .inl short
        · refine .inr ⟨undefined, item :: front, back, before, rfl, ?_, zeros⟩
          have again : executeAll deeper (item :: front) =
              execute deeper item >>= fun _ => executeAll deeper front := List.forM_cons ..
          rw [again, enact_bind_ok answer]
          exact executed

end Items

/-! ## Whole expressions -/

/-- An expression is a polynomial in numbers if it makes a polynomial that has variables, all of
which stand for numbers. -/
theorem inNumbers?_eq_some_iff {Store Reference : Type} [Storage Store Reference]
    {items : List Value} {machine after : Machine Store Reference} {p : Polynomial}
    {values : List Value} :
    enact (inNumbers? items) machine = (.ok (some (p, values)), after) ↔
      ofExpression (Arithmetic.operations machine.settings.toPreferences)
        machine.settings.toPreferences items = .ok p ∧ p.names ≠ [] ∧
          machine.numbers? p.names = some values ∧ after = machine := by
  unfold inNumbers?
  rw [enact_bind_ok (rfl : enact arithmetic machine =
      (.ok (Arithmetic.operations machine.settings.toPreferences), machine)),
    enact_preferences_bind]
  generalize ofExpression (Arithmetic.operations machine.settings.toPreferences)
    machine.settings.toPreferences items = outcome
  cases outcome with
  | error fault =>
    constructor
    · rintro ⟨⟩
    · rintro ⟨⟨⟩, -⟩
  | ok made =>
    have read : enact (fetchNumbers? made.names) machine =
        (.ok (machine.numbers? made.names), machine) := rfl
    dsimp only
    split
    · rename_i none
      constructor
      · rintro ⟨⟩
      · rintro ⟨⟨rfl⟩, names, -⟩
        exact absurd (List.isEmpty_iff.mp none) names
    · rename_i names
      rw [enact_bind_ok read]
      constructor
      · intro taken
        obtain ⟨found, rfl⟩ := Prod.mk.inj taken
        obtain ⟨fetched, numbers, same⟩ := Option.map_eq_some_iff.mp (Except.ok.inj found)
        obtain ⟨rfl, rfl⟩ := Prod.mk.inj same
        exact ⟨rfl, fun none => names (List.isEmpty_iff.mpr none), numbers, rfl⟩
      · rintro ⟨⟨rfl⟩, -, numbers, rfl⟩
        rw [numbers]
        rfl

/-- To put the value of a polynomial on the stack is to compute it and to put that on the stack. -/
theorem enact_pushPolynomial {Store Reference : Type} [Storage Store Reference]
    (p : Polynomial) (values : List Value) (machine : Machine Store Reference) :
    enact (pushPolynomial p values) machine =
      enact (require (Polynomial.evaluateAt (Arithmetic.operations machine.settings.toPreferences)
        p values) >>= push) machine := by
  unfold pushPolynomial
  rw [enact_bind_ok (rfl : enact arithmetic machine =
    (.ok (Arithmetic.operations machine.settings.toPreferences), machine))]

/-- An expression without bindings that is a polynomial in numbers is evaluated as one. -/
theorem enact_evaluateExpression {Store Reference : Type} [Storage Store Reference]
    {machine : Machine Store Reference} (deeper : Deeper Store Reference) {items : List Value}
    (whereFree : .command .whereBound ∉ items) {p : Polynomial} {values : List Value}
    (taken : enact (inNumbers? items) machine = (.ok (some (p, values)), machine)) :
    enact (evaluateExpression deeper items) machine = enact (pushPolynomial p values) machine := by
  unfold evaluateExpression
  rw [enact_preferences_bind, expandBindings_of_whereFree whereFree]
  exact enact_bind_ok taken _

/-- A polynomial that is evaluated in numbers puts the number on the stack for which it stands, or
fails for want of memory. -/
theorem puts_pushPolynomial {machine : Machine}
    (symbolic : machine.settings.numericalResults = false) (sound : machine.heap.Sound)
    {p : Polynomial} {value : Value} (stands : machine.StandsIn p value) (names : p.names ≠ [])
    {values : List Value} (fetched : machine.numbers? p.names = some values)
    (few : (enact (pushPolynomial p values) machine).2.heap.slots.size ≤ UInt32.size) :
    Puts machine [value] Shortage (enact (pushPolynomial p values) machine) := by
  -- A polynomial with variables is not one that consists of the number itself.
  have canonical : value = .ofGaussian value.gaussian := by
    refine stands.made.resolve_right fun single => names ?_
    rw [single, ofConstant]
    split <;> rfl
  rw [enact_pushPolynomial] at few ⊢
  rcases evaluateAt_eq symbolic stands.means
    (given_of_numbers? stands.means.names fetched) with done | tooLarge
  · rw [done, ← canonical] at few ⊢
    exact (stacked_nil sound).push stands.exact few
  · rw [tooLarge]
    exact .failed (.inl rfl)

/-- Whether an expression is a polynomial in numbers, so that it is computed by the shortcut. -/
def TakesShortcut {Store Reference : Type} [Storage Store Reference]
    (machine : Machine Store Reference) (items : List Value) : Prop :=
  ∃ p values, (enact (inNumbers? items) machine).1 = .ok (some (p, values))

/-- A machine with a small heap, where `X` is zero and `Y` is two. -/
def crowded : Machine :=
  (enact (store ⟨"Y"⟩ (.ofInt 2))
    (enact (store ⟨"X"⟩ (.ofInt 0)) (start { heapSize := 64, heapLimit := 64 })).2).2

end Machine

end Calculator
