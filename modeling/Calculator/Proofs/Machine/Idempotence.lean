import Calculator.Proofs.Machine.Settling
import Calculator.Proofs.Machine.Stock
import Calculator.Proofs.Source.Terminals
import Mathlib

/-!
# Evaluation in names that stand for nothing is idempotent

What an expression in such names is evaluated to is settled, and what is settled is evaluated to
itself. Neither evaluation changes anything but the heap, and there no object is lost that the
machine still needs.
-/

namespace Calculator

open Expression (Rooted)
open Value (IsPart Plain Settled)

namespace Machine

section Evaluation

variable {Store Reference : Type} [Storage Store Reference] {machine : Machine Store Reference}

/-- A machine as an evaluation goes on within it. -/
def deepened (machine : Machine Store Reference) : Machine Store Reference :=
  { machine with nesting := machine.nesting + 1 }

/-- A machine that an evaluation has left. -/
def raised (machine : Machine Store Reference) : Machine Store Reference :=
  { machine with nesting := machine.nesting - 1 }

/-- Without a level left, no value is evaluated. -/
theorem enact_evaluateValue_zero (value : Value)
    (none : machine.settings.maxRecursion.toNat - machine.nesting = 0) :
    enact (evaluateValue value) machine = (.error .tooMuchRecursion, machine) := by
  unfold evaluateValue
  rw [enact_bind_ok (rfl : enact levelsLeft machine =
    (.ok (machine.settings.maxRecursion.toNat - machine.nesting), machine)), none]
  rfl

/-- The value that evaluation leaves is taken off the stack, one level up. -/
theorem enact_evaluateValue {value : Value} {levels : ℕ}
    (left : machine.settings.maxRecursion.toNat - machine.nesting = levels + 1) :
    enact (evaluateValue value) machine =
      match enact (evaluateAt (within levels) value) machine.deepened with
      | (.ok _, inner) => enact (do
          let after ← depth
          if after = machine.stack.length + 1 then pop
          else if machine.stack.length < after then do
            drop (after - machine.stack.length)
            throw .badArgumentValue
          else throw .tooFewArguments) inner.raised
      | (.error fault, inner) => (.error fault, inner.raised) := by
  have nested := enact_nested (evaluateAt (within levels) value) machine
  rw [if_neg (by omega)] at nested
  unfold evaluateValue
  rw [enact_bind_ok (rfl : enact levelsLeft machine =
    (.ok (machine.settings.maxRecursion.toNat - machine.nesting), machine)), left]
  unfold evaluated
  rw [enact_bind_ok (rfl : enact depth machine = (.ok machine.stack.length, machine))]
  have evaluates : (within (levels + 1)).evaluate value =
      (Machine.nested (evaluateAt (within levels) value) : ActionOn Store Reference Unit) := rfl
  rw [evaluates]
  unfold deepened raised
  rcases answer : enact (evaluateAt (within levels) value)
    { machine with nesting := machine.nesting + 1 } with ⟨outcome, inner⟩
  rw [answer] at nested
  cases outcome with
  | ok _ => exact enact_bind_ok nested _
  | error fault => exact enact_bind_error nested _

end Evaluation

variable {machine after : Machine} {values : List Value}

/-- What an evaluation within a machine puts on its stack is there when it has been left. -/
theorem Piled.raised (piled : Piled machine.deepened values after) :
    Piled machine values after.raised where
  rest := by
    rw [Machine.raised, piled.rest]
    rfl
  levels := piled.levels
  kept := piled.kept
  sound := piled.sound
  limit := piled.limit

/-- Where no values are left on the stack of a machine, it shows what it did. -/
theorem Piled.unchanged (piled : Piled machine [] after) :
    after.stack = machine.stack ∧ after.tree = machine.tree ∧ after.path = machine.path ∧
      after.settings = machine.settings ∧ after.nesting = machine.nesting := by
  obtain ⟨handles, stack, objects⟩ := piled.levels
  cases objects
  refine ⟨stack, ?_⟩
  rw [piled.rest]
  exact ⟨rfl, rfl, rfl, rfl⟩

/-- The names that stand for nothing are the same. -/
theorem Piled.unbound (piled : Piled machine values after) : after.Unbound = machine.Unbound := by
  funext name
  rw [Unbound, Unbound, piled.reference?, piled.isDirectory]

section Word

variable (word : machine.heap.limit < 2 ^ 64) (sound : machine.heap.Sound)
include word sound

/-- What comes of an expression in names that stand for nothing is settled and can be decoded, and
nothing is left on the stack. -/
theorem settles_evaluateValue {items : List Value} {result : Value}
    (rooted : Rooted (fun item => Plain item ∨ ∃ name, item = .symbol name ∧ machine.Unbound name)
      items)
    (answer : enact (evaluateValue (.expression items)) machine = (.ok result, after))
    (few : after.heap.slots.size ≤ UInt32.size) :
    machine.settings.maxRecursion.toNat - machine.nesting ≠ 0 ∧
      Settled machine.Unbound result ∧ Encoding.Conforming result ∧ Piled machine [] after := by
  cases left : machine.settings.maxRecursion.toNat - machine.nesting with
  | zero =>
    rw [enact_evaluateValue_zero _ left] at answer
    cases answer
  | succ levels =>
    rw [enact_evaluateValue left] at answer
    rcases evaluated : enact (evaluateAt (within levels) (.expression items)) machine.deepened with
      ⟨outcome, inner⟩
    rw [evaluated] at answer
    cases outcome with
    | error fault => cases answer
    | ok _ =>
      dsimp only at answer
      rw [enact_bind_ok (rfl : enact depth inner.raised =
        (.ok inner.raised.stack.length, inner.raised))] at answer
      split at answer
      · have slots := (evolving_pop inner.raised).maintains.slots
        rw [answer] at slots
        have word' : machine.deepened.heap.limit < 2 ^ 64 := word
        obtain ⟨value, settled, piled⟩ :=
          settles_evaluateExpression word' sound (evolves_within levels) rooted evaluated
            (slots.trans few)
        obtain ⟨rfl, conforming, popped⟩ := piled.raised.popped word answer
        exact ⟨Nat.succ_ne_zero levels, settled, conforming, popped⟩
      · split at answer
        · rename_i more
          rw [enact_bind_ok (enact_drop (Nat.sub_le _ _))] at answer
          cases answer
        · cases answer

/-- What is settled and can be decoded is evaluated to itself, or there is no memory left for it. -/
theorem evaluateValue_settled {value : Value} (settled : Settled machine.Unbound value)
    (conforming : Encoding.Conforming value)
    (room : machine.settings.maxRecursion.toNat - machine.nesting ≠ 0)
    (few : (enact (evaluateValue value) machine).2.heap.slots.size ≤ UInt32.size) :
    (enact (evaluateValue value) machine).1 = .error .outOfMemory ∨
      ∃ after, enact (evaluateValue value) machine = (.ok value, after) ∧
        Piled machine [] after := by
  obtain ⟨levels, left⟩ := Nat.exists_eq_succ_of_ne_zero room
  rw [enact_evaluateValue left] at few ⊢
  have word' : machine.deepened.heap.limit < 2 ^ 64 := word
  have piles (few : (enact (evaluateAt (within levels) value)
      machine.deepened).2.heap.slots.size ≤ UInt32.size) :
      Piles machine.deepened [value] (· = .outOfMemory)
        (enact (evaluateAt (within levels) value) machine.deepened) :=
    piles_evaluateAt_settled word' sound (evolves_within levels) settled conforming few
  rcases evaluated : enact (evaluateAt (within levels) value) machine.deepened with
    ⟨outcome, inner⟩
  rw [evaluated] at few piles
  cases outcome with
  | error fault =>
    cases piles few with
    | failed excuse => exact .inl (congrArg Except.error excuse)
  | ok _ =>
    dsimp only at few ⊢
    rw [enact_bind_ok (rfl : enact depth inner.raised =
      (.ok inner.raised.stack.length, inner.raised))] at few ⊢
    have slots : inner.heap.slots.size ≤ UInt32.size := by
      split at few
      · exact (evolving_pop inner.raised).maintains.slots.trans few
      · split at few
        · rw [enact_bind_ok (enact_drop (Nat.sub_le _ _))] at few
          exact few
        · exact few
    cases piles slots with
    | done piled =>
      have one : inner.raised.stack.length = machine.stack.length + 1 := by
        rw [piled.raised.length_stack, List.length_singleton, Nat.add_comm]
      have taken := piled.raised.pop word
      rw [conforming.readBack] at taken
      rw [if_pos one]
      exact .inr ⟨_, taken, piled.raised.drop (Nat.le_refl 1)⟩

end Word

end Machine

namespace Session

open Machine

/-- Evaluation in names that stand for nothing is idempotent. Take an expression that was read, with
no polynomial in it, on a machine where none of its names stands for a variable or a subdirectory of
the current directory. If it is evaluated to a value, then nothing is left on the stack, and but for
units there is no binding in the value. To evaluate the value gives it again, or fails for want of
memory; it leaves the stack, the variables and the path as they are, as a word numbers the slots of
the heap. -/
theorem evaluateValue_idempotent (settings : Settings) (requests : List Request)
    (preferences : Preferences) (items : List Value)
    (read : Source.IsRead preferences (.expression items))
    (noPolynomial : ∀ p, ¬ IsPart true (.polynomial p) (.expression items)) :
    let before := requested requests (start settings)
    (∀ name, .symbol name ∈ items → before.Unbound name) →
      ∀ result after, enact (evaluateValue (.expression items)) before = (.ok result, after) →
        Numbered settings (enact (evaluateValue result) after).2 →
          view after = view before ∧ ¬ IsPart false (.command .whereBound) result ∧
            ((enact (evaluateValue result) after).1 = .error .outOfMemory ∨
              ∃ last, enact (evaluateValue result) after = (.ok result, last) ∧
                last.stack = after.stack ∧ last.tree = after.tree ∧ last.path = after.path ∧
                view last = view after) := by
  intro before unbound result after evaluated numbered
  have safe := safe_requested requests (start settings)
  have first := (evolving_evaluateValue (.expression items)).safe before
  rw [evaluated] at first
  have second := (evolving_evaluateValue result).safe after
  have fewLast := numbered.few ((safe.trans first).trans second)
  have fewAfter := second.slots.trans fewLast
  have stocked : before.Stocked :=
    stocked_requested requests (stocked_start settings) (first.slots.trans fewAfter)
  have word : before.heap.limit < 2 ^ 64 := by
    rw [safe.limit]
    exact Nat.max_lt.mpr ⟨settings.heapLimit.toNat_lt, settings.heapSize.toNat_lt⟩
  have rooted : Rooted (fun item =>
      Plain item ∨ ∃ name, item = .symbol name ∧ before.Unbound name) items := by
    refine (Source.rooted_plain_of_isRead read noPolynomial).imp fun item among atom => ?_
    refine atom.imp_right fun ⟨name, same⟩ => ⟨name, same, unbound name (same ▸ among)⟩
  obtain ⟨room, settled, conforming, piled⟩ :=
    settles_evaluateValue word stocked.intact.sound rooted evaluated fewAfter
  have stockedAfter : after.Stocked := by
    have stays := (evolving_evaluateValue (.expression items) before).stocked stocked
    rw [evaluated] at stays
    exact stays fewAfter
  obtain ⟨stack, tree, path, same, nesting⟩ := piled.unchanged
  refine ⟨view_of_kept stocked stack tree path piled.kept, settled.no_binding, ?_⟩
  rw [← piled.unbound] at settled
  rw [← same, ← nesting] at room
  refine (evaluateValue_settled (piled.limit ▸ word) piled.sound settled conforming room
    fewLast).imp_right fun ⟨last, again, still⟩ => ?_
  obtain ⟨stackLast, treeLast, pathLast, -⟩ := still.unchanged
  exact ⟨last, again, stackLast, treeLast, pathLast,
    view_of_kept stockedAfter stackLast treeLast pathLast still.kept⟩

/-- With a variable that is not in the expression, `X+Y|Y=1+2` is evaluated to `X+3`, which is
evaluated to itself. -/
theorem evaluateValue_idempotent_sum :
    let settings : Settings := { heapSize := 64, heapLimit := 64 }
    let before := requested [.plain (.store ⟨"A"⟩ (.ofInt 5))] (start settings)
    let items : List Value := [.symbol ⟨"X"⟩, .symbol ⟨"Y"⟩, .command .add, .symbol ⟨"Y"⟩, .ofInt 1,
      .ofInt 2, .command .add, .command .equation, .command .whereBound]
    let sum : Value := .expression [.symbol ⟨"X"⟩, .ofInt 3, .command .add]
    (∀ name, .symbol name ∈ items → before.Unbound name) ∧
      ∃ after last, enact (evaluateValue (.expression items)) before = (.ok sum, after) ∧
        enact (evaluateValue sum) after = (.ok sum, last) ∧ view last = view before ∧
        ¬ IsPart false (.command .whereBound) sum := by
  intro settings before items sum
  have read : Source.IsRead {} (.expression items) := by
    have text : "'X+Y|Y=1+2'" = Token.textOf ([Token.quote, .name "X", .operator .add, .name "Y",
        .operator .whereBound, .name "Y", .operator .equation, .number "1", .operator .add,
        .number "2", .quote].map (⟨false, ·⟩)) := by with_unfolding_all rfl
    refine ⟨"'X+Y|Y=1+2'", _, .whole, .inl ⟨[.expression items], ?_, List.mem_cons_self⟩⟩
    rw [text, Source.readLine_spans (Source.legible_of_isPlainRow (by with_unfolding_all decide))]
    with_unfolding_all rfl
  have noPolynomial : ∀ p, ¬ IsPart true (.polynomial p) (.expression items) := by
    rintro p (_ | _ | _ | ⟨among, inside⟩)
    simp only [items, List.mem_cons, List.not_mem_nil, or_false] at among
    rcases among with rfl | rfl | rfl | rfl | rfl | rfl | rfl | rfl | rfl <;> cases inside
  have unbound : ∀ name, .symbol name ∈ items → before.Unbound name := by
    have each : ∀ name ∈ ["X", "Y"], (before.reference? ⟨name⟩).isNone ∧
        before.isDirectory ⟨name⟩ = false := by decide +kernel
    intro name among
    have named : name = ⟨"X"⟩ ∨ name = ⟨"Y"⟩ := by simpa [items, Value.ofInt] using among
    rcases named with rfl | rfl
    · exact (each "X" (by decide)).imp_left Option.isNone_iff_eq_none.mp
    · exact (each "Y" (by decide)).imp_left Option.isNone_iff_eq_none.mp
  have first : (enact (evaluateValue (.expression items)) before).1 = .ok sum := by
    subst before settings items sum
    cbv
  have second : (enact (evaluateValue sum)
      (enact (evaluateValue (.expression items)) before).2).1 = .ok sum := by
    subst before settings items sum
    cbv
  obtain ⟨after, evaluated⟩ : ∃ after,
      enact (evaluateValue (.expression items)) before = (.ok sum, after) :=
    ⟨_, Prod.ext first rfl⟩
  rw [evaluated] at second
  obtain ⟨same, noBinding, memory | ⟨last, again, -, -, -, still⟩⟩ :=
    evaluateValue_idempotent settings [.plain (.store ⟨"A"⟩ (.ofInt 5))] {} items read noPolynomial
      unbound sum after evaluated (.inl (by decide))
  · exact absurd (second.symm.trans memory) (by simp)
  · exact ⟨unbound, after, last, evaluated, again, still.trans same, noBinding⟩

/-- There may be a binding in the unit of a value: `1_(m|m=s)` is an expression of one item, which is
evaluated to this item as it is. -/
theorem evaluateValue_keeps_binding :
    let before := start { heapSize := 64, heapLimit := 64 }
    let quantity : Value := .unit (.ofInt 1) [.symbol ⟨"m"⟩, .symbol ⟨"m"⟩, .symbol ⟨"s"⟩,
      .command .equation, .command .whereBound]
    Source.IsRead {} (.expression [quantity]) ∧
      (∀ p, ¬ IsPart true (.polynomial p) (.expression [quantity])) ∧
      (∀ name, IsPart true (.symbol name) (.expression [quantity]) → before.Unbound name) ∧
      (∃ after, enact (evaluateValue (.expression [quantity])) before = (.ok quantity, after)) ∧
      IsPart true (.command .whereBound) quantity := by
  intro before quantity
  have text : "'1_(m|m=s)'" = Token.textOf ([Token.quote, .number "1", .underscore,
      .openParenthesis, .name "m", .operator .whereBound, .name "m", .operator .equation,
      .name "s", .closeParenthesis, .quote].map (⟨false, ·⟩)) := by with_unfolding_all rfl
  refine ⟨⟨"'1_(m|m=s)'", _, .whole, .inl ⟨[.expression [quantity]], ?_, List.mem_cons_self⟩⟩,
    ?_, fun name _ => ⟨rfl, rfl⟩, ⟨_, Prod.ext ?_ rfl⟩,
    .unit rfl (by simp) .whole⟩
  · rw [text, Source.readLine_spans (Source.legible_of_isPlainRow (by with_unfolding_all decide))]
    with_unfolding_all rfl
  · rintro p (_ | _ | _ | ⟨among, inside⟩)
    rw [List.mem_singleton.mp among] at inside
    subst quantity
    rcases inside with _ | _ | _ | _ | inside | ⟨_, among, inside⟩
    · cases inside
    · simp only [List.mem_cons, List.not_mem_nil, or_false] at among
      rcases among with rfl | rfl | rfl | rfl | rfl <;> cases inside
  · subst before quantity
    cbv

end Session

end Calculator
