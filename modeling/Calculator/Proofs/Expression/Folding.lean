import Calculator.Expression
import Calculator.Proofs.Outcome
import Mathlib

/-!
# Folding an expression

A fold takes one step for every item, and what holds of every leaf and of every operator behind
operands of which it holds, holds of what an expression folds to.
-/

namespace Calculator.Expression

variable {Result : Type} {leaf : Value → Outcome Result}
variable {node : Command → List Result → Outcome Result}

/-- An item that stands for itself is folded as such. -/
theorem foldOnto_leaf {item : Value} {result : Result}
    (written : leaf item = .ok result) (other : operandsOf item = 0)
    (others : List Value) (results : List Result) :
    foldOnto leaf node (item :: others) results =
      foldOnto leaf node others (result :: results) := by
  cases item
  case command command =>
    have none : ¬ 0 < command.operands := Nat.not_lt.mpr (Nat.le_zero.mpr other)
    simp only [foldOnto, if_neg none, written]
    rfl
  all_goals
    simp only [foldOnto, written]
    rfl

/-- An operator is folded onto its operands, which precede it. -/
theorem foldOnto_command {command : Command} {operands : List Result}
    {result : Result} (found : node command operands = .ok result)
    (count : command.operands = operands.length) (some : operands ≠ []) (others : List Value)
    (results : List Result) :
    foldOnto leaf node (.command command :: others) (operands.reverse ++ results) =
      foldOnto leaf node others (result :: results) := by
  have taken : (operands.reverse ++ results).take operands.length = operands.reverse :=
    List.take_left' List.length_reverse
  have left : (operands.reverse ++ results).drop operands.length = results :=
    List.drop_left' List.length_reverse
  have positive : 0 < operands.length := List.length_pos_of_ne_nil some
  simp only [foldOnto, count, if_pos positive, taken, left, List.length_reverse,
    if_neg (Nat.lt_irrefl _), List.reverse_reverse, found]
  rfl

/-- What becomes of an item: an operator takes its operands off the results, everything else
stands for itself. -/
inductive Step (leaf : Value → Outcome Result) (node : Command → List Result → Outcome Result)
    (results : List Result) : Value → List Result → Prop
  | leaf {item result} (alone : operandsOf item = 0) (done : leaf item = .ok result) :
      Step leaf node results item (result :: results)
  | node {command result} (several : 0 < command.operands)
      (enough : command.operands ≤ results.length)
      (done : node command (results.take command.operands).reverse = .ok result) :
      Step leaf node results (.command command) (result :: results.drop command.operands)

/-- A fold that succeeds takes one step for every item. -/
theorem foldOnto_cons {item : Value} {items : List Value} {results final : List Result} :
    foldOnto leaf node (item :: items) results = .ok final ↔
      ∃ next, Step leaf node results item next ∧ foldOnto leaf node items next = .ok final := by
  have plain (alone : operandsOf item = 0) :
      leaf item >>= (fun result => foldOnto leaf node items (result :: results)) = .ok final ↔
        ∃ next, Step leaf node results item next ∧ foldOnto leaf node items next = .ok final := by
    rw [Outcome.bind_eq_ok]
    constructor
    · rintro ⟨result, done, rest⟩
      exact ⟨_, .leaf alone done, rest⟩
    · rintro ⟨next, step, rest⟩
      cases step with
      | leaf _ done => exact ⟨_, done, rest⟩
      | node several => exact absurd alone several.ne'
  cases item with
  | command command =>
    rw [foldOnto]
    split
    · rename_i several
      dsimp only
      split
      · rename_i few
        rw [List.length_take] at few
        constructor
        · rintro ⟨⟩
        · rintro ⟨next, step, rest⟩
          cases step with
          | leaf alone => exact absurd alone several.ne'
          | node _ enough => omega
      · rename_i enough
        rw [List.length_take] at enough
        rw [Outcome.bind_eq_ok]
        constructor
        · rintro ⟨result, done, rest⟩
          exact ⟨_, .node several (by omega) done, rest⟩
        · rintro ⟨next, step, rest⟩
          cases step with
          | leaf alone => exact absurd alone several.ne'
          | node _ _ done => exact ⟨_, done, rest⟩
    · rename_i none
      exact plain (Nat.eq_zero_of_not_pos none)
  | _ => exact plain rfl

/-- What holds of every leaf and of every operator behind operands of which it holds, holds of
what an expression folds to. -/
theorem foldOnto_induction {Holds : Result → Prop} {items : List Value}
    {results final : List Result}
    (leaves : ∀ item ∈ items, operandsOf item = 0 → ∀ result, leaf item = .ok result →
      Holds result)
    (nodes : ∀ command operands result, 0 < command.operands →
      operands.length = command.operands → (∀ operand ∈ operands, Holds operand) →
      node command operands = .ok result → Holds result)
    (before : ∀ result ∈ results, Holds result)
    (done : foldOnto leaf node items results = .ok final) : ∀ result ∈ final, Holds result := by
  induction items generalizing results with
  | nil =>
    obtain rfl : results.reverse = final := Except.ok.inj done
    exact fun result among => before result (List.mem_reverse.mp among)
  | cons item items inductionHypothesis =>
    obtain ⟨first, others⟩ := List.forall_mem_cons.mp leaves
    obtain ⟨next, step, rest⟩ := foldOnto_cons.mp done
    refine inductionHypothesis others ?_ rest
    cases step with
    | leaf alone stands => exact List.forall_mem_cons.mpr ⟨first alone _ stands, before⟩
    | node several enough operated =>
      refine List.forall_mem_cons.mpr
        ⟨nodes _ _ _ several ?_ (fun operand among => ?_) operated, ?_⟩
      · rw [List.length_reverse, List.length_take, Nat.min_eq_left enough]
      · exact before operand (List.mem_of_mem_take (List.mem_reverse.mp among))
      · exact fun result among => before result (List.mem_of_mem_drop among)

/-- Folds that take related steps have related results: if one of them succeeds, then so does the
other one. -/
theorem exists_foldOnto {Other : Type} {otherLeaf : Value → Outcome Other}
    {otherNode : Command → List Other → Outcome Other} {Related : Result → Other → Prop}
    {items : List Value} {results final : List Result} {others : List Other}
    (leaves : ∀ item ∈ items, operandsOf item = 0 → ∀ result, leaf item = .ok result →
      ∃ other, otherLeaf item = .ok other ∧ Related result other)
    (nodes : ∀ command operands otherOperands result, List.Forall₂ Related operands otherOperands →
      node command operands = .ok result →
        ∃ other, otherNode command otherOperands = .ok other ∧ Related result other)
    (before : List.Forall₂ Related results others)
    (done : foldOnto leaf node items results = .ok final) :
    ∃ otherFinal, foldOnto otherLeaf otherNode items others = .ok otherFinal ∧
      List.Forall₂ Related final otherFinal := by
  induction items generalizing results others with
  | nil =>
    obtain rfl : results.reverse = final := Except.ok.inj done
    exact ⟨others.reverse, rfl, List.rel_reverse before⟩
  | cons item items inductionHypothesis =>
    obtain ⟨first, rest⟩ := List.forall_mem_cons.mp leaves
    obtain ⟨next, step, further⟩ := foldOnto_cons.mp done
    cases step with
    | leaf alone stands =>
      obtain ⟨other, standsOther, related⟩ := first alone _ stands
      obtain ⟨otherFinal, folded, all⟩ := inductionHypothesis rest (.cons related before) further
      exact ⟨otherFinal, foldOnto_cons.mpr ⟨_, .leaf alone standsOther, folded⟩, all⟩
    | @node command _ several enough operated =>
      have operands := List.rel_reverse (List.forall₂_take command.operands before)
      obtain ⟨other, operatedOther, related⟩ := nodes _ _ _ _ operands operated
      have enoughOther : command.operands ≤ others.length := before.length_eq ▸ enough
      obtain ⟨otherFinal, folded, all⟩ := inductionHypothesis rest
        (.cons related (List.forall₂_drop command.operands before)) further
      exact ⟨otherFinal,
        foldOnto_cons.mpr ⟨_, .node several enoughOther operatedOther, folded⟩, all⟩

end Calculator.Expression
