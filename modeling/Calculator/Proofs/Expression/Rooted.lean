import Calculator.Proofs.Expression.Folding
import Mathlib

/-!
# Expressions with a single root

Items in postfix order are one expression if every operator finds its operands in front of it and
nothing is left over: if they fold to exactly one value. What such items look like is said by the
tree they stand for, a leaf or an operator behind the items of its operands. Items that go on where
an expression ends, so that it still is one with them, are a tail.
-/

namespace Calculator.Expression

/-- Whether items fold to exactly one value. -/
def IsSingle (items : List Value) : Prop :=
  fold (fun _ => .ok ()) (fun _ _ => .ok ()) items = .ok [()]

/-- Items with a single root and leaves of some kind: an item that stands for itself, or an operator
behind as many operands as it takes. -/
inductive Rooted (Leaf : Value → Prop) : List Value → Prop
  | leaf (item : Value) (alone : operandsOf item = 0) (allowed : Leaf item) : Rooted Leaf [item]
  | node (command : Command) (operands : List (List Value)) (several : 0 < command.operands)
      (count : operands.length = command.operands) (rooted : ∀ part ∈ operands, Rooted Leaf part) :
      Rooted Leaf (operands.flatten ++ [.command command])

variable {Leaf : Value → Prop} {Result : Type} {leaf : Value → Outcome Result}
variable {node : Command → List Result → Outcome Result}

/-! ## What folds to one value is rooted -/

/-- However items are folded, behind items that have been folded before, they fold to as many
values as there are rooted rows in all of these. -/
theorem exists_rooted {items : List Value} {results final : List Result}
    {rows : List (List Value)} (leaves : ∀ item ∈ items, operandsOf item = 0 → Leaf item)
    (rooted : ∀ row ∈ rows, Rooted Leaf row) (count : rows.length = results.length)
    (done : foldOnto leaf node items results = .ok final) :
    ∃ parts : List (List Value), parts.length = final.length ∧
      (∀ part ∈ parts, Rooted Leaf part) ∧ parts.flatten = rows.reverse.flatten ++ items := by
  induction items generalizing results rows with
  | nil =>
    obtain rfl : results.reverse = final := Except.ok.inj done
    refine ⟨rows.reverse, by simpa using count, fun part among => ?_, (List.append_nil _).symm⟩
    exact rooted part (List.mem_reverse.mp among)
  | cons item items inductionHypothesis =>
    obtain ⟨first, others⟩ := List.forall_mem_cons.mp leaves
    obtain ⟨next, step, rest⟩ := foldOnto_cons.mp done
    cases step with
    | @leaf _ result alone _ =>
      obtain ⟨parts, same, all, flat⟩ := inductionHypothesis others
        (List.forall_mem_cons.mpr ⟨.leaf item alone (first alone), rooted⟩)
        (congrArg (· + 1) count) rest
      refine ⟨parts, same, all, ?_⟩
      rw [flat, List.reverse_cons, List.flatten_append, List.append_assoc]
      rfl
    | @node command result several enough _ =>
      have whole :
          Rooted Leaf ((rows.take command.operands).reverse.flatten ++ [.command command]) := by
        refine .node command _ several ?_ fun part among => ?_
        · rw [List.length_reverse, List.length_take, count, Nat.min_eq_left enough]
        · exact rooted part (List.mem_of_mem_take (List.mem_reverse.mp among))
      obtain ⟨parts, same, all, flat⟩ := inductionHypothesis others
        (List.forall_mem_cons.mpr
          ⟨whole, fun row among => rooted row (List.mem_of_mem_drop among)⟩)
        (by rw [List.length_cons, List.length_cons, List.length_drop, List.length_drop, count]) rest
      refine ⟨parts, same, all, ?_⟩
      have split := List.take_append_drop command.operands rows
      rw [flat, List.reverse_cons, List.flatten_append, List.flatten_singleton]
      conv_rhs => rw [← split, List.reverse_append, List.flatten_append]
      simp [List.append_assoc]

/-- What folds to one value, however it is folded, is rooted. -/
theorem rooted_of_fold {items : List Value} {result : Result}
    (leaves : ∀ item ∈ items, operandsOf item = 0 → Leaf item)
    (done : fold leaf node items = .ok [result]) : Rooted Leaf items := by
  have none : ([] : List (List Value)).length = ([] : List Result).length := rfl
  obtain ⟨parts, single, rooted, flat⟩ := exists_rooted leaves (List.forall_mem_nil _) none done
  obtain ⟨part, rfl⟩ := List.length_eq_one_iff.mp single
  rw [List.flatten_singleton] at flat
  exact (show part = items from flat) ▸ rooted part List.mem_cons_self

/-! ## What is rooted folds to one value -/

/-- Rows each of which folds to one value fold to a row of values, the last of which comes first. -/
theorem exists_foldOnto_flatten {parts : List (List Value)}
    (each : ∀ part ∈ parts, ∃ result, ∀ others results,
      foldOnto leaf node (part ++ others) results =
        foldOnto leaf node others (result :: results)) :
    ∃ values : List Result, values.length = parts.length ∧ ∀ others results,
      foldOnto leaf node (parts.flatten ++ others) results =
        foldOnto leaf node others (values.reverse ++ results) := by
  induction parts with
  | nil => exact ⟨[], rfl, fun _ _ => rfl⟩
  | cons part parts inductionHypothesis =>
    obtain ⟨⟨value, front⟩, rest⟩ := List.forall_mem_cons.mp each
    obtain ⟨values, same, back⟩ := inductionHypothesis rest
    refine ⟨value :: values, congrArg (· + 1) same, fun others results => ?_⟩
    rw [List.flatten_cons, List.append_assoc, front, back, List.reverse_cons, List.append_assoc]
    rfl

/-- Where no leaf and no operator fails, what is rooted folds to one value, whatever goes before it
and comes after it. -/
theorem Rooted.exists_foldOnto {items : List Value} (rooted : Rooted Leaf items)
    (leaves : ∀ item, ∃ result, leaf item = .ok result)
    (nodes : ∀ command operands, ∃ result, node command operands = .ok result) :
    ∃ result, ∀ others results, foldOnto leaf node (items ++ others) results =
      foldOnto leaf node others (result :: results) := by
  induction rooted with
  | leaf item alone _ =>
    obtain ⟨result, stands⟩ := leaves item
    exact ⟨result, fun others results => foldOnto_leaf stands alone others results⟩
  | node command operands several count _ inductionHypothesis =>
    obtain ⟨values, same, folded⟩ := exists_foldOnto_flatten inductionHypothesis
    obtain ⟨result, found⟩ := nodes command values
    have enough : command.operands = values.length := by rw [same, count]
    have some : values ≠ [] := List.ne_nil_of_length_pos (enough ▸ several)
    refine ⟨result, fun others results => ?_⟩
    rw [List.append_assoc, folded]
    exact foldOnto_command found enough some others results

/-- The leaves of what is rooted are of the kind. -/
theorem Rooted.leaves {items : List Value} (rooted : Rooted Leaf items) :
    ∀ item ∈ items, operandsOf item = 0 → Leaf item := by
  induction rooted with
  | leaf item _ allowed => exact List.forall_mem_singleton.mpr fun _ => allowed
  | node command operands several _ _ inductionHypothesis =>
    intro item among alone
    rcases List.mem_append.mp among with inside | last
    · obtain ⟨part, listed, here⟩ := List.mem_flatten.mp inside
      exact inductionHypothesis part listed item here alone
    · obtain rfl := List.mem_singleton.mp last
      exact absurd alone several.ne'

/-- Every expression has a leaf. -/
theorem Rooted.exists_leaf {items : List Value} (rooted : Rooted Leaf items) :
    ∃ item ∈ items, Leaf item := by
  induction rooted with
  | leaf item _ allowed => exact ⟨item, List.mem_cons_self, allowed⟩
  | node command operands several count _ inductionHypothesis =>
    obtain ⟨part, among⟩ := List.exists_mem_of_length_pos (count ▸ several)
    obtain ⟨item, inside, allowed⟩ := inductionHypothesis part among
    exact ⟨item, List.mem_append_left _ (List.mem_flatten_of_mem among inside), allowed⟩

/-- Items are rooted if they fold to exactly one value and their leaves are of the kind, and only
then. -/
theorem rooted_iff (items : List Value) :
    Rooted Leaf items ↔ IsSingle items ∧ ∀ item ∈ items, operandsOf item = 0 → Leaf item := by
  constructor
  · intro rooted
    obtain ⟨⟨⟩, folded⟩ := rooted.exists_foldOnto (fun _ => ⟨(), rfl⟩) fun _ _ => ⟨(), rfl⟩
    have whole := folded [] []
    rw [List.append_nil] at whole
    exact ⟨whole, rooted.leaves⟩
  · rintro ⟨single, leaves⟩
    exact rooted_of_fold leaves single

/-- What is rooted has leaves of a wider kind, too. -/
theorem Rooted.imp {Other : Value → Prop} {items : List Value} (rooted : Rooted Leaf items)
    (wider : ∀ item ∈ items, Leaf item → Other item) : Rooted Other items := by
  obtain ⟨single, leaves⟩ := (rooted_iff items).mp rooted
  exact (rooted_iff items).mpr
    ⟨single, fun item among alone => wider item among (leaves item among alone)⟩

/-! ## Putting expressions together -/

/-- A function or an operator of one operand may follow that operand. -/
theorem Rooted.unary {items : List Value} (rooted : Rooted Leaf items) {command : Command}
    (single : command.operands = 1) : Rooted Leaf (items ++ [.command command]) := by
  have whole := Rooted.node command [items] (by omega) single.symm (by simpa using rooted)
  rwa [List.flatten_singleton] at whole

/-- A function or an operator of two operands may follow these. -/
theorem Rooted.binary {left right : List Value} (first : Rooted Leaf left)
    (second : Rooted Leaf right) {command : Command} (both : command.operands = 2) :
    Rooted Leaf (left ++ right ++ [.command command]) := by
  have parts : ∀ part ∈ [left, right], Rooted Leaf part := by simp [first, second]
  have whole := Rooted.node command [left, right] (by omega) both.symm parts
  rwa [List.flatten_cons, List.flatten_singleton] at whole

/-- Whether an expression is one still when these items follow it. -/
def Tail (Leaf : Value → Prop) (items : List Value) : Prop :=
  ∀ front, Rooted Leaf front → Rooted Leaf (front ++ items)

/-- Nothing may follow. -/
theorem tail_nil : Tail Leaf [] := by
  intro front rooted
  rwa [List.append_nil]

/-- What may follow an expression may be followed by more of this kind. -/
theorem Tail.append {first second : List Value} (front : Tail Leaf first)
    (back : Tail Leaf second) : Tail Leaf (first ++ second) := by
  intro items rooted
  rw [← List.append_assoc]
  exact back _ (front items rooted)

/-- Rows that may follow, one after the other, may follow. -/
theorem tail_flatMap {Item : Type} {items : List Item} {row : Item → List Value}
    (each : ∀ item ∈ items, Tail Leaf (row item)) : Tail Leaf (items.flatMap row) := by
  induction items with
  | nil => exact tail_nil
  | cons item items inductionHypothesis =>
    obtain ⟨first, others⟩ := List.forall_mem_cons.mp each
    rw [List.flatMap_cons]
    exact first.append (inductionHypothesis others)

/-- An operator of one operand may follow. -/
theorem tail_operator {command : Command} (single : command.operands = 1) :
    Tail Leaf [.command command] :=
  fun _ rooted => rooted.unary single

/-- A second operand may follow, and an operator behind it. -/
theorem Rooted.tail {items : List Value} (rooted : Rooted Leaf items) {command : Command}
    (both : command.operands = 2) : Tail Leaf (items ++ [.command command]) := by
  intro front first
  rw [← List.append_assoc]
  exact first.binary rooted both

end Calculator.Expression
