import Calculator.Expression.Binding
import Calculator.Proofs.Expression.Rooted
import Mathlib

/-!
# Expressions with their bindings carried out

The operands of the outermost operator are found by the stretches that the independent parts of an
expression take up. These lie side by side, and each of them has a single root. So a value that is
put in the place of a name is an expression, and an expression stays one when its bindings are
carried out.
-/

namespace Calculator.Expression

variable {Leaf : Value → Prop} {items whole : List Value}

/-! ## Stretches -/

/-- Two stretches that meet are one. -/
theorem slice_append (items : List Value) {start middle stop : Nat} (first : start ≤ middle)
    (second : middle ≤ stop) :
    slice items (start, middle) ++ slice items (middle, stop) = slice items (start, stop) := by
  have shorter : items.take middle = (items.take stop).take middle := by
    rw [List.take_take, Nat.min_eq_left second]
  have front : ((items.take stop).take middle).drop start =
      ((items.take stop).drop start).take (middle - start) := List.drop_take
  have back : (items.take stop).drop middle =
      ((items.take stop).drop start).drop (middle - start) := by
    rw [List.drop_drop, Nat.add_sub_cancel' first]
  simp only [slice, shorter]
  rw [front, back, List.take_append_drop]

/-- The stretch from a position to the one behind it is the item there. -/
theorem slice_single {item : Value} {rest : List Value} {position : Nat}
    (behind : whole.drop position = item :: rest) :
    slice whole (position, position + 1) = [item] := by
  rw [slice, List.drop_take, behind, Nat.add_sub_cancel_left]
  rfl

/-- Stretches, given from the last to the first, that lie side by side up to a position, each of
them with a single root. -/
inductive Adjoining (Leaf : Value → Prop) (items : List Value) : Nat → List (Nat × Nat) → Prop
  | nil (stop : Nat) : Adjoining Leaf items stop []
  | cons {start stop : Nat} {ranges : List (Nat × Nat)} (ordered : start ≤ stop)
      (rooted : Rooted Leaf (slice items (start, stop)))
      (others : Adjoining Leaf items start ranges) :
      Adjoining Leaf items stop ((start, stop) :: ranges)

/-- Each of the stretches has a single root. -/
theorem Adjoining.rooted {stop : Nat} {ranges : List (Nat × Nat)}
    (adjoining : Adjoining Leaf items stop ranges) :
    ∀ range ∈ ranges, Rooted Leaf (slice items range) := by
  induction adjoining with
  | nil => exact List.forall_mem_nil _
  | cons _ rooted _ inductionHypothesis =>
    exact List.forall_mem_cons.mpr ⟨rooted, inductionHypothesis⟩

/-- The last few stretches fill all from where the first of them starts, and the others lie in front
of that. -/
theorem Adjoining.split {stop : Nat} {ranges : List (Nat × Nat)}
    (adjoining : Adjoining Leaf items stop ranges) (count : Nat) (enough : count ≤ ranges.length) :
    let start := ((ranges.take count).getLast?.map Prod.fst).getD stop
    start ≤ stop ∧
      ((ranges.take count).reverse.map (slice items)).flatten = slice items (start, stop) ∧
      Adjoining Leaf items start (ranges.drop count) := by
  induction count generalizing stop ranges with
  | zero => exact ⟨le_rfl, by simp [slice], adjoining⟩
  | succ count inductionHypothesis =>
    cases adjoining with
    | nil => simp at enough
    | @cons start _ ranges ordered _ others =>
      obtain ⟨before, filled, rest⟩ := inductionHypothesis others (Nat.le_of_succ_le_succ enough)
      have first : (((start, stop) :: ranges).take (count + 1)).getLast?.map Prod.fst =
          some (((ranges.take count).getLast?.map Prod.fst).getD start) := by
        rw [List.take_succ_cons, List.getLast?_cons]
        cases (ranges.take count).getLast? <;> rfl
      simp only [first, Option.getD_some]
      refine ⟨before.trans ordered, ?_, rest⟩
      rw [List.take_succ_cons, List.reverse_cons, List.map_append, List.flatten_append, filled]
      simpa using slice_append items before ordered

/-- What is found of the items that remain lies side by side up to the end, if what was found before
does up to the position reached. -/
theorem adjoining_rangesOnto {position : Nat} {found final : List (Nat × Nat)}
    (leaves : ∀ item ∈ whole, operandsOf item = 0 → Leaf item)
    (behind : whole.drop position = items) (adjoining : Adjoining Leaf whole position found)
    (done : rangesOnto items position found = .ok final) :
    ∃ stop, Adjoining Leaf whole stop final.reverse := by
  induction items generalizing position found with
  | nil =>
    obtain rfl : found.reverse = final := Except.ok.inj done
    exact ⟨position, by rwa [List.reverse_reverse]⟩
  | cons item items inductionHypothesis =>
    rw [rangesOnto] at done
    dsimp only at done
    split at done
    · cases done
    · rename_i enough
      have present : operandsOf item ≤ found.length := by
        rw [List.length_take] at enough
        omega
      obtain ⟨before, filled, rest⟩ := adjoining.split (operandsOf item) present
      have inside : item ∈ whole := by
        refine List.mem_of_mem_drop (i := position) ?_
        rw [behind]
        exact List.mem_cons_self
      have next : whole.drop (position + 1) = items := by
        rw [← List.drop_drop, behind]
        rfl
      refine inductionHypothesis next (.cons (before.trans (Nat.le_succ _)) ?_ rest) done
      rw [← slice_append whole before (Nat.le_succ position), ← filled, slice_single behind]
      by_cases alone : operandsOf item = 0
      · simpa [alone] using Rooted.leaf item alone (leaves item inside alone)
      · cases item with
        | command command =>
          refine .node command _ (Nat.pos_of_ne_zero alone) ?_ fun part among => ?_
          · rw [List.length_map, List.length_reverse, List.length_take]
            exact Nat.min_eq_left present
          · obtain ⟨range, listed, rfl⟩ := List.mem_map.mp among
            exact adjoining.rooted range (List.mem_of_mem_take (List.mem_reverse.mp listed))
        | _ => exact absurd rfl alone

/-- The operands of the outermost operator have single roots. -/
theorem rooted_of_splitLast? {command : Command} {operands : List (List Value)}
    (leaves : ∀ item ∈ items, operandsOf item = 0 → Leaf item)
    (split : splitLast? items = some (command, operands)) :
    ∀ operand ∈ operands, Rooted Leaf operand := by
  unfold splitLast? at split
  split at split
  · dsimp only at split
    split at split
    · cases split
    · rename_i found ranged
      split at split
      · cases split
      · obtain ⟨-, rfl⟩ := Prod.mk.inj (Option.some.inj split)
        have inner : ∀ item ∈ items.dropLast, operandsOf item = 0 → Leaf item :=
          fun item among => leaves item (List.mem_of_mem_dropLast among)
        obtain ⟨stop, adjoining⟩ := adjoining_rangesOnto inner rfl (.nil 0) ranged
        exact List.forall_mem_map.mpr fun range listed =>
          adjoining.rooted range (List.mem_reverse.mpr listed)
  · cases split

/-! ## Bindings -/

/-- Substitution in several rows is substitution in each of them. -/
theorem substitute_flatten (rows : List (List Value)) (name : Symbol) (value : List Value)
    (caseSensitive : Bool) : substitute rows.flatten name value caseSensitive =
      (rows.map fun row => substitute row name value caseSensitive).flatten := by
  induction rows with
  | nil => rfl
  | cons row rows inductionHypothesis =>
    rw [List.flatten_cons, List.map_cons, List.flatten_cons, ← inductionHypothesis]
    exact List.flatMap_append

/-- With an expression in the place of a name, an expression stays one. -/
theorem Rooted.substitute {value : List Value} (rooted : Rooted Leaf items)
    (single : Rooted Leaf value) (name : Symbol) (caseSensitive : Bool) :
    Rooted Leaf (substitute items name value caseSensitive) := by
  induction rooted with
  | leaf item alone allowed =>
    unfold Expression.substitute
    rw [List.flatMap_singleton]
    split
    · split
      · exact single
      · exact .leaf _ rfl allowed
    · exact .leaf item alone allowed
  | node command operands several count _ inductionHypothesis =>
    have whole := Rooted.node command
      (operands.map fun part => Expression.substitute part name value caseSensitive) several
      (by rw [List.length_map, count]) (List.forall_mem_map.mpr inductionHypothesis)
    have parts : Expression.substitute (operands.flatten ++ [.command command]) name value
        caseSensitive = (operands.map fun part =>
          Expression.substitute part name value caseSensitive).flatten ++ [.command command] := by
      rw [← substitute_flatten]
      exact List.flatMap_append
    rwa [parts]

/-- An operator behind its operands, or a binding carried out, is an expression. -/
theorem rooted_bindNode {caseSensitive : Bool} {command : Command} {operands : List (List Value)}
    {result : List Value} (several : 0 < command.operands)
    (count : operands.length = command.operands) (each : ∀ operand ∈ operands, Rooted Leaf operand)
    (done : bindNode caseSensitive command operands = .ok result) : Rooted Leaf result := by
  unfold bindNode at done
  split at done
  · rename_i body binding
    obtain ⟨bodyRooted, others⟩ := List.forall_mem_cons.mp each
    have bindingRooted := others binding List.mem_cons_self
    unfold bind at done
    split at done
    · rename_i name value split
      obtain rfl := Except.ok.inj done
      have single := rooted_of_splitLast? bindingRooted.leaves split value (by simp)
      exact bodyRooted.substitute single name caseSensitive
    · cases done
  · obtain rfl := Except.ok.inj done
    exact .node command operands several count each

/-- With its bindings carried out, an expression stays one, with leaves of the same kind. -/
theorem Rooted.expandBindings {caseSensitive : Bool} {result : List Value}
    (rooted : Rooted Leaf items) (done : expandBindings items caseSensitive = .ok result) :
    Rooted Leaf result := by
  unfold Expression.expandBindings at done
  split at done
  · obtain ⟨rows, folded, rest⟩ := Outcome.bind_eq_ok.mp done
    have each : ∀ row ∈ rows, Rooted Leaf row := by
      refine foldOnto_induction ?_ ?_ (List.forall_mem_nil _) folded
      · intro item among alone row stands
        obtain rfl : [item] = row := Except.ok.inj stands
        exact .leaf item alone (rooted.leaves item among alone)
      · exact fun _ _ _ => rooted_bindNode
    split at rest
    · obtain rfl := Except.ok.inj rest
      exact each _ List.mem_cons_self
    · cases rest
  · obtain rfl := Except.ok.inj done
    exact rooted

/-- Whether an operator that binds is found among items. -/
theorem any_whereBound {items : List Value} :
    items.any (· == .command .whereBound) = true ↔ .command .whereBound ∈ items := by
  have same (item : Value) :
      (item == .command .whereBound) = true ↔ item = .command .whereBound := by
    change item.same (.command .whereBound) = true ↔ _
    cases item with
    | command command => rw [Value.same, beq_iff_eq, Value.command.injEq]
    | _ => simp [Value.same]
  simp [List.any_eq_true, same]

/-- An expression without bindings is expanded to itself. -/
theorem expandBindings_of_whereFree {items : List Value}
    (whereFree : .command .whereBound ∉ items) (caseSensitive : Bool) :
    expandBindings items caseSensitive = .ok items := by
  rw [expandBindings, if_neg (mt any_whereBound.mp whereFree)]
  rfl

end Calculator.Expression
