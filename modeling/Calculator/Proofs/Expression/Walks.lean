import Calculator.Expression
import Calculator.Proofs.Expression.Folding
import Calculator.Proofs.Expression.Form
import Calculator.Proofs.Expression.Rooted
import Calculator.Proofs.Outcome
import Mathlib

/-!
# Walks over items

The walks over a row of items go the same way. A fold keeps a result for every independent part and
`ranges` keeps a stretch for it, and both stop at the first operator that does not find its operands.
Where they come to the end, the row is one of expressions laid side by side: the stretches are theirs,
the results are what each of them folds to, and the outermost operator of a single expression is
separated from just those expressions that are its operands.
-/

namespace Calculator.Expression

variable {Result : Type}

/-! ## Walking on -/

/-- A fold in which nothing goes wrong but that operands are missing. -/
def foldPlainly (leaf : Value → Result) (node : Command → List Result → Result) :
    List Value → Outcome (List Result) :=
  fold (fun item => .ok (leaf item)) fun command operands => .ok (node command operands)

section Steps

variable {leaf : Value → Outcome Result} {node : Command → List Result → Outcome Result}
variable {results next : List Result} {item : Value} {items : List Value}

/-- A step puts a result in the place of the operands of an item, all of which are there. -/
theorem Step.replaces (step : Step leaf node results item next) :
    operandsOf item ≤ results.length ∧
      ∃ result, next = result :: results.drop (operandsOf item) := by
  cases step with
  | leaf alone =>
    rw [alone]
    exact ⟨Nat.zero_le _, _, rfl⟩
  | node _ enough => exact ⟨enough, _, rfl⟩

/-- Where the operands of an item are there and neither leaves nor operators fail, there is a step. -/
theorem exists_step (leaves : ∀ item, ∃ result, leaf item = .ok result)
    (nodes : ∀ command operands, ∃ result, node command operands = .ok result)
    (enough : operandsOf item ≤ results.length) : ∃ next, Step leaf node results item next := by
  by_cases alone : operandsOf item = 0
  · obtain ⟨result, stands⟩ := leaves item
    exact ⟨_, .leaf alone stands⟩
  · cases item with
    | command command =>
      obtain ⟨result, operated⟩ := nodes command (results.take command.operands).reverse
      exact ⟨_, .node (Nat.pos_of_ne_zero alone) enough operated⟩
    | _ => exact absurd rfl alone

/-- With as many stretches as results so far, and where neither leaves nor operators fail, both walks
come to the end or neither does. -/
theorem rangesOnto_iff_foldOnto (leaves : ∀ item, ∃ result, leaf item = .ok result)
    (nodes : ∀ command operands, ∃ result, node command operands = .ok result) {position : ℕ}
    {found : List (ℕ × ℕ)} (same : found.length = results.length) :
    (∃ final, rangesOnto items position found = .ok final) ↔
      ∃ final, foldOnto leaf node items results = .ok final := by
  induction items generalizing position found results with
  | nil => exact ⟨fun _ => ⟨_, rfl⟩, fun _ => ⟨_, rfl⟩⟩
  | cons item items inductionHypothesis =>
    have further {next : List Result} (step : Step leaf node results item next) (range : ℕ × ℕ) :
        (range :: found.drop (operandsOf item)).length = next.length := by
      obtain ⟨-, result, rfl⟩ := step.replaces
      rw [List.length_cons, List.length_cons, List.length_drop, List.length_drop, same]
    simp only [foldOnto_cons, rangesOnto, List.length_take]
    split
    · rename_i few
      constructor
      · rintro ⟨_, ⟨⟩⟩
      · rintro ⟨_, _, step, -⟩
        have enough := step.replaces.1
        omega
    · rename_i enough
      constructor
      · intro walked
        have present : operandsOf item ≤ results.length := by omega
        obtain ⟨next, step⟩ := exists_step leaves nodes present
        obtain ⟨final, folded⟩ := (inductionHypothesis (further step _)).mp walked
        exact ⟨final, next, step, folded⟩
      · rintro ⟨final, next, step, folded⟩
        exact (inductionHypothesis (further step _)).mpr ⟨final, folded⟩

end Steps

/-! ## Stretches of expressions -/

/-- Stretches that lie side by side from one position up to another, none of them empty. -/
inductive Tiles : ℕ → List (ℕ × ℕ) → ℕ → Prop
  | nil (position : ℕ) : Tiles position [] position
  | cons {start stop last : ℕ} {others : List (ℕ × ℕ)} (nonempty : start < stop)
      (behind : Tiles stop others last) : Tiles start ((start, stop) :: others) last

namespace Form

/-- An expression has items. -/
theorem length_items_pos (form : Form) : 0 < form.items.length := by
  cases form <;> simp [items]

/-- The stretches of expressions that lie side by side from a position on. -/
def stretches (position : ℕ) : List Form → List (ℕ × ℕ)
  | [] => []
  | form :: forms =>
    (position, position + form.items.length) :: stretches (position + form.items.length) forms

/-- The stretches of a row of expressions are found one after the other. -/
theorem rangesOnto_flatMap (forms : List Form) (position : ℕ) (found : List (ℕ × ℕ)) :
    rangesOnto (forms.flatMap items) position found =
      .ok (found.reverse ++ stretches position forms) := by
  induction forms generalizing position found with
  | nil => simp [rangesOnto, stretches]
  | cons form forms inductionHypothesis =>
    simp [rangesOnto_items, inductionHypothesis, stretches]

/-- The stretches of a row of expressions. -/
theorem ranges_flatMap (forms : List Form) :
    ranges (forms.flatMap items) = .ok (stretches 0 forms) :=
  rangesOnto_flatMap forms 0 []

/-- There is a stretch for every expression. -/
theorem length_stretches (position : ℕ) (forms : List Form) :
    (stretches position forms).length = forms.length := by
  induction forms generalizing position with
  | nil => rfl
  | cons form forms inductionHypothesis => exact congrArg (· + 1) (inductionHypothesis _)

/-- The stretches of expressions fill the row. -/
theorem tiles_stretches (position : ℕ) (forms : List Form) :
    Tiles position (stretches position forms) (position + (forms.flatMap items).length) := by
  induction forms generalizing position with
  | nil => exact .nil _
  | cons form forms inductionHypothesis =>
    have behind := inductionHypothesis (position + form.items.length)
    rw [Nat.add_assoc, ← List.length_append] at behind
    exact .cons (Nat.lt_add_of_pos_right form.length_items_pos) behind

/-- In its stretch lie the items of an expression. -/
theorem map_slice_stretches (front : List Value) (forms : List Form) :
    (stretches front.length forms).map (slice (front ++ forms.flatMap items)) =
      forms.map items := by
  induction forms generalizing front with
  | nil => rfl
  | cons form forms inductionHypothesis =>
    have others := inductionHypothesis (front ++ form.items)
    rw [List.length_append, List.append_assoc] at others
    rw [stretches, List.map_cons, List.map_cons, List.flatMap_cons, others]
    congr 1
    simp [slice, ← List.append_assoc, List.take_left']

/-- Rows of items each of which folds to one value are those of expressions. -/
theorem exists_map_items {leaf : Value → Outcome Result}
    {node : Command → List Result → Outcome Result} {parts : List (List Value)}
    (singles : ∀ part ∈ parts, ∃ value, Expression.fold leaf node part = .ok [value]) :
    ∃ forms : List Form, forms.map items = parts := by
  have each : parts ∈ {rows : List (List Value) | ∀ row ∈ rows, row ∈ Set.range items} := by
    intro part among
    obtain ⟨value, folded⟩ := singles part among
    have plain : ∀ item ∈ part, operandsOf item = 0 → (fun _ : Value => True) item :=
      fun _ _ _ => trivial
    exact exists_form (rooted_of_fold plain folded)
  rwa [← Set.range_list_map] at each

/-- Where nothing goes wrong, an expression folds to one value. -/
theorem exists_foldPlainly (leaf : Value → Result) (node : Command → List Result → Result)
    (form : Form) : ∃ value, foldPlainly leaf node form.items = .ok [value] := by
  have rooted : Rooted (fun _ => True) form.items :=
    (rooted_iff form.items).mpr ⟨isSingle_items form, fun _ _ _ => trivial⟩
  obtain ⟨value, folded⟩ :=
    rooted.exists_foldOnto (fun item => ⟨leaf item, rfl⟩) fun command operands =>
      ⟨node command operands, rfl⟩
  have whole := folded [] []
  rw [List.append_nil] at whole
  exact ⟨value, whole⟩

end Form

/-! ## The outermost operator -/

/-- Whether a row of items is divided into an operator and so many operands as it takes, each of which
folds to one value. -/
structure Divides (leaf : Value → Result) (node : Command → List Result → Result)
    (items : List Value) (command : Command) (parts : List (List Value)) : Prop where
  whole : items = parts.flatten ++ [.command command]
  several : 0 < command.operands
  count : parts.length = command.operands
  singles : ∀ part ∈ parts, ∃ value, foldPlainly leaf node part = .ok [value]

variable {leaf : Value → Result} {node : Command → List Result → Result}
variable {items : List Value} {command : Command} {parts : List (List Value)}

/-- An operator is separated from as many expressions in front of it as it takes. -/
theorem splitLast?_eq_some : splitLast? items = some (command, parts) ↔
    ∃ forms : List Form, items = forms.flatMap Form.items ++ [.command command] ∧
      0 < command.operands ∧ forms.length = command.operands ∧ forms.map Form.items = parts := by
  constructor
  · intro split
    unfold splitLast? at split
    split at split
    · rename_i last ends
      dsimp only at split
      split at split
      · cases split
      · rename_i found ranged
        split_ifs at split with none
        obtain ⟨rfl, rfl⟩ := Prod.mk.inj (Option.some.inj split)
        rw [Bool.or_eq_true, not_or, decide_eq_true_eq, bne_iff_ne, not_not] at none
        obtain ⟨several, count⟩ := none
        have walked : ∃ final, rangesOnto items.dropLast 0 [] = .ok final := ⟨found, ranged⟩
        -- The walk that finds the stretches comes to its end just where a fold does.
        have alike : ([] : List (ℕ × ℕ)).length = ([] : List Unit).length := rfl
        obtain ⟨_, folded⟩ := (rangesOnto_iff_foldOnto (fun _ => ⟨(), rfl⟩)
          (fun _ _ => ⟨(), rfl⟩) alike).mp walked
        obtain ⟨forms, body, -⟩ := Form.exists_forms folded
        rw [← body, Form.ranges_flatMap] at ranged
        obtain rfl := Except.ok.inj ranged
        rw [Form.length_stretches] at count
        refine ⟨forms, ?_, Nat.pos_of_ne_zero several, count, ?_⟩
        · rw [body, List.dropLast_append_getLast? _ ends]
        · rw [← body]
          exact (Form.map_slice_stretches [] forms).symm
    · cases split
  · rintro ⟨forms, rfl, several, count, rfl⟩
    have inside : (Form.stretches 0 forms).map (slice (forms.flatMap Form.items)) = _ :=
      Form.map_slice_stretches [] forms
    simp [splitLast?, Form.ranges_flatMap, Form.length_stretches, count, inside, several.ne']

/-- Just what divides the items is separated. -/
theorem splitLast?_iff_divides (leaf : Value → Result) (node : Command → List Result → Result) :
    splitLast? items = some (command, parts) ↔ Divides leaf node items command parts := by
  rw [splitLast?_eq_some]
  constructor
  · rintro ⟨forms, rfl, several, count, rfl⟩
    refine ⟨by rw [List.flatMap_def], several, by rw [List.length_map, count], ?_⟩
    intro part among
    obtain ⟨form, -, rfl⟩ := List.mem_map.mp among
    exact form.exists_foldPlainly leaf node
  · rintro ⟨whole, several, count, singles⟩
    obtain ⟨forms, rfl⟩ := Form.exists_map_items singles
    rw [List.length_map] at count
    rw [← List.flatMap_def] at whole
    exact ⟨forms, whole, several, count, rfl⟩

/-- The walks over items agree. -/
theorem walks_agree (leaf : Value → Result) (node : Command → List Result → Result)
    (items : List Value) :
    ((∃ found, ranges items = .ok found) ↔ ∃ values, foldPlainly leaf node items = .ok values) ∧
    (∀ found values, ranges items = .ok found → foldPlainly leaf node items = .ok values →
      found.length = values.length ∧ Tiles 0 found items.length ∧
      List.Forall₂ (fun range value =>
        foldPlainly leaf node (slice items range) = .ok [value]) found values) ∧
    (∀ command parts, splitLast? items = some (command, parts) ↔
      Divides leaf node items command parts) ∧
    ∀ command other parts others, Divides leaf node items command parts →
      Divides leaf node items other others → command = other ∧ parts = others := by
  refine ⟨rangesOnto_iff_foldOnto (fun item => ⟨leaf item, rfl⟩)
    (fun command operands => ⟨node command operands, rfl⟩) rfl, ?_,
    fun _ _ => splitLast?_iff_divides leaf node, ?_⟩
  · intro found values ranged folded
    obtain ⟨forms, rfl, count⟩ := Form.exists_forms folded
    obtain rfl := Except.ok.inj ((Form.ranges_flatMap forms).symm.trans ranged)
    have tiles := Form.tiles_stretches 0 forms
    rw [Nat.zero_add] at tiles
    refine ⟨(Form.length_stretches 0 forms).trans count, tiles, ?_⟩
    rw [foldPlainly, Form.fold_flatMap] at folded
    have each := Outcome.forall₂_of_mapM folded
    have inside : (Form.stretches 0 forms).map (slice (forms.flatMap Form.items)) = _ :=
      Form.map_slice_stretches [] forms
    have single (form : Form) (value : Result)
        (done : form.fold (fun item => .ok (leaf item))
          (fun command operands => .ok (node command operands)) = .ok value) :
        foldPlainly leaf node form.items = .ok [value] := by
      rw [foldPlainly, Form.fold_items, done]
      rfl
    have rows : List.Forall₂ (fun row value => foldPlainly leaf node row = .ok [value])
        (forms.map Form.items) values :=
      List.forall₂_map_left_iff.mpr (each.imp single)
    rwa [← inside, List.forall₂_map_left_iff] at rows
  · intro command other parts others divides dividesToo
    have same := ((splitLast?_iff_divides leaf node).mpr divides).symm.trans
      ((splitLast?_iff_divides leaf node).mpr dividesToo)
    exact Prod.mk.inj (Option.some.inj same)

/-- A sum and a text behind it are two stretches of three items and of one. The operands of the sum
are its two texts. -/
theorem walks_agree_sum :
    List.Forall₂ (fun range size =>
        foldPlainly (fun _ => 1) (fun _ sizes => sizes.sum + 1)
          (slice [.text "a", .text "b", .command .add, .text "c"] range) = .ok [size])
      [(0, 3), (3, 4)] [3, 1] ∧
    ∀ command parts, Divides (fun _ => 1) (fun _ sizes => sizes.sum + 1)
      [.text "a", .text "b", .command .add] command parts →
        .add = command ∧ [[.text "a"], [.text "b"]] = parts := by
  have row := walks_agree (fun _ => 1) (fun _ sizes => sizes.sum + 1)
    [.text "a", .text "b", .command .add, .text "c"]
  have sum := walks_agree (fun _ => 1) (fun _ sizes => sizes.sum + 1)
    [.text "a", .text "b", .command .add]
  have divided := (sum.2.2.1 .add [[.text "a"], [.text "b"]]).mp rfl
  exact ⟨(row.2.1 [(0, 3), (3, 4)] [3, 1] rfl rfl).2.2,
    fun command parts => sum.2.2.2 .add command _ parts divided⟩

end Calculator.Expression
