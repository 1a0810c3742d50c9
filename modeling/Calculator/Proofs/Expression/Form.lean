import Calculator.Expression
import Calculator.Proofs.Expression.Rooted
import Mathlib

/-!
# The form of an expression

Items in postfix order that fold are a row of expressions, and each of these has a form: it is an
item that stands for itself, or an operator with its operands. The items determine the forms. So to
fold items is to fold their forms, and the outermost operator is separated from its operands where
the form has it.
-/

namespace Calculator.Expression

/-- An expression as a tree: an item that stands for itself, or an operator with as many operands as
it takes. -/
inductive Form where
  | leaf (item : Value) (alone : operandsOf item = 0)
  | single (command : Command) (one : command.operands = 1) (operand : Form)
  | both (command : Command) (two : command.operands = 2) (left right : Form)

namespace Form

variable {Result : Type} {leaf : Value → Outcome Result}
variable {node : Command → List Result → Outcome Result}

/-- The items of an expression in postfix order. -/
def items : Form → List Value
  | .leaf item _ => [item]
  | .single command _ operand => operand.items ++ [.command command]
  | .both command _ left right => left.items ++ right.items ++ [.command command]

/-- Folds an expression from the leaves up. -/
def fold (leaf : Value → Outcome Result) (node : Command → List Result → Outcome Result) :
    Form → Outcome Result
  | .leaf item _ => leaf item
  | .single command _ operand => do node command [← operand.fold leaf node]
  | .both command _ left right => do
    node command [← left.fold leaf node, ← right.fold leaf node]

/-! ## Folds -/

/-- An item that stands for itself is the next result, if it has one. -/
theorem foldOnto_leaf_bind {item : Value} (alone : operandsOf item = 0) (others : List Value)
    (results : List Result) :
    foldOnto leaf node (item :: others) results =
      leaf item >>= fun result => foldOnto leaf node others (result :: results) := by
  cases item with
  | command command =>
    have none : ¬ 0 < command.operands := Nat.not_lt.mpr (Nat.le_zero.mpr alone)
    simp only [foldOnto, if_neg none]
  | _ => rfl

/-- An operator takes its operands off the results, the last one first. -/
theorem foldOnto_command_bind {command : Command} {operands : List Result}
    (count : command.operands = operands.length) (some : operands ≠ []) (others : List Value)
    (results : List Result) :
    foldOnto leaf node (.command command :: others) (operands.reverse ++ results) =
      node command operands >>= fun result => foldOnto leaf node others (result :: results) := by
  have taken : (operands.reverse ++ results).take operands.length = operands.reverse :=
    List.take_left' List.length_reverse
  have left : (operands.reverse ++ results).drop operands.length = results :=
    List.drop_left' List.length_reverse
  have positive : 0 < operands.length := List.length_pos_of_ne_nil some
  simp only [foldOnto, count, if_pos positive, taken, left, List.length_reverse,
    if_neg (Nat.lt_irrefl _), List.reverse_reverse]

/-- To fold the items of an expression is to fold the expression. -/
theorem foldOnto_items (form : Form) (others : List Value) (results : List Result) :
    foldOnto leaf node (form.items ++ others) results =
      form.fold leaf node >>= fun result => foldOnto leaf node others (result :: results) := by
  induction form generalizing others results with
  | leaf item alone => exact foldOnto_leaf_bind alone others results
  | single command one operand inductionHypothesis =>
    simp only [items, fold, List.append_assoc, List.singleton_append, inductionHypothesis,
      bind_assoc]
    congr 1
    funext result
    have some : [result] ≠ [] := List.cons_ne_nil _ _
    exact foldOnto_command_bind one some others results
  | both command two left right leftFold rightFold =>
    simp only [items, fold, List.append_assoc, List.singleton_append, leftFold, rightFold,
      bind_assoc]
    congr 1
    funext first
    congr 1
    funext second
    have some : [first, second] ≠ [] := List.cons_ne_nil _ _
    exact foldOnto_command_bind two some others results

/-- To fold the items of a row of expressions is to fold each of these. -/
theorem foldOnto_flatMap (forms : List Form) (results : List Result) :
    foldOnto leaf node (forms.flatMap items) results =
      forms.mapM (fold leaf node) >>= fun later => .ok (results.reverse ++ later) := by
  induction forms generalizing results with
  | nil => exact congrArg Except.ok (List.append_nil _).symm
  | cons form forms inductionHypothesis =>
    rw [List.flatMap_cons, foldOnto_items, List.mapM_cons, bind_assoc]
    congr 1
    funext result
    rw [inductionHypothesis, bind_assoc]
    simp only [List.reverse_cons, List.append_assoc, List.singleton_append, pure_bind]

/-- To fold the items of a row of expressions is to fold each of these. -/
theorem fold_flatMap (forms : List Form) :
    Expression.fold leaf node (forms.flatMap items) = forms.mapM (fold leaf node) := by
  rw [Expression.fold, foldOnto_flatMap]
  cases forms.mapM (fold leaf node) <;> rfl

/-- To fold the items of an expression is to fold the expression. -/
theorem fold_items (form : Form) :
    Expression.fold leaf node form.items = form.fold leaf node >>= fun result => .ok [result] := by
  have whole : foldOnto leaf node (form.items ++ []) [] = _ := foldOnto_items form [] []
  rwa [List.append_nil] at whole

/-! ## Items determine forms -/

/-- The form of an item that stands for itself. -/
def ofLeaf (item : Value) : Outcome Form :=
  if alone : operandsOf item = 0 then .ok (.leaf item alone)
  else .error (.malformed .missingOperands)

/-- The form of an operator and its operands. -/
def ofNode (command : Command) : List Form → Outcome Form
  | [operand] =>
    if one : command.operands = 1 then .ok (.single command one operand)
    else .error (.malformed .missingOperands)
  | [left, right] =>
    if two : command.operands = 2 then .ok (.both command two left right)
    else .error (.malformed .missingOperands)
  | _ => .error (.malformed .missingOperands)

/-- An expression folds to its form. -/
theorem fold_ofNode (form : Form) : form.fold ofLeaf ofNode = .ok form := by
  induction form with
  | leaf item alone => exact dif_pos alone
  | single command one operand inductionHypothesis =>
    rw [fold, inductionHypothesis]
    exact dif_pos one
  | both command two left right leftFold rightFold =>
    rw [fold, leftFold, rightFold]
    exact dif_pos two

/-- Expressions with the same items are the same. -/
theorem items_injective {form other : Form} (same : form.items = other.items) : form = other := by
  have folded : Expression.fold ofLeaf ofNode form.items = _ := fold_items form
  rw [same, fold_items, fold_ofNode, fold_ofNode] at folded
  exact (List.singleton_inj.mp (Except.ok.inj folded)).symm

/-- No operator takes more than two operands. -/
theorem operands_le_two (command : Command) : command.operands ≤ 2 := by
  cases command <;> decide

/-- Items with a single root are those of an expression. -/
theorem exists_form {Leaf : Value → Prop} {items : List Value} (rooted : Rooted Leaf items) :
    ∃ form : Form, form.items = items := by
  induction rooted with
  | leaf item alone _ => exact ⟨.leaf item alone, rfl⟩
  | node command operands several count _ inductionHypothesis =>
    have few := operands_le_two command
    match operands, count with
    | [], count => exact absurd several (by simp [← count])
    | [operand], count =>
      obtain ⟨form, rfl⟩ := inductionHypothesis operand List.mem_cons_self
      exact ⟨.single command count.symm form, by simp [Form.items]⟩
    | [left, right], count =>
      obtain ⟨first, rfl⟩ := inductionHypothesis left List.mem_cons_self
      obtain ⟨second, rfl⟩ := inductionHypothesis right
        (List.mem_cons_of_mem _ List.mem_cons_self)
      exact ⟨.both command count.symm first second, by simp [Form.items]⟩
    | _ :: _ :: _ :: _, count =>
      simp only [List.length_cons] at count
      omega

/-- Items that fold are those of a row of expressions, one for each result. -/
theorem exists_forms {items : List Value} {results : List Result}
    (folds : Expression.fold leaf node items = .ok results) :
    ∃ forms : List Form, forms.flatMap Form.items = items ∧ forms.length = results.length := by
  have none : ([] : List (List Value)).length = ([] : List Result).length := rfl
  have plain : ∀ item ∈ items, operandsOf item = 0 → (fun _ : Value => True) item :=
    fun _ _ _ => trivial
  obtain ⟨parts, count, rooted, flat⟩ := exists_rooted plain (List.forall_mem_nil _) none folds
  obtain ⟨forms, same⟩ : parts ∈ Set.range (List.map Form.items) :=
    (Set.range_list_map Form.items).symm ▸ fun part among => exists_form (rooted part among)
  refine ⟨forms, ?_, ?_⟩
  · rw [List.flatMap_def, same]
    exact flat
  · rw [← count, ← same, List.length_map]

/-- The items of an expression have a single root. -/
theorem isSingle_items (form : Form) : IsSingle form.items := by
  have unit : form.fold (fun _ => .ok ()) (fun _ _ => .ok ()) = .ok () := by
    induction form with
    | leaf => rfl
    | single _ _ _ inductionHypothesis => rw [fold, inductionHypothesis]; rfl
    | both _ _ _ _ leftFold rightFold => rw [fold, leftFold, rightFold]; rfl
  rw [IsSingle, fold_items, unit]
  rfl

/-! ## The outermost operator -/

/-- The items of an expression are one more stretch. -/
theorem rangesOnto_items (form : Form) (others : List Value) (position : ℕ)
    (found : List (ℕ × ℕ)) :
    rangesOnto (form.items ++ others) position found =
      rangesOnto others (position + form.items.length)
        ((position, position + form.items.length) :: found) := by
  induction form generalizing others position found with
  | leaf item alone => simp [items, rangesOnto, alone]
  | single command one operand inductionHypothesis =>
    have taken : operandsOf (.command command) = 1 := one
    simp [items, inductionHypothesis, rangesOnto, taken, Nat.add_assoc]
  | both command two left right leftRanges rightRanges =>
    have taken : operandsOf (.command command) = 2 := two
    simp [items, leftRanges, rightRanges, rangesOnto, taken, Nat.add_assoc]

/-- The parts into which the outermost operator separates the items. -/
def split? : Form → Option (Command × List (List Value))
  | .leaf _ _ => none
  | .single command _ operand => some (command, [operand.items])
  | .both command _ left right => some (command, [left.items, right.items])

/-- The outermost operator is separated from the items of its operands. -/
theorem splitLast?_items (form : Form) : splitLast? form.items = form.split? := by
  cases form with
  | leaf item alone =>
    cases item with
    | command command =>
      have none : command.operands = 0 := alone
      simp [splitLast?, items, split?, ranges, rangesOnto, none]
    | _ => rfl
  | single command one operand =>
    have found : ranges operand.items = .ok [(0, operand.items.length)] := by
      have whole := rangesOnto_items operand [] 0 []
      rw [List.append_nil, Nat.zero_add] at whole
      exact whole
    simp [splitLast?, items, split?, found, one, slice]
  | both command two left right =>
    have found : ranges (left.items ++ right.items) =
        .ok [(0, left.items.length), (left.items.length,
          left.items.length + right.items.length)] := by
      have whole := rangesOnto_items left (right.items ++ []) 0 []
      rw [rangesOnto_items right, List.append_nil, Nat.zero_add] at whole
      exact whole
    simp [splitLast?, items, split?, found, two, slice, List.take_of_length_le]

end Form

end Calculator.Expression
