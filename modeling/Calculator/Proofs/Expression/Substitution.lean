import Calculator.Proofs.Expression.Binding
import Calculator.Proofs.Expression.Form
import Mathlib

/-!
# Bindings are substitutions

An expression is read with its bindings: `body|name=value` has the value of its body where every
name that is the same as the bound one stands for the value of what it is bound to. Carrying the
bindings out leaves an expression without bindings that has this value, whatever the operators and
the other names mean. It fails where what should be a binding is none, after the bindings inside it
have been carried out.
-/

namespace Calculator.Expression

/-! ## What expressions mean -/

/-- A meaning of all items that stand for themselves, apart from names, and of all operators. -/
structure Interpretation (Meaning : Type) where
  leaf : Value → Meaning
  operator : Command → List Meaning → Meaning

namespace Interpretation

variable {Meaning : Type}

/-- The meaning of an item that stands for itself, given those of the names. -/
def item (interpretation : Interpretation Meaning) (names : Symbol → Meaning) : Value → Meaning
  | .symbol name => names name
  | other => interpretation.leaf other

/-- The meanings of the expressions in a row, given those of the names. No operator is special. -/
def value (interpretation : Interpretation Meaning) (names : Symbol → Meaning)
    (items : List Value) : Outcome (List Meaning) :=
  fold (fun leaf => .ok (interpretation.item names leaf))
    (fun command operands => .ok (interpretation.operator command operands)) items

end Interpretation

/-- The meanings of the names where one of them, and all that are the same, are bound. -/
def bound {Meaning : Type} (caseSensitive : Bool) (name : Symbol) (meaning : Meaning)
    (names : Symbol → Meaning) : Symbol → Meaning :=
  fun other => if other.sameAs name caseSensitive then meaning else names other

namespace Form

variable {Meaning : Type} (interpretation : Interpretation Meaning) (caseSensitive : Bool)

/-- The meaning of an expression in which no operator is special. -/
def meaning (names : Symbol → Meaning) : Form → Meaning
  | .leaf item _ => interpretation.item names item
  | .single command _ operand => interpretation.operator command [operand.meaning names]
  | .both command _ left right =>
    interpretation.operator command [left.meaning names, right.meaning names]

/-- The meaning of an expression is the value of its items. -/
theorem value_items (names : Symbol → Meaning) (form : Form) :
    interpretation.value names form.items = .ok [form.meaning interpretation names] := by
  have folded : form.fold (fun leaf => .ok (interpretation.item names leaf))
      (fun command operands => .ok (interpretation.operator command operands)) =
        .ok (form.meaning interpretation names) := by
    induction form with
    | leaf => rfl
    | single _ _ _ inductionHypothesis => rw [fold, inductionHypothesis]; rfl
    | both _ _ _ _ leftFold rightFold => rw [fold, leftFold, rightFold]; rfl
  rw [Interpretation.value, fold_items, folded]
  rfl

/-! ## Bindings carried out on forms -/

/-- Puts an expression in the place of every occurrence of a name. -/
def replace (name : Symbol) : (form value : Form) → Form
  | .leaf (.symbol other) alone, value =>
    if other.sameAs name caseSensitive then value else .leaf (.symbol other) alone
  | .leaf item alone, _ => .leaf item alone
  | .single command one operand, value => .single command one (operand.replace name value)
  | .both command two left right, value =>
    .both command two (left.replace name value) (right.replace name value)

/-- The name and the value of an equation with nothing but a name on its left. -/
def binding? : Form → Option (Symbol × Form)
  | .both .equation _ (.leaf (.symbol name) _) value => some (name, value)
  | _ => none

/-- The expression without bindings that says the same, if what stands for a binding is one. -/
def expand : Form → Option Form
  | .leaf item alone => some (.leaf item alone)
  | .single command one operand => do return .single command one (← operand.expand)
  | .both command two left right => do
    let left ← left.expand
    let right ← right.expand
    if command = .whereBound then
      let (name, value) ← right.binding?
      return left.replace caseSensitive name value
    else return .both command two left right

/-- What stands for bindings inside an expression. -/
def bindings : Form → List Form
  | .leaf _ _ => []
  | .single _ _ operand => operand.bindings
  | .both command _ left right =>
    left.bindings ++ right.bindings ++ if command = .whereBound then [right] else []

/-- The meaning of an expression with bindings. What is bound by an equation with nothing but a name
on its left is read with its own bindings. Anything else that stands for a binding is read after its
bindings have been carried out. -/
def lets : Form → (Symbol → Meaning) → Option Meaning
  | .leaf item _, names => some (interpretation.item names item)
  | .single command _ operand, names => do
    return interpretation.operator command [← operand.lets names]
  | .both .whereBound _ body (.both .equation _ (.leaf (.symbol name) _) value), names => do
    body.lets (bound caseSensitive name (← value.lets names) names)
  | .both .whereBound _ body other, names => do
    let (name, value) ← (← other.expand caseSensitive).binding?
    body.lets (bound caseSensitive name (value.meaning interpretation names) names)
  | .both command _ left right, names => do
    return interpretation.operator command [← left.lets names, ← right.lets names]

/-- The items of an expression in which another stands for a name. -/
theorem items_replace (name : Symbol) (value form : Form) :
    (form.replace caseSensitive name value).items =
      substitute form.items name value.items caseSensitive := by
  induction form with
  | leaf item alone =>
    cases item with
    | symbol other =>
      simp only [replace, items, substitute, List.flatMap_singleton]
      split <;> rfl
    | _ => rfl
  | single command one operand inductionHypothesis =>
    rw [replace, items, inductionHypothesis, items, substitute, substitute, List.flatMap_append]
    rfl
  | both command two left right leftItems rightItems =>
    rw [replace, items, leftItems, rightItems, items, substitute, substitute, substitute,
      List.flatMap_append, List.flatMap_append]
    rfl

/-- An expression in which another stands for a name means what it means where the name means what
the other does. -/
theorem meaning_replace (names : Symbol → Meaning) (name : Symbol) (value form : Form) :
    (form.replace caseSensitive name value).meaning interpretation names =
      form.meaning interpretation
        (bound caseSensitive name (value.meaning interpretation names) names) := by
  induction form with
  | leaf item alone =>
    cases item with
    | symbol other =>
      simp only [replace, meaning, Interpretation.item, bound]
      split <;> rfl
    | _ => rfl
  | single command one operand inductionHypothesis =>
    rw [replace, meaning, inductionHypothesis, meaning]
  | both command two left right leftMeaning rightMeaning =>
    rw [replace, meaning, leftMeaning, rightMeaning, meaning]

/-- No operator is in an expression in which another stands for a name, unless it is in one of the
two. -/
theorem mem_items_replace {command : Command} {name : Symbol} {value form : Form}
    (among : .command command ∈ (form.replace caseSensitive name value).items) :
    .command command ∈ form.items ∨ .command command ∈ value.items := by
  rw [items_replace, substitute, List.mem_flatMap] at among
  obtain ⟨item, listed, here⟩ := among
  split at here
  · split at here
    · exact .inr here
    · cases List.mem_singleton.mp here
  · exact .inl (List.mem_singleton.mp here ▸ listed)

/-- A binding is an equation with nothing but a name on its left. -/
theorem binding?_eq_some {form value : Form} {name : Symbol} :
    form.binding? = some (name, value) ↔
      form = .both .equation rfl (.leaf (.symbol name) rfl) value := by
  constructor
  · intro found
    unfold binding? at found
    split at found
    · obtain ⟨rfl, rfl⟩ := Prod.mk.inj (Option.some.inj found)
      rfl
    · cases found
  · rintro rfl
    rfl

/-- What is separated into a name and a value is a binding. -/
theorem exists_binding?_of_split? {form : Form} {name : Symbol} {value : List Value}
    (separated : form.split? = some (.equation, [[.symbol name], value])) :
    ∃ bound, form.binding? = some (name, bound) := by
  cases form with
  | leaf => cases separated
  | single => simp [split?] at separated
  | both command two left right =>
    obtain ⟨rfl, sides⟩ := Prod.mk.inj (Option.some.inj separated)
    have lone : left.items = (Form.leaf (.symbol name) rfl).items := (List.cons.inj sides).1
    exact ⟨right, binding?_eq_some.mpr (items_injective lone ▸ rfl)⟩

/-- A binding is carried out on the items as it is on the forms. -/
theorem bind_items (body right : Form) :
    bind body.items right.items caseSensitive =
      match right.binding? with
      | some (name, value) => .ok (body.replace caseSensitive name value).items
      | none => .error .badArgumentValue := by
  rw [bind, splitLast?_items]
  cases found : right.binding? with
  | none =>
    split
    · rename_i separated
      obtain ⟨_, other⟩ := exists_binding?_of_split? separated
      cases found.symm.trans other
    · rfl
  | some binding =>
    obtain ⟨name, value⟩ := binding
    obtain rfl := binding?_eq_some.mp found
    exact congrArg Except.ok (items_replace caseSensitive name value body).symm

/-- An operator that does not bind is put behind its operands. -/
theorem bindNode_of_ne {command : Command} (noBinding : command ≠ .whereBound)
    (operands : List (List Value)) :
    bindNode caseSensitive command operands = .ok (operands.flatten ++ [.command command]) := by
  unfold bindNode
  split
  · exact absurd rfl noBinding
  · rfl

/-- To fold the items with their bindings carried out is to carry the bindings out on the form. -/
theorem fold_bindNode (form : Form) :
    form.fold (fun leaf => .ok [leaf]) (bindNode caseSensitive) =
      match form.expand caseSensitive with
      | some expanded => .ok expanded.items
      | none => .error .badArgumentValue := by
  induction form with
  | leaf => rfl
  | single command one operand inductionHypothesis =>
    have noBinding : command ≠ .whereBound := fun same => by cases same ▸ one
    rw [fold, inductionHypothesis, expand]
    cases operand.expand caseSensitive with
    | none => rfl
    | some expanded => simp [bindNode_of_ne caseSensitive noBinding, Outcome.ok_bind, items]
  | both command two left right leftFold rightFold =>
    rw [fold, leftFold, rightFold, expand]
    cases left.expand caseSensitive with
    | none => rfl
    | some left =>
      cases right.expand caseSensitive with
      | none => rfl
      | some right =>
        by_cases isBinding : command = .whereBound
        · subst isBinding
          refine (bind_items caseSensitive left right).trans ?_
          cases found : right.binding? with
          | none => simp [found]
          | some => simp [found]
        · simp [bindNode_of_ne caseSensitive isBinding, isBinding, Outcome.ok_bind,
            items]

/-- An operator with two operands has its bindings carried out if both of these have, and, where it
binds, the second one is a binding. -/
theorem expand_both {command : Command} {two : command.operands = 2} {left right expanded : Form} :
    (Form.both command two left right).expand caseSensitive = some expanded ↔
      ∃ body other, left.expand caseSensitive = some body ∧
        right.expand caseSensitive = some other ∧
        ((command = .whereBound ∧ ∃ name value, other.binding? = some (name, value) ∧
            expanded = body.replace caseSensitive name value) ∨
          (command ≠ .whereBound ∧ expanded = .both command two body other)) := by
  rw [expand]
  by_cases isBinding : command = .whereBound <;>
    simp [isBinding, Option.bind_eq_some_iff, @eq_comm _ expanded]

/-- No operator of an expression with its bindings carried out binds. -/
theorem whereBound_notMem_expand {form expanded : Form}
    (done : form.expand caseSensitive = some expanded) :
    .command .whereBound ∉ expanded.items := by
  induction form generalizing expanded with
  | leaf item alone =>
    obtain rfl := Option.some.inj done
    intro among
    cases List.mem_singleton.mp among
    cases alone
  | single command one operand inductionHypothesis =>
    obtain ⟨inner, innerDone, same⟩ := Option.bind_eq_some_iff.mp done
    obtain rfl := Option.some.inj same
    intro among
    rcases List.mem_append.mp among with inside | last
    · exact inductionHypothesis innerDone inside
    · cases List.mem_singleton.mp last
      cases one
  | both command two left right leftFree rightFree =>
    obtain ⟨body, other, leftDone, rightDone, binds | ⟨noBinding, rfl⟩⟩ :=
      (expand_both caseSensitive).mp done
    · obtain ⟨rfl, name, value, found, rfl⟩ := binds
      obtain rfl := binding?_eq_some.mp found
      intro among
      rcases mem_items_replace caseSensitive among with inBody | inValue
      · exact leftFree leftDone inBody
      · exact rightFree rightDone (by simp [items, inValue])
    · intro among
      rcases List.mem_append.mp among with inside | last
      · rcases List.mem_append.mp inside with inLeft | inRight
        · exact leftFree leftDone inLeft
        · exact rightFree rightDone inRight
      · cases List.mem_singleton.mp last
        exact noBinding rfl

/-- The bindings of an expression cannot be carried out exactly if, with its own bindings carried
out, something that stands for a binding is none. -/
theorem expand_eq_none (form : Form) :
    form.expand caseSensitive = none ↔ ∃ right ∈ form.bindings,
      ∀ other, right.expand caseSensitive = some other → other.binding? = none := by
  induction form with
  | leaf => simp [expand, bindings]
  | single command one operand inductionHypothesis =>
    rw [bindings, ← inductionHypothesis, expand]
    cases operand.expand caseSensitive <;> simp
  | both command two left right leftNone rightNone =>
    simp only [bindings, List.mem_append, or_and_right, exists_or, ← leftNone, ← rightNone, expand]
    cases left.expand caseSensitive with
    | none => simp
    | some body =>
      cases rightDone : right.expand caseSensitive with
      | none => simp
      | some other =>
        by_cases isBinding : command = .whereBound
        · cases found : other.binding? <;> simp [isBinding, rightDone, found]
        · simp [isBinding]

/-- An expression means with its bindings what it means after these have been carried out. -/
theorem lets_eq (form : Form) (names : Symbol → Meaning) :
    form.lets interpretation caseSensitive names =
      (form.expand caseSensitive).map (meaning interpretation names) := by
  induction form, names using lets.induct interpretation caseSensitive with
  | case1 => rfl
  | case2 command one operand names inductionHypothesis =>
    rw [lets, inductionHypothesis, expand]
    cases operand.expand caseSensitive <;> rfl
  | case3 two body equation name alone value names valueLets bodyLets =>
    simp only [lets, valueLets, expand, bodyLets]
    cases body.expand caseSensitive with
    | none => cases value.expand caseSensitive <;> rfl
    | some body =>
      cases value.expand caseSensitive with
      | none => rfl
      | some bound => simp [binding?, meaning_replace]
  | case4 two body other names noEquation bodyLets =>
    rw [lets, expand]
    · simp only [bodyLets]
      cases body.expand caseSensitive with
      | none => cases other.expand caseSensitive <;> simp
      | some body =>
        cases other.expand caseSensitive with
        | none => rfl
        | some right => cases found : right.binding? <;> simp [found, meaning_replace]
    · exact noEquation
  | case5 command two left right names noEquation noBinding leftLets rightLets =>
    rw [lets, leftLets, rightLets, expand]
    · cases left.expand caseSensitive with
      | none => rfl
      | some left =>
        cases right.expand caseSensitive with
        | none => rfl
        | some right => simp [show command ≠ .whereBound from noBinding, meaning]
    · exact noEquation
    · exact noBinding

/-! ## Bindings carried out on items -/

/-- An expression without bindings is left as it is. -/
theorem expand_of_whereFree {form : Form} (whereFree : .command .whereBound ∉ form.items) :
    form.expand caseSensitive = some form := by
  induction form with
  | leaf => rfl
  | single command one operand inductionHypothesis =>
    have inside : .command .whereBound ∉ operand.items :=
      fun among => whereFree (List.mem_append_left _ among)
    rw [expand, inductionHypothesis inside]
    rfl
  | both command two left right leftExpand rightExpand =>
    simp only [items, List.mem_append, List.mem_singleton, not_or] at whereFree
    obtain ⟨⟨inLeft, inRight⟩, other⟩ := whereFree
    have noBinding : command ≠ .whereBound := fun same => other (same ▸ rfl)
    rw [expand, leftExpand inLeft, rightExpand inRight]
    simp [noBinding]

/-- The bindings of an expression are carried out on its items as they are on its form. -/
theorem expandBindings_items (form : Form) :
    expandBindings form.items caseSensitive =
      match form.expand caseSensitive with
      | some expanded => .ok expanded.items
      | none => .error .badArgumentValue := by
  by_cases whereFree : .command .whereBound ∉ form.items
  · rw [expandBindings_of_whereFree whereFree, expand_of_whereFree caseSensitive whereFree]
  · have found : form.items.any (· == .command .whereBound) = true :=
      any_whereBound.mpr (not_not.mp whereFree)
    rw [expandBindings, if_pos found, fold_items, fold_bindNode]
    cases form.expand caseSensitive <;> rfl

/-- With its bindings carried out, an expression is an equation with nothing but a name on its left.
-/
def Binds (form : Form) : Prop :=
  ∃ (name : Symbol) (value : Form),
    expandBindings form.items caseSensitive =
      .ok (.symbol name :: value.items ++ [.command .equation])

/-- What an expression is with its bindings carried out says whether it is a binding. -/
theorem not_binds {form : Form} :
    ¬ form.Binds caseSensitive ↔
      ∀ other, form.expand caseSensitive = some other → other.binding? = none := by
  constructor
  · intro noBinding other done
    cases found : other.binding? with
    | none => rfl
    | some binding =>
      obtain ⟨name, value⟩ := binding
      obtain rfl := binding?_eq_some.mp found
      refine absurd ⟨name, value, ?_⟩ noBinding
      rw [expandBindings_items, done]
      rfl
  · rintro none ⟨name, value, done⟩
    rw [expandBindings_items] at done
    cases expanded : form.expand caseSensitive with
    | none => rw [expanded] at done; cases done
    | some other =>
      rw [expanded] at done
      have same : other = .both .equation rfl (.leaf (.symbol name) rfl) value :=
        items_injective (Except.ok.inj done)
      cases (none other expanded).symm.trans (binding?_eq_some.mpr same)

/-- The bindings of a row of expressions cannot be carried out exactly if those of one of them
cannot. -/
theorem expandBindings_eq_error (forms : List Form) :
    expandBindings (forms.flatMap items) caseSensitive = .error .badArgumentValue ↔
      ∃ form ∈ forms, form.expand caseSensitive = none := by
  by_cases whereFree : .command .whereBound ∉ forms.flatMap items
  · rw [expandBindings_of_whereFree whereFree]
    refine ⟨nofun, ?_⟩
    rintro ⟨form, among, none⟩
    have inside : .command .whereBound ∉ form.items :=
      fun listed => whereFree (List.mem_flatMap.mpr ⟨form, among, listed⟩)
    cases none.symm.trans (expand_of_whereFree caseSensitive inside)
  · have found : (forms.flatMap items).any (· == .command .whereBound) = true :=
      any_whereBound.mpr (not_not.mp whereFree)
    rw [expandBindings, if_pos found, fold_flatMap]
    constructor
    · intro failed
      rcases Outcome.bind_eq_error.mp failed with folding | ⟨results, _, rest⟩
      · obtain ⟨form, among, fails⟩ := Outcome.exists_of_mapM_eq_error folding
        rw [fold_bindNode] at fails
        refine ⟨form, among, ?_⟩
        cases done : form.expand caseSensitive with
        | none => rfl
        | some => rw [done] at fails; cases fails
      · split at rest <;> cases rest
    · rintro ⟨form, among, none⟩
      cases folding : forms.mapM (fold (fun leaf => .ok [leaf]) (bindNode caseSensitive)) with
      | error fault =>
        obtain ⟨other, _, fails⟩ := Outcome.exists_of_mapM_eq_error folding
        rw [fold_bindNode] at fails
        cases done : other.expand caseSensitive with
        | none =>
          rw [done] at fails
          obtain rfl := Except.error.inj fails
          rfl
        | some => rw [done] at fails; cases fails
      | ok results =>
        obtain ⟨length, each⟩ := List.forall₂_iff_get.mp (Outcome.forall₂_of_mapM folding)
        obtain ⟨index, inside, rfl⟩ := List.mem_iff_getElem.mp among
        have stands := each index inside (length ▸ inside)
        rw [List.get_eq_getElem, fold_bindNode, none] at stands
        cases stands

end Form

/-- To carry bindings out is to substitute. Items that fold are a row of expressions. Their bindings
cannot be carried out exactly if one of the things that stand for a binding is none, with its own
bindings carried out. If they are a single expression, they can be carried out otherwise. Then what
is left has no bindings, is a single expression, and, whatever the operators and the names mean, has
the value that the expression has with its bindings. -/
theorem expandBindings_substitutes {items : List Value} {results : List Unit}
    (folds : fold (fun _ => .ok ()) (fun _ _ => .ok ()) items = .ok results)
    (caseSensitive : Bool) :
    ∃ forms : List Form, forms.flatMap Form.items = items ∧ forms.length = results.length ∧
      (expandBindings items caseSensitive = .error .badArgumentValue ↔
        ∃ form ∈ forms, ∃ right ∈ form.bindings, ¬ right.Binds caseSensitive) ∧
      ∀ form, forms = [form] →
        expandBindings items caseSensitive = .error .badArgumentValue ∨
        ∃ expanded, expandBindings items caseSensitive = .ok expanded ∧
          .command .whereBound ∉ expanded ∧ IsSingle expanded ∧
          ∀ (Meaning : Type) (interpretation : Interpretation Meaning) (names : Symbol → Meaning),
            ∃ meaning, form.lets interpretation caseSensitive names = some meaning ∧
              interpretation.value names expanded = .ok [meaning] := by
  obtain ⟨forms, rfl, length⟩ := Form.exists_forms folds
  refine ⟨forms, rfl, length, ?_, ?_⟩
  · simp only [Form.expandBindings_eq_error, Form.expand_eq_none, Form.not_binds]
  · rintro form rfl
    rw [List.flatMap_singleton, Form.expandBindings_items]
    cases done : form.expand caseSensitive with
    | none => exact .inl rfl
    | some expanded =>
      refine .inr ⟨_, rfl, Form.whereBound_notMem_expand caseSensitive done,
        expanded.isSingle_items, fun Meaning interpretation names => ?_⟩
      refine ⟨expanded.meaning interpretation names, ?_, expanded.value_items interpretation names⟩
      rw [Form.lets_eq, done]
      rfl

/-- In `X+Y|y=X²|x=3` the value of `Y` is that of `X²`, and in both of them `X` is 3, where lower and
upper case are the same. -/
theorem expandBindings_substitutes_chain :
    let three : Value := .real (.ofInt 3)
    let first : List Value := [.symbol ⟨"y"⟩, .symbol ⟨"X"⟩, .command .square, .command .equation]
    let second : List Value := [.symbol ⟨"x"⟩, three, .command .equation]
    let items : List Value := [.symbol ⟨"X"⟩, .symbol ⟨"Y"⟩, .command .add] ++ first ++
      [.command .whereBound] ++ second ++ [.command .whereBound]
    fold (fun _ => .ok ()) (fun _ _ => .ok ()) items = .ok [()] ∧
      ∃ form : Form, form.items = items ∧
        ∀ (Meaning : Type) (interpretation : Interpretation Meaning) (names : Symbol → Meaning),
          ∃ meaning, form.lets interpretation false names = some meaning ∧
            interpretation.value names [three, three, .command .square, .command .add] =
              .ok [meaning] := by
  intro three first second items
  have folds : fold (fun _ => .ok ()) (fun _ _ => .ok ()) items = .ok [()] := rfl
  have computed : expandBindings items false =
      .ok [three, three, .command .square, .command .add] := by
    rw [expandBindings, if_pos (any_whereBound.mpr (by simp [items]))]
    rfl
  obtain ⟨forms, same, length, _, correct⟩ := expandBindings_substitutes folds false
  obtain ⟨form, rfl⟩ := List.length_eq_one_iff.mp length
  refine ⟨folds, form, (List.flatMap_singleton ..).symm.trans same, ?_⟩
  rcases correct form rfl with failed | ⟨expanded, done, _, _, means⟩
  · cases computed.symm.trans failed
  · obtain rfl := Except.ok.inj (computed.symm.trans done)
    exact means

end Calculator.Expression
