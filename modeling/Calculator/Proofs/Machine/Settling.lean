import Calculator.Proofs.Expression.Settled
import Calculator.Proofs.Expression.Substitution
import Calculator.Proofs.Machine.Piles
import Calculator.Proofs.Machine.Shortcut
import Calculator.Proofs.Polynomial.Closure
import Mathlib

/-!
# Expressions in names that stand for nothing

Where none of its names stands for anything, no expression takes the shortcut through polynomials:
its items are executed one after the other. Every name is put on the stack as an expression of
itself, and every operator computes what it can of the values on top. What is then on the stack is
settled. To execute the items of a settled value puts it there again, as long as there is memory.
-/

namespace Calculator

open Expression (Form Rooted expandBindings operandsOf)
open Value (Plain Remains Settled)

/-- An operator takes as many levels as it takes operands. -/
theorem Command.operates_of_operands {command : Command} (takes : 0 < command.operands) :
    command.operates = true ∧ command.arity = command.operands := by
  cases command <;> first | exact ⟨rfl, rfl⟩ | cases takes

namespace Machine

section Names

variable {Store Reference : Type} {machine : Machine Store Reference} {name : Symbol}

/-- Whether a name stands neither for a variable nor for a subdirectory. -/
def Unbound (machine : Machine Store Reference) (name : Symbol) : Prop :=
  machine.reference? name = none ∧ machine.isDirectory name = false

variable [Storage Store Reference] (deeper : Deeper Store Reference)

/-- A name that stands for nothing has no value. -/
theorem Unbound.lookup? (unbound : machine.Unbound name) : machine.lookup? name = none := by
  rw [Machine.lookup?, unbound.1]

/-- A name that stands for nothing is put on the stack as an expression. -/
theorem enact_execute_unbound (unbound : machine.Unbound name) :
    enact (execute deeper (.symbol name)) machine =
      enact (push (.expression [.symbol name])) machine := by
  have stays : enact (enter name) machine = (.ok false, machine) := by
    unfold enter
    rw [enact_get_bind, unbound.2]
    rfl
  have fetched := enact_fetch? name machine
  rw [unbound.lookup?] at fetched
  unfold execute resolve
  rw [enact_bind_ok stays]
  exact enact_bind_ok fetched _

/-- A plain value is put on the stack. -/
theorem execute_plain {value : Value} (plain : Plain value) :
    execute deeper value = push value := by
  cases plain <;> rfl

/-- An operator operates on the stack. -/
theorem execute_operator {command : Command} (takes : 0 < command.operands) :
    execute deeper (.command command) = operate command :=
  perform_operates (Command.operates_of_operands takes).1

/-- To execute a single item is to execute it. -/
theorem executeAll_single (item : Value) : executeAll deeper [item] = execute deeper item := by
  simp [executeAll]

/-- Two rows are executed one after the other. -/
theorem executeAll_append (first second : List Value) :
    executeAll deeper (first ++ second) =
      executeAll deeper first >>= fun _ => executeAll deeper second :=
  List.forM_append

/-- Where a name stands for nothing, names do not all stand for numbers. -/
theorem numbers?_of_unbound {names : List Symbol} (some : names ≠ [])
    (unbound : ∀ name ∈ names, machine.Unbound name) : machine.numbers? names = none := by
  cases names with
  | nil => exact absurd rfl some
  | cons name names =>
    rw [numbers?, List.mapM_cons, (unbound name List.mem_cons_self).lookup?]
    rfl

/-- An expression whose names stand for nothing does not take the shortcut. -/
theorem enact_inNumbers?_unbound {items : List Value} (plain : ∀ p, .polynomial p ∉ items)
    (unbound : ∀ name, .symbol name ∈ items → machine.Unbound name) :
    enact (inNumbers? items) machine = (.ok none, machine) := by
  unfold inNumbers?
  rw [enact_bind_ok (rfl : enact arithmetic machine =
      (.ok (Arithmetic.operations machine.settings.toPreferences), machine)),
    enact_preferences_bind]
  cases made : Polynomial.ofExpression (Arithmetic.operations machine.settings.toPreferences)
      machine.settings.toPreferences items with
  | error fault => rfl
  | ok p =>
    have names : ∀ name ∈ p.names, machine.Unbound name := fun name among =>
      unbound name (Polynomial.symbol_mem_of_ofExpression plain made name among)
    dsimp only
    split
    · rfl
    · rename_i some
      have read : enact (fetchNumbers? p.names) machine =
          (.ok (machine.numbers? p.names), machine) := rfl
      rw [numbers?_of_unbound (fun none => some (List.isEmpty_iff.mpr none)) names] at read
      exact enact_bind_ok read _

end Names

/-! ## One operator -/

variable {machine after : Machine} {values operands : List Value} {command : Command}
variable {deeper : Deeper Heap Handle}

variable (deeper) in
/-- An operator whose operands are on top puts what it computes of them in their place, unless one
of them nests too deep. -/
theorem Piled.operate_onto (piled : Piled machine (operands.reverse ++ values) after)
    (word : machine.heap.limit < 2 ^ 64) (takes : 0 < command.operands)
    (count : operands.length = command.operands) :
    Piled machine values { after with stack := after.stack.drop command.arity } ∧
      enact (execute deeper (.command command)) after =
        match operands.mapM Encoding.readBack >>= fun given =>
          Arithmetic.ofOperands command given machine.settings.toPreferences with
        | .ok result => enact (Machine.push result)
            { after with stack := after.stack.drop command.arity }
        | .error fault => (.error fault, after) := by
  have length : operands.reverse.length = command.arity := by
    rw [List.length_reverse, count, (Command.operates_of_operands takes).2]
  have enough : command.arity ≤ (operands.reverse ++ values).length := by
    rw [List.length_append, length]
    exact Nat.le_add_right _ _
  have left := piled.drop enough
  have computed := piled.operate word enough
  rw [List.drop_left' length] at left
  rw [List.take_left' length, List.reverse_reverse] at computed
  exact ⟨left, (congrArg (enact · after) (execute_operator deeper takes)).trans computed⟩

/-- An operator that has operated has put a value on the stack that it computes of its operands. -/
theorem Piled.exists_result {next : Machine}
    (piled : Piled machine (operands.reverse ++ values) after)
    (word : machine.heap.limit < 2 ^ 64) (takes : 0 < command.operands)
    (count : operands.length = command.operands)
    (answer : enact (execute deeper (.command command)) after = (.ok (), next))
    (few : next.heap.slots.size ≤ UInt32.size) :
    ∃ result, Arithmetic.ofOperands command operands machine.settings.toPreferences = .ok result ∧
      (result.WellFormed → Piled machine (result :: values) next) := by
  obtain ⟨left, operated⟩ := piled.operate_onto deeper word takes count
  rw [operated] at answer
  split at answer
  · rename_i result done
    obtain ⟨given, read, computed⟩ := Outcome.bind_eq_ok.mp done
    obtain rfl := Encoding.eq_of_mapM_readBack read
    exact ⟨result, computed, fun formed => left.pushed formed answer few⟩
  · cases answer

/-- An operator puts what it computes of its operands on the stack, or fails for want of memory, if
all of these values can be decoded. -/
theorem Piled.puts_result {result : Value}
    (piled : Piled machine (operands.reverse ++ values) after)
    (word : machine.heap.limit < 2 ^ 64) (takes : 0 < command.operands)
    (count : operands.length = command.operands)
    (readable : ∀ operand ∈ operands, Encoding.Conforming operand)
    (computed : Arithmetic.ofOperands command operands machine.settings.toPreferences = .ok result)
    (conforming : Encoding.Conforming result)
    (few : (enact (execute deeper (.command command)) after).2.heap.slots.size ≤ UInt32.size) :
    Piles machine (result :: values) (· = .outOfMemory)
      (enact (execute deeper (.command command)) after) := by
  obtain ⟨left, operated⟩ := piled.operate_onto deeper word takes count
  rw [Encoding.mapM_readBack readable, Outcome.ok_bind, computed] at operated
  rw [operated] at few ⊢
  exact left.push_conforming conforming few

/-! ## Rows of items -/

section Rows

variable (word : machine.heap.limit < 2 ^ 64) (evolves : deeper.Evolves)
include word evolves

/-- Executed one after the other, items in names that stand for nothing leave a settled value. -/
theorem settles_executeAll (form : Form)
    (remains : ∀ item ∈ form.items, Remains machine.Unbound item) {next : Machine}
    (piled : Piled machine values after)
    (answer : enact (executeAll deeper form.items) after = (.ok (), next))
    (few : next.heap.slots.size ≤ UInt32.size) :
    ∃ value, Settled machine.Unbound value ∧ Piled machine (value :: values) next := by
  -- What the first of two rows leaves, before the second one is executed.
  have split {first second : List Value} {after next : Machine}
      (done : enact (executeAll deeper (first ++ second)) after = (.ok (), next))
      (few : next.heap.slots.size ≤ UInt32.size) :
      ∃ between, enact (executeAll deeper first) after = (.ok (), between) ∧
        between.heap.slots.size ≤ UInt32.size ∧
        enact (executeAll deeper second) between = (.ok (), next) := by
    rw [executeAll_append] at done
    rcases head : enact (executeAll deeper first) after with ⟨outcome, between⟩
    cases outcome with
    | error fault =>
      rw [enact_bind_error head] at done
      cases done
    | ok _ =>
      rw [enact_bind_ok head] at done
      have slots := (evolving_executeAll evolves second between).maintains.slots
      rw [done] at slots
      exact ⟨between, rfl, slots.trans few, done⟩
  induction form generalizing values after next with
  | leaf item alone =>
    rw [Form.items, executeAll_single] at answer
    cases remains item List.mem_cons_self with
    | plain plain =>
      rw [execute_plain deeper plain] at answer
      exact ⟨item, .plain plain, piled.pushed plain.wellFormed answer few⟩
    | @name name free =>
      have unbound : after.Unbound name :=
        ⟨(piled.reference? name).trans free.1, (piled.isDirectory name).trans free.2⟩
      rw [enact_execute_unbound deeper unbound] at answer
      have settled : Settled machine.Unbound (.expression [.symbol name]) := .name free
      exact ⟨_, settled, piled.pushed settled.wellFormed answer few⟩
    | operator takes => exact absurd alone takes.ne'
  | single command one operand inductionHypothesis =>
    obtain ⟨inside, operator⟩ := List.forall_mem_append.mp remains
    have takes : 0 < command.operands := one ▸ Nat.one_pos
    obtain ⟨between, first, early, last⟩ := split answer few
    obtain ⟨x, settled, piledOperand⟩ := inductionHypothesis inside piled first early
    rw [executeAll_single] at last
    have above : Piled machine ([x].reverse ++ values) between := piledOperand
    obtain ⟨result, computed, puts⟩ := above.exists_result word takes one.symm last few
    have settledResult := Arithmetic.settled_unary one settled computed
    exact ⟨result, settledResult, puts settledResult.wellFormed⟩
  | both command two left right leftHypothesis rightHypothesis =>
    obtain ⟨inside, operator⟩ := List.forall_mem_append.mp remains
    obtain ⟨insideLeft, insideRight⟩ := List.forall_mem_append.mp inside
    have takes : 0 < command.operands := two ▸ Nat.two_pos
    have noBinding : command ≠ .whereBound := by
      cases List.forall_mem_singleton.mp operator with
      | plain plain => cases plain
      | operator _ noBinding => exact noBinding
    obtain ⟨third, row, late, last⟩ := split answer few
    obtain ⟨second, first, early, middle⟩ := split row late
    obtain ⟨x, settledLeft, piledLeft⟩ := leftHypothesis insideLeft piled first early
    obtain ⟨y, settledRight, piledRight⟩ := rightHypothesis insideRight piledLeft middle late
    rw [executeAll_single] at last
    have above : Piled machine ([x, y].reverse ++ values) third := piledRight
    obtain ⟨result, computed, puts⟩ := above.exists_result word takes two.symm last few
    have settledResult := Arithmetic.settled_binary two noBinding settledLeft settledRight computed
    exact ⟨result, settledResult, puts settledResult.wellFormed⟩

omit word in
/-- If a row of items puts values on the stack, and another one puts more on top of them, then both
together do. -/
theorem piles_executeAll_append {first second : List Value} {lower upper : List Value}
    (few : (enact (executeAll deeper (first ++ second)) after).2.heap.slots.size ≤ UInt32.size)
    (head : (enact (executeAll deeper first) after).2.heap.slots.size ≤ UInt32.size →
      Piles machine lower (· = .outOfMemory) (enact (executeAll deeper first) after))
    (tail : ∀ between, Piled machine lower between →
      (enact (executeAll deeper second) between).2.heap.slots.size ≤ UInt32.size →
        Piles machine upper (· = .outOfMemory) (enact (executeAll deeper second) between)) :
    Piles machine upper (· = .outOfMemory) (enact (executeAll deeper (first ++ second)) after) := by
  rw [executeAll_append] at few ⊢
  rcases answer : enact (executeAll deeper first) after with ⟨outcome, between⟩
  rw [answer] at head
  cases outcome with
  | error fault =>
    rw [enact_bind_error answer] at few ⊢
    cases head few with
    | failed excuse => exact .failed excuse
  | ok _ =>
    rw [enact_bind_ok answer] at few ⊢
    have slots := (evolving_executeAll evolves second between).maintains.slots
    cases head (slots.trans few) with
    | done piled => exact tail between piled few

/-- The items of a settled value put it on the stack once more, or fail for want of memory. -/
theorem piles_executeAll_settled {value : Value} (settled : Settled machine.Unbound value)
    (conforming : Encoding.Conforming value) (piled : Piled machine values after)
    (few : (enact (executeAll deeper value.postfixItems) after).2.heap.slots.size ≤ UInt32.size) :
    Piles machine (value :: values) (· = .outOfMemory)
      (enact (executeAll deeper value.postfixItems) after) := by
  induction settled generalizing values after with
  | plain plain =>
    rw [plain.postfixItems, executeAll_single, execute_plain deeper plain] at few ⊢
    exact piled.push_conforming conforming few
  | @name name free =>
    have unbound : after.Unbound name :=
      ⟨(piled.reference? name).trans free.1, (piled.isDirectory name).trans free.2⟩
    have single : enact (executeAll deeper (Value.expression [.symbol name]).postfixItems) after =
        enact (push (.expression [.symbol name])) after := by
      rw [← enact_execute_unbound deeper unbound, ← executeAll_single deeper (.symbol name)]
      rfl
    rw [single] at few ⊢
    exact piled.push_conforming conforming few
  | @unary command x one operand symbolic inductionHypothesis =>
    have readable := operand.conforming (List.sublist_append_left _ _) conforming
    refine piles_executeAll_append evolves few
      (fun early => inductionHypothesis readable piled early) fun between piledOperand late => ?_
    rw [executeAll_single] at late ⊢
    have above : Piled machine ([x].reverse ++ values) between := piledOperand
    exact above.puts_result word (one ▸ Nat.one_pos) one.symm
      (List.forall_mem_singleton.mpr readable)
      (Arithmetic.unary_held operand symbolic command _) conforming late
  | @binary command x y two noBinding left right held leftHypothesis rightHypothesis =>
    have readableLeft := left.conforming
      ((List.sublist_append_left _ _).trans (List.sublist_append_left _ _)) conforming
    have readableRight := right.conforming
      ((List.sublist_append_right _ _).trans (List.sublist_append_left _ _)) conforming
    refine piles_executeAll_append evolves few
      (fun early => piles_executeAll_append evolves early
        (fun first => leftHypothesis readableLeft piled first)
        fun between piledLeft => rightHypothesis readableRight piledLeft)
      fun between piledRight late => ?_
    rw [executeAll_single] at late ⊢
    have above : Piled machine ([x, y].reverse ++ values) between := piledRight
    refine above.puts_result word (two ▸ Nat.two_pos) two.symm
      ?_ (Arithmetic.binary_held left right held _) conforming late
    exact List.forall_mem_cons.mpr ⟨readableLeft, List.forall_mem_singleton.mpr readableRight⟩

end Rows

/-! ## Expressions -/

/-- The items of an expression in plain values and names of a kind remain when its bindings are
carried out, and are those of an expression. -/
theorem exists_form_of_expandBindings {Free : Symbol → Prop} {items expanded : List Value}
    {caseSensitive : Bool}
    (rooted : Rooted (fun item => Plain item ∨ ∃ name, item = .symbol name ∧ Free name) items)
    (done : expandBindings items caseSensitive = .ok expanded) :
    ∃ form : Form, form.items = expanded ∧ ∀ item ∈ expanded, Remains Free item := by
  have leaves := (rooted.expandBindings done).leaves
  obtain ⟨form, rfl⟩ := Form.exists_form rooted
  rw [Form.expandBindings_items] at done
  split at done
  · rename_i last expands
    obtain rfl := Except.ok.inj done
    refine ⟨last, rfl, fun item among => ?_⟩
    by_cases alone : operandsOf item = 0
    · rcases leaves item among alone with plain | ⟨name, rfl, free⟩
      · exact .plain plain
      · exact .name free
    · cases item with
      | command command =>
        refine .operator (Nat.pos_of_ne_zero alone) ?_
        rintro rfl
        exact Form.whereBound_notMem_expand caseSensitive expands among
      | _ => exact absurd rfl alone
  · cases done

/-- What remains has no polynomials in it, and its names are of the kind. -/
theorem Remains.names {Free : Symbol → Prop} {items : List Value}
    (remains : ∀ item ∈ items, Remains Free item) :
    (∀ p, .polynomial p ∉ items) ∧ ∀ name, .symbol name ∈ items → Free name := by
  refine ⟨fun p among => ?_, fun name among => ?_⟩
  · cases remains _ among with
    | plain plain => cases plain
  · cases remains _ among with
    | plain plain => cases plain
    | name free => exact free

section Expressions

variable {Store Reference : Type} [Storage Store Reference] {state : Machine Store Reference}

/-- An expression in names that stand for nothing is evaluated by executing its items, which must
leave one value. -/
theorem enact_evaluateExpression_unbound (deeper : Deeper Store Reference)
    {items expanded : List Value}
    (done : expandBindings items state.settings.caseSensitive = .ok expanded)
    (remains : ∀ item ∈ expanded, Remains state.Unbound item) :
    enact (evaluateExpression deeper items) state = enact (do
      executeAll deeper expanded
      if (← depth) != state.stack.length + 1 then throw (.malformed .notOneValue)) state := by
  obtain ⟨plain, unbound⟩ := Remains.names remains
  unfold evaluateExpression
  rw [enact_preferences_bind, done,
    enact_bind_ok (rfl : enact (require (.ok expanded)) state = (.ok expanded, state)),
    enact_bind_ok (enact_inNumbers?_unbound plain unbound)]
  rfl

end Expressions

/-- What is evaluated in names that stand for nothing leaves a settled value. -/
theorem settles_evaluateExpression (word : machine.heap.limit < 2 ^ 64) (sound : machine.heap.Sound)
    (evolves : deeper.Evolves) {items : List Value}
    (rooted : Rooted (fun item => Plain item ∨ ∃ name, item = .symbol name ∧ machine.Unbound name)
      items)
    (answer : enact (evaluateExpression deeper items) machine = (.ok (), after))
    (few : after.heap.slots.size ≤ UInt32.size) :
    ∃ value, Settled machine.Unbound value ∧ Piled machine [value] after := by
  cases expands : expandBindings items machine.settings.caseSensitive with
  | error fault =>
    unfold evaluateExpression at answer
    rw [enact_preferences_bind, expands] at answer
    cases answer
  | ok expanded =>
    obtain ⟨form, rfl, remains⟩ := exists_form_of_expandBindings rooted expands
    rw [enact_evaluateExpression_unbound deeper expands remains] at answer
    rcases executed : enact (executeAll deeper form.items) machine with ⟨outcome, next⟩
    cases outcome with
    | error fault =>
      rw [enact_bind_error executed] at answer
      cases answer
    | ok _ =>
      rw [enact_bind_ok executed,
        enact_bind_ok (rfl : enact depth next = (.ok next.stack.length, next))] at answer
      split at answer
      · cases answer
      · obtain rfl : next = after := congrArg Prod.snd answer
        exact settles_executeAll word evolves form remains (piled_nil sound) executed few

/-- To evaluate what is settled puts it on the stack, or fails for want of memory. -/
theorem piles_evaluateAt_settled (word : machine.heap.limit < 2 ^ 64) (sound : machine.heap.Sound)
    (evolves : deeper.Evolves) {value : Value} (settled : Settled machine.Unbound value)
    (conforming : Encoding.Conforming value)
    (few : (enact (evaluateAt deeper value) machine).2.heap.slots.size ≤ UInt32.size) :
    Piles machine [value] (· = .outOfMemory) (enact (evaluateAt deeper value) machine) := by
  rcases settled.plain_or_expression with plain | ⟨items, rfl⟩
  · have pushes : evaluateAt deeper value = push value := by cases plain <;> rfl
    rw [pushes] at few ⊢
    exact (piled_nil sound).push_conforming conforming few
  · have whereFree : .command .whereBound ∉ items := fun among =>
      settled.no_binding (.item among .whole)
    have evaluates : evaluateAt deeper (.expression items) = evaluateExpression deeper items := rfl
    rw [evaluates, enact_evaluateExpression_unbound deeper
      (Expression.expandBindings_of_whereFree whereFree _) settled.remains] at few ⊢
    have piles (few : (enact (executeAll deeper items) machine).2.heap.slots.size ≤ UInt32.size) :
        Piles machine [.expression items] (· = .outOfMemory)
          (enact (executeAll deeper items) machine) :=
      piles_executeAll_settled word evolves settled conforming (piled_nil sound) few
    rcases executed : enact (executeAll deeper items) machine with ⟨outcome, next⟩
    rw [executed] at piles
    cases outcome with
    | error fault =>
      rw [enact_bind_error executed] at few ⊢
      cases piles few with
      | failed excuse => exact .failed excuse
    | ok _ =>
      rw [enact_bind_ok executed,
        enact_bind_ok (rfl : enact depth next = (.ok next.stack.length, next))] at few ⊢
      have slots : next.heap.slots.size ≤ UInt32.size := by
        split at few <;> exact few
      cases piles slots with
      | done piled =>
        have one : next.stack.length = machine.stack.length + 1 := by
          rw [piled.length_stack, List.length_singleton, Nat.add_comm]
        rw [if_neg (by simp [one])]
        exact .done piled

end Machine

end Calculator
