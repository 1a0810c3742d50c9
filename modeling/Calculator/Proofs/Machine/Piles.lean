import Calculator.Proofs.Machine.ReadBack
import Calculator.Proofs.Machine.Roots
import Calculator.Proofs.Polynomial.Evaluation
import Mathlib

/-!
# Values on the stack

What a machine with a heap makes of values: they are put on the stack, taken off it by operators and
read from it. Each of these actions leaves the objects that were there before where they are,
however often the heap is collected and grows. A value that is put on the stack is refused only for want of
memory, and a value that is read is what was put there, unless it nests too deep.
-/

namespace Calculator

namespace Encoding

variable {value result : Value}

/-- What is read back is the value. -/
theorem eq_of_readBack (read : readBack value = .ok result) : result = value := by
  unfold readBack at read
  split at read
  · exact (Except.ok.inj read).symm
  · cases read

/-- What is read back does not nest too deep. -/
theorem shallow_of_readBack (read : readBack value = .ok result) :
    value.nesting ≤ deepestLevel := by
  unfold readBack at read
  split at read
  · assumption
  · cases read

/-- What can be decoded is read back. -/
theorem Conforming.readBack (conforming : Conforming value) : readBack value = .ok value :=
  if_pos conforming.shallow

/-- Values that are read back are what they were. -/
theorem eq_of_mapM_readBack {values results : List Value}
    (read : values.mapM Encoding.readBack = .ok results) : results = values := by
  have each := Outcome.forall₂_of_mapM read
  exact (List.forall₂_eq_eq_eq ▸ each.imp fun _ _ same => (eq_of_readBack same).symm :
    values = results).symm

/-- Values that can be decoded are read back. -/
theorem mapM_readBack {values : List Value} (conforming : ∀ value ∈ values, Conforming value) :
    values.mapM Encoding.readBack = .ok values :=
  Outcome.mapM_of_forall₂
    (List.forall₂_same.mpr fun value among => (conforming value among).readBack)

end Encoding

namespace Machine

/-- The heap takes nothing in only for want of memory. -/
theorem fault_of_storage {heap next : Heap} {roots : List Handle} {object : List UInt8}
    {fault : Fault} (answer : Storage.place heap roots object =
      ((.error fault : Outcome Handle), next)) : fault = .outOfMemory := by
  simp only [Storage.place] at answer
  split at answer
  · cases answer
  · obtain ⟨outcome, -⟩ := Prod.mk.inj answer
    exact (Except.error.inj outcome).symm

section Actions

variable {Store Reference : Type} [Storage Store Reference] {machine : Machine Store Reference}

/-- The value that is taken off the stack is that of the uppermost level. -/
theorem enact_pop {reference : Reference} {levels : List Reference}
    (stack : machine.stack = reference :: levels) :
    enact pop machine =
      match machine.valueOf reference with
      | .ok value => (.ok value, { machine with stack := levels })
      | .error fault => (.error fault, machine) := by
  have read := enact_top stack
  unfold pop
  cases valued : machine.valueOf reference with
  | error fault =>
    rw [valued] at read
    exact enact_bind_error read _
  | ok value =>
    rw [valued] at read
    have left : machine.stack.drop 1 = levels := by rw [stack]; rfl
    rw [enact_bind_ok read, enact_get_bind, left]
    rfl

/-- An operator puts what it computes of the operands in their place. -/
theorem enact_operate {command : Command} {operands : List Value}
    (read : enact (arguments command.arity) machine = (.ok operands, machine)) :
    enact (operate command) machine = enact (do
      let result ← require
        (Arithmetic.ofOperands command operands machine.settings.toPreferences)
      drop command.arity
      push result) machine := by
  unfold operate
  refine ((enact_bind_ok read _).trans (enact_preferences_bind _ _)).trans ?_
  rcases operands with _ | ⟨x, _ | ⟨y, _ | _⟩⟩ <;> rfl

end Actions

/-- What a machine is after well-formed values have been put on its stack: their encodings are on
top of the levels it had, all objects of the machine are still there, and nothing else has
changed. -/
structure Piled (machine : Machine) (values : List Value) (after : Machine) : Prop where
  rest : after = { machine with storage := after.storage, stack := after.stack }
  levels : ∃ handles, after.stack = handles ++ machine.stack ∧
    List.Forall₂ (fun handle value => value.WellFormed ∧
      after.heap.get? handle = some (Encoding.encode value)) handles values
  kept : ∀ root ∈ machine.roots, ∀ object, machine.heap.get? root = some object →
    after.heap.get? root = some object
  sound : after.heap.Sound
  limit : after.heap.limit = machine.heap.limit

/-- What comes of an action that is to put values on the stack: they are there, or it has failed
with an excuse. -/
inductive Piles (machine : Machine) (values : List Value) (Excuse : Fault → Prop) :
    Outcome Unit × Machine → Prop
  | done {after} (piled : Piled machine values after) : Piles machine values Excuse (.ok (), after)
  | failed {fault after} (excuse : Excuse fault) : Piles machine values Excuse (.error fault, after)

variable {machine after : Machine} {values : List Value} {value : Value}

/-- A weaker excuse may do. -/
theorem Piles.imp {Excuse Weaker : Fault → Prop} {answer : Outcome Unit × Machine}
    (piles : Piles machine values Excuse answer) (weakens : ∀ fault, Excuse fault → Weaker fault) :
    Piles machine values Weaker answer := by
  cases piles with
  | done piled => exact .done piled
  | failed excuse => exact .failed (weakens _ excuse)

/-- At first there are no values. -/
theorem piled_nil (sound : machine.heap.Sound) : Piled machine [] machine where
  rest := rfl
  levels := ⟨[], rfl, .nil⟩
  kept _ _ _ held := held
  sound := sound
  limit := rfl

/-- The roots of the machine are still roots. -/
theorem Piled.roots (piled : Piled machine values after) {root : Handle}
    (among : root ∈ machine.roots) : root ∈ after.roots := by
  obtain ⟨handles, stack, -⟩ := piled.levels
  rw [piled.rest]
  rcases mem_roots.mp among with level | retained | held
  · exact mem_roots.mpr (.inl (stack ▸ List.mem_append_right _ level))
  · exact mem_roots.mpr (.inr (.inl retained))
  · exact mem_roots.mpr (.inr (.inr held))

/-- An encoding that the heap takes in is the object of a further level. -/
theorem Piled.placed (piled : Piled machine values after) (formed : value.WellFormed)
    {handle : Handle} {next : Heap}
    (answer : Storage.place after.storage after.roots (Encoding.encode value) =
      ((.ok handle : Outcome Handle), next)) (few : next.slots.size ≤ UInt32.size) :
    Piled machine (value :: values)
      { after with storage := next, stack := handle :: after.stack } := by
  obtain ⟨found, placed, same⟩ := Heap.place?_of_storage answer
  obtain ⟨sound, kept, held⟩ := Heap.place?_spec placed piled.sound few
  obtain ⟨handles, stack, objects⟩ := piled.levels
  have among : List.Forall₂ (fun level value => level ∈ handles ∧ value.WellFormed ∧
      after.heap.get? level = some (Encoding.encode value)) handles values :=
    (List.forall₂_and_left _ _).mpr ⟨fun _ => id, objects⟩
  exact {
    rest := by rw [piled.rest]
    levels := ⟨handle :: handles, congrArg (handle :: ·) stack,
      .cons ⟨formed, held handle (same handle rfl)⟩ (among.imp fun level _ ⟨inside, other, valid⟩ =>
        ⟨other, kept level (mem_roots.mpr (.inl (stack ▸ List.mem_append_left _ inside))) _ valid⟩)⟩
    kept := fun root among object valid =>
      kept root (piled.roots among) object (piled.kept root among object valid)
    sound := sound
    limit := by
      have same := Heap.limit_place? after.storage after.roots (Encoding.encode value)
      rw [placed] at same
      exact same.trans piled.limit }

/-- To put a value on top puts it there, or fails for want of memory. -/
theorem Piled.push (piled : Piled machine values after) (formed : value.WellFormed)
    (few : (enact (push value) after).2.heap.slots.size ≤ UInt32.size) :
    Piles machine (value :: values) (fun fault => fault = .outOfMemory ∨
      ¬ Encoding.Addressable value) (enact (push value) after) := by
  rcases made : enact (make value) after with ⟨outcome, between⟩
  cases outcome with
  | ok handle =>
    have answer : enact (Machine.push value) after =
        (.ok (), { between with stack := handle :: between.stack }) := enact_bind_ok made _
    rw [answer] at few ⊢
    obtain ⟨next, placed, rfl⟩ := enact_make_ok made
    exact .done (piled.placed formed placed few)
  | error fault =>
    have answer : enact (Machine.push value) after = (.error fault, between) :=
      enact_bind_error made _
    rw [answer]
    by_cases addressable : Encoding.Addressable value
    · rw [Encoding.make_eq_place value addressable, Link.enact_place] at made
      obtain ⟨refused, -⟩ := Prod.mk.inj made
      exact .failed (.inl (fault_of_storage (Prod.ext refused rfl)))
    · exact .failed (.inr addressable)

/-- What has been put on top is there. -/
theorem Piled.pushed {next : Machine} (piled : Piled machine values after)
    (formed : value.WellFormed) (done : enact (Machine.push value) after = (.ok (), next))
    (few : next.heap.slots.size ≤ UInt32.size) : Piled machine (value :: values) next := by
  have piles := piled.push formed (by rw [done]; exact few)
  rw [done] at piles
  cases piles with
  | done piled => exact piled

/-- A value that can be decoded is not too long to be put on top. -/
theorem Piled.push_conforming (piled : Piled machine values after)
    (conforming : Encoding.Conforming value)
    (few : (enact (Machine.push value) after).2.heap.slots.size ≤ UInt32.size) :
    Piles machine (value :: values) (· = .outOfMemory) (enact (Machine.push value) after) :=
  (piled.push conforming.formed few).imp fun _ excuse =>
    excuse.resolve_right (not_not.mpr conforming.addressable)

/-- Levels may be taken away again. -/
theorem Piled.drop (piled : Piled machine values after) {count : ℕ}
    (enough : count ≤ values.length) :
    Piled machine (values.drop count) { after with stack := after.stack.drop count } := by
  obtain ⟨handles, stack, objects⟩ := piled.levels
  have fits : count ≤ handles.length := objects.length_eq ▸ enough
  exact {
    rest := by rw [piled.rest]
    levels := ⟨handles.drop count, by rw [stack, List.drop_append_of_le_length fits],
      List.forall₂_drop count objects⟩
    kept := piled.kept
    sound := piled.sound
    limit := piled.limit }

/-- There are as many levels as there were, and one for each value. -/
theorem Piled.length_stack (piled : Piled machine values after) :
    after.stack.length = values.length + machine.stack.length := by
  obtain ⟨handles, stack, objects⟩ := piled.levels
  rw [stack, List.length_append, objects.length_eq]

section Word

variable (word : machine.heap.limit < 2 ^ 64)
include word

/-- The object of a level is short enough for memory. -/
theorem Piled.addressable (piled : Piled machine values after) {handle : Handle}
    (held : after.heap.get? handle = some (Encoding.encode value)) : Encoding.Addressable value :=
  (piled.sound.length_le_limit held).trans_lt (piled.limit ▸ word)

/-- A level has the value that was put there, unless this nests too deep. -/
theorem Piled.valueOf (piled : Piled machine values after) {handle : Handle}
    (formed : value.WellFormed) (held : after.heap.get? handle = some (Encoding.encode value)) :
    after.valueOf handle = Encoding.readBack value :=
  (WatchedHeap.valueOf_eq_reading held).trans
    (Encoding.reading_eq_readBack formed (piled.addressable word held))

/-- The operands of an operator are the topmost values, the deepest first. -/
theorem Piled.arguments (piled : Piled machine values after) {count : ℕ}
    (enough : count ≤ values.length) :
    enact (arguments count) after =
      ((values.take count).reverse.mapM Encoding.readBack, after) := by
  have required := enact_requireLevels count after
  rw [if_neg (by rw [piled.length_stack]; omega)] at required
  obtain ⟨handles, stack, objects⟩ := piled.levels
  have fits : count ≤ handles.length := objects.length_eq ▸ enough
  have read : List.Forall₂ (fun handle value => after.valueOf handle = Encoding.readBack value)
      handles values :=
    objects.imp fun _ _ both => piled.valueOf word both.1 both.2
  unfold Machine.arguments
  rw [enact_bind_ok required, enact_get_bind, Link.enact_mapM_value, stack,
    List.take_append_of_le_length fits]
  exact congrArg (·, after)
    (Outcome.mapM_eq_mapM (List.rel_reverse (List.forall₂_take count read)))

/-- The uppermost value is taken off the stack, unless it nests too deep. -/
theorem Piled.pop (piled : Piled machine (value :: values) after) :
    enact pop after =
      match Encoding.readBack value with
      | .ok value => (.ok value, { after with stack := after.stack.drop 1 })
      | .error fault => (.error fault, after) := by
  obtain ⟨handles, stack, objects⟩ := piled.levels
  cases objects with
  | @cons handle _ handles _ level _ =>
    rw [enact_pop stack, piled.valueOf word level.1 level.2, stack]
    rfl

/-- What has been taken off the stack is the uppermost value, and one that can be decoded. -/
theorem Piled.popped (piled : Piled machine (value :: values) after) {result : Value}
    {next : Machine} (answer : enact Machine.pop after = (.ok result, next)) :
    result = value ∧ Encoding.Conforming value ∧ Piled machine values next := by
  obtain ⟨handles, -, objects⟩ := piled.levels
  rw [piled.pop word] at answer
  cases objects with
  | cons level _ =>
    split at answer
    · rename_i given read
      obtain ⟨same, rfl⟩ := Prod.mk.inj answer
      obtain rfl := Except.ok.inj same
      obtain rfl := Encoding.eq_of_readBack read
      exact ⟨rfl, ⟨level.1, Encoding.shallow_of_readBack read, piled.addressable word level.2⟩,
        piled.drop (Nat.succ_le_succ (Nat.zero_le _))⟩
    · cases answer

/-- An operator puts what it computes of the topmost values in their place, unless one of these
nests too deep. -/
theorem Piled.operate (piled : Piled machine values after) {command : Command}
    (enough : command.arity ≤ values.length) :
    enact (operate command) after =
      match (values.take command.arity).reverse.mapM Encoding.readBack >>= fun operands =>
        Arithmetic.ofOperands command operands machine.settings.toPreferences with
      | .ok result => enact (Machine.push result)
          { after with stack := after.stack.drop command.arity }
      | .error fault => (.error fault, after) := by
  have read := piled.arguments word enough
  have preferences : after.settings.toPreferences = machine.settings.toPreferences := by
    rw [piled.rest]
  cases given : (values.take command.arity).reverse.mapM Encoding.readBack with
  | error fault =>
    rw [given] at read
    exact enact_bind_error read _
  | ok operands =>
    rw [given] at read
    rw [enact_operate read, preferences, Outcome.ok_bind]
    cases Arithmetic.ofOperands command operands machine.settings.toPreferences with
    | error fault => rfl
    | ok result =>
      have levels : command.arity ≤ after.stack.length := by
        rw [piled.length_stack]
        omega
      rw [enact_bind_ok (rfl : enact (require (.ok result)) after = (.ok result, after)),
        enact_bind_ok (enact_drop levels)]

end Word

/-! ## Variables -/

/-- What a variable refers to does not change. -/
theorem Piled.reference? (piled : Piled machine values after) (name : Symbol) :
    after.reference? name = machine.reference? name := by
  rw [piled.rest]
  rfl

/-- A name that stands for no subdirectory still does not. -/
theorem Piled.isDirectory (piled : Piled machine values after) (name : Symbol) :
    after.isDirectory name = machine.isDirectory name := by
  rw [piled.rest]
  rfl

end Machine

end Calculator
