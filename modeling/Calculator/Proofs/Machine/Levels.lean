import Calculator.Proofs.Machine.Piles
import Mathlib

/-!
# Numbers on the stack

What a machine with a heap makes of exact numbers: they are put on the stack, taken off it by
operators, and read from variables. As all values they stay where they are, and as they do not nest,
they are always read back.
-/

namespace Calculator

/-- An exact number is well formed. -/
theorem Value.IsGaussian.wellFormed {value : Value} (exact : value.IsGaussian) :
    value.WellFormed := by
  have formed (x : Real) (exact : x.isExact = true) : (Value.real x).WellFormed := by
    cases x with
    | word value => exact .word value
    | wide value => exact .wide value
    | fraction value => exact .fraction value
    | decimal value => cases exact
  cases exact with
  | real x exact => exact formed x exact
  | complex a b first second => exact .complex _ _ _ (formed a first) (formed b second)

/-- An exact number does not nest too deep to be read back. -/
theorem Encoding.readBack_of_isGaussian {value : Value} (exact : value.IsGaussian) :
    readBack value = .ok value := by
  refine if_pos ?_
  cases exact <;> simp [Value.nesting, deepestLevel]

namespace Machine

/-- The faults that there are for want of memory: none is left, or nothing can hold a value because
the length of its encoding is no word. -/
def Shortage (fault : Fault) : Prop :=
  fault = .outOfMemory ∨ ∃ (value : Value) (machine : Machine),
    ¬ Encoding.Addressable value ∧ (enact (push value) machine).1 = .error fault

/-- What a machine is after exact numbers have been put on its stack: their encodings are on top of
the levels it had, all objects of the machine are still there, and nothing else has changed. -/
structure Stacked (machine : Machine) (values : List Value) (after : Machine) : Prop where
  rest : after = { machine with storage := after.storage, stack := after.stack }
  levels : ∃ handles, after.stack = handles ++ machine.stack ∧
    List.Forall₂ (fun handle value => value.IsGaussian ∧
      after.heap.get? handle = some (Encoding.encode value)) handles values
  kept : ∀ root ∈ machine.roots, ∀ object, machine.heap.get? root = some object →
    after.heap.get? root = some object
  sound : after.heap.Sound
  limit : after.heap.limit = machine.heap.limit

/-- What comes of an action that is to put exact numbers on the stack: they are there, or it has
failed with an excuse. -/
inductive Puts (machine : Machine) (values : List Value) (Excuse : Fault → Prop) :
    Outcome Unit × Machine → Prop
  | done {after} (stacked : Stacked machine values after) : Puts machine values Excuse (.ok (), after)
  | failed {fault after} (excuse : Excuse fault) : Puts machine values Excuse (.error fault, after)

variable {machine after : Machine} {values : List Value}

/-- A weaker excuse may do. -/
theorem Puts.imp {Excuse Weaker : Fault → Prop} {answer : Outcome Unit × Machine}
    (puts : Puts machine values Excuse answer) (weakens : ∀ fault, Excuse fault → Weaker fault) :
    Puts machine values Weaker answer := by
  cases puts with
  | done stacked => exact .done stacked
  | failed excuse => exact .failed (weakens _ excuse)

/-- What puts exact numbers on the stack puts well-formed values there. -/
theorem Stacked.piled (stacked : Stacked machine values after) : Piled machine values after where
  rest := stacked.rest
  levels := by
    obtain ⟨handles, stack, objects⟩ := stacked.levels
    exact ⟨handles, stack, objects.imp fun _ _ ⟨exact, held⟩ => ⟨exact.wellFormed, held⟩⟩
  kept := stacked.kept
  sound := stacked.sound
  limit := stacked.limit

/-- The values that are on the stack are exact numbers. -/
theorem Stacked.exact (stacked : Stacked machine values after) :
    ∀ value ∈ values, value.IsGaussian := by
  obtain ⟨handles, -, objects⟩ := stacked.levels
  exact ((List.forall₂_and_left _ _).mp objects.flip).1

/-- Well-formed values that are exact numbers are exact numbers on the stack. -/
theorem Piled.stacked (piled : Piled machine values after)
    (exact : ∀ value ∈ values, value.IsGaussian) : Stacked machine values after where
  rest := piled.rest
  levels := by
    obtain ⟨handles, stack, objects⟩ := piled.levels
    have both := ((List.forall₂_and_left _ _).mpr ⟨exact, objects.flip⟩).flip
    exact ⟨handles, stack, both.imp fun _ _ ⟨number, _, held⟩ => ⟨number, held⟩⟩
  kept := piled.kept
  sound := piled.sound
  limit := piled.limit

/-- At first there are no numbers. -/
theorem stacked_nil (sound : machine.heap.Sound) : Stacked machine [] machine :=
  (piled_nil sound).stacked (List.forall_mem_nil _)

/-- To put a value on top puts it there, or fails for want of memory. -/
theorem Stacked.push (stacked : Stacked machine values after) {value : Value}
    (exact : value.IsGaussian) (few : (enact (push value) after).2.heap.slots.size ≤ UInt32.size) :
    Puts machine (value :: values) Shortage (enact (push value) after) := by
  have piles := stacked.piled.push exact.wellFormed few
  rcases answer : enact (Machine.push value) after with ⟨outcome, next⟩
  rw [answer] at piles
  cases piles with
  | done piled => exact .done (piled.stacked (List.forall_mem_cons.mpr ⟨exact, stacked.exact⟩))
  | failed excuse =>
    exact .failed (excuse.imp_right fun long => ⟨value, after, long, congrArg Prod.fst answer⟩)

/-- Levels may be taken away again. -/
theorem Stacked.drop (stacked : Stacked machine values after) {count : ℕ}
    (enough : count ≤ values.length) :
    Stacked machine (values.drop count) { after with stack := after.stack.drop count } :=
  (stacked.piled.drop enough).stacked fun value among =>
    stacked.exact value (List.mem_of_mem_drop among)

/-- The topmost numbers are read back. -/
theorem Stacked.readBack (stacked : Stacked machine values after) (count : ℕ) :
    (values.take count).reverse.mapM Encoding.readBack = .ok (values.take count).reverse :=
  Outcome.mapM_of_forall₂ (List.forall₂_same.mpr fun value among =>
    Encoding.readBack_of_isGaussian
      (stacked.exact value (List.mem_of_mem_take (List.mem_reverse.mp among))))

/-- The operands of an operator are the topmost numbers, the deepest first. -/
theorem Stacked.arguments (stacked : Stacked machine values after)
    (word : machine.heap.limit < 2 ^ 64) {count : ℕ}
    (enough : count ≤ values.length) :
    enact (arguments count) after = (.ok (values.take count).reverse, after) := by
  rw [stacked.piled.arguments word enough, stacked.readBack]

/-- An operator puts what it computes of the topmost numbers in their place, or fails for want of
memory or because it computes nothing. -/
theorem Stacked.operate (stacked : Stacked machine values after)
    (word : machine.heap.limit < 2 ^ 64) {command : Command} (enough : command.arity ≤ values.length)
    {indeterminate : Prop} {result : Value} (exact : result.IsGaussian)
    (raised : Raised indeterminate result (Arithmetic.ofOperands command
      (values.take command.arity).reverse machine.settings.toPreferences))
    (few : (enact (Machine.operate command) after).2.heap.slots.size ≤ UInt32.size) :
    Puts machine (result :: values.drop command.arity)
      (fun fault => Shortage fault ∨ fault = .undefinedOperation ∧ indeterminate)
      (enact (Machine.operate command) after) := by
  rw [stacked.piled.operate word enough, stacked.readBack, Outcome.ok_bind] at few ⊢
  generalize Arithmetic.ofOperands command (values.take command.arity).reverse
    machine.settings.toPreferences = computed at raised few ⊢
  cases raised with
  | undefined indeed => exact .failed (.inr ⟨rfl, indeed⟩)
  | tooLarge => exact .failed (.inl (.inl rfl))
  | done => exact ((stacked.drop enough).push exact few).imp fun _ => .inl

/-! ## Variables -/

/-- A variable with a value still has it. -/
theorem Stacked.lookup? (stacked : Stacked machine values after) {name : Symbol} {value : Value}
    (found : machine.lookup? name = some value) : after.lookup? name = some value := by
  unfold Machine.lookup? at found ⊢
  rw [stacked.piled.reference? name]
  split at found
  · rename_i reference refers
    have among : reference ∈ machine.roots :=
      mem_roots.mpr (.inr (.inr (Link.mem_contents_of_reference? refers)))
    cases held : machine.heap.get? reference with
    | none =>
      have invalid : machine.valueOf reference = .error .invalidHandle := by
        rw [Machine.valueOf, Storage.valueOf]
        show Heap.valueOf machine.heap reference = _
        rw [Heap.valueOf, held]
      rw [invalid] at found
      cases found
    | some object =>
      have same : after.valueOf reference = machine.valueOf reference :=
        (WatchedHeap.valueOf_eq_reading (stacked.kept reference among object held)).trans
          (WatchedHeap.valueOf_eq_reading held).symm
      rw [same]
      exact found
  · cases found

/-- The value of a name that stands for a number is put on the stack. -/
theorem enact_resolve_real {Store Reference : Type} [Storage Store Reference]
    (deeper : Deeper Store Reference) {machine : Machine Store Reference} {name : Symbol} {x : Real}
    (outside : machine.isDirectory name = false) (found : machine.lookup? name = some (.real x)) :
    enact (resolve deeper name) machine = enact (push (.real x)) machine := by
  have stays : enact (enter name) machine = (.ok false, machine) := by
    unfold enter
    rw [enact_get_bind, outside]
    rfl
  have fetched : enact (fetch? name) machine = (.ok (some (.real x)), machine) := by
    rw [← found]
    rfl
  unfold resolve
  rw [enact_bind_ok stays]
  exact enact_bind_ok fetched _

end Machine

end Calculator
