import Calculator.Proofs.Machine.Execution
import Calculator.Proofs.Machine.Session
import Calculator.Proofs.Machine.Storage
import Mathlib

/-!
# A line that fails leaves the stack alone

A line that fails puts back the handles that were on the stack when it began. That is good only
if nothing the line did has cost one of them its object: no collection, no growth of the heap
and no recursion, whatever the line made and threw away. They are retained for that: no change
of the machine touches their objects, and every evaluation leaves the retained objects and the
nesting as it found them.

Slots are numbered by words. Of a heap with more slots than that nothing is said here; one whose
limit is a word never has as many.
-/

namespace Calculator

/-! ## Single changes -/

/-- What a heap answers to a machine is what came of placing the object. -/
theorem Heap.place?_of_storage {heap next : Heap} {roots : List Handle} {object : List UInt8}
    {outcome : Outcome Handle} (answer : Storage.place heap roots object = (outcome, next)) :
    ∃ found, heap.place? roots object = (found, next) ∧
      ∀ handle, outcome = .ok handle → found = some handle := by
  simp only [Storage.place] at answer
  rcases placed : heap.place? roots object with ⟨_ | handle, after⟩
  all_goals
    rw [placed] at answer
    obtain ⟨rfl, rfl⟩ := Prod.mk.inj answer
  · exact ⟨none, rfl, fun _ refused => by cases refused⟩
  · exact ⟨some handle, rfl, fun _ same => congrArg some (Except.ok.inj same)⟩

namespace Machine

/-- A machine whose heap is laid out well and whose levels all have an object. -/
structure Intact (machine : Machine) : Prop where
  sound : machine.heap.Sound
  levels : ∀ handle ∈ machine.stack, ∃ object, machine.heap.get? handle = some object

/-- What no request to a machine costs it, as long as a word can number the slots: the layout of
the heap, and the objects of the levels. A heap whose limit is a word needs no such condition. The
limit itself stays what it was. -/
structure Safe (before after : Machine) : Prop where
  slots : before.heap.slots.size ≤ after.heap.slots.size
  limit : after.heap.limit = before.heap.limit
  dense : before.heap.Dense → after.heap.Dense
  intact : before.Intact → after.heap.slots.size ≤ UInt32.size → after.Intact

/-- What evaluation leaves alone, besides: the retained objects and the nesting. -/
structure Maintains (before after : Machine) : Prop extends Safe before after where
  retained : after.retained = before.retained
  nesting : after.nesting = before.nesting
  spared : before.Intact → after.heap.slots.size ≤ UInt32.size →
    ∀ handle ∈ before.retained, ∀ object, before.heap.get? handle = some object →
      after.heap.get? handle = some object

variable {before after last : Machine}

theorem Safe.trans (first : Safe before after) (second : Safe after last) : Safe before last where
  slots := first.slots.trans second.slots
  limit := second.limit.trans first.limit
  dense heap := second.dense (first.dense heap)
  intact intact few := second.intact (first.intact intact (second.slots.trans few)) few

/-- Where the heap is the same and no level is new, nothing is lost. -/
theorem safe_of_heap (heap : after.heap = before.heap)
    (levels : ∀ handle ∈ after.stack, handle ∈ before.stack) : Safe before after where
  slots := heap ▸ le_rfl
  limit := congrArg Heap.limit heap
  dense dense := heap ▸ dense
  intact intact _ :=
    ⟨heap ▸ intact.sound, fun handle level => heap ▸ intact.levels handle (levels handle level)⟩

/-- Where the heap was asked to place an object and no other level is new, nothing is lost. -/
theorem safe_of_place {value : Value} {outcome : Outcome Handle}
    (answer : Storage.place before.heap before.roots (Encoding.encode value) =
      (outcome, after.heap))
    (levels : ∀ handle ∈ after.stack, handle ∈ before.stack ∨ outcome = .ok handle) :
    Safe before after := by
  obtain ⟨found, placed, same⟩ := Heap.place?_of_storage answer
  have heap : after.heap = (before.heap.place? before.roots (Encoding.encode value)).2 := by
    rw [placed]
  constructor
  · rw [heap]
    exact Heap.slots_le_place? _ _ _
  · rw [heap]
    exact Heap.limit_place? _ _ _
  · intro dense
    rw [heap]
    exact dense.place? _ (List.length_pos_iff.mp (Encoding.encode_length_pos value))
  · intro intact few
    obtain ⟨sound, kept, held⟩ := Heap.place?_spec placed intact.sound few
    refine ⟨sound, fun handle level => ?_⟩
    rcases levels handle level with old | new
    · obtain ⟨object, valid⟩ := intact.levels handle old
      exact ⟨object, kept handle (mem_roots.mpr (.inl old)) object valid⟩
    · exact ⟨_, held handle (same handle new)⟩

/-- Where only the rest of a machine changes, evaluation may do so. -/
theorem maintains_of_heap (heap : after.heap = before.heap)
    (levels : ∀ handle ∈ after.stack, handle ∈ before.stack)
    (retained : after.retained = before.retained) (nesting : after.nesting = before.nesting) :
    Maintains before after where
  toSafe := safe_of_heap heap levels
  retained
  nesting
  spared _ _ _ _ _ held := heap ▸ held

/-- Where the heap was asked to place an object and no other level is new, evaluation may do so:
a collection that comes of it finds the retained objects among the roots. -/
theorem maintains_of_place {value : Value} {outcome : Outcome Handle}
    (answer : Storage.place before.heap before.roots (Encoding.encode value) =
      (outcome, after.heap))
    (levels : ∀ handle ∈ after.stack, handle ∈ before.stack ∨ outcome = .ok handle)
    (retained : after.retained = before.retained) (nesting : after.nesting = before.nesting) :
    Maintains before after where
  toSafe := safe_of_place answer levels
  retained
  nesting
  spared intact few handle among object held := by
    obtain ⟨found, placed, -⟩ := Heap.place?_of_storage answer
    obtain ⟨-, kept, -⟩ := Heap.place?_spec placed intact.sound few
    exact kept handle (mem_roots.mpr (.inr (.inl among))) object held

/-- A single change maintains what evaluation leaves alone. -/
theorem Change.maintains (change : Change before after) : Maintains before after := by
  cases change with
  | handed value => exact maintains_of_place rfl (fun _ => .inl) rfl rfl
  | pushed value taken =>
    refine maintains_of_place taken (fun handle level => ?_) rfl rfl
    rcases List.mem_cons.mp level with rfl | old
    · exact .inr rfl
    · exact .inl old
  | stored name value vacant present taken =>
    exact maintains_of_place taken (fun _ => .inl) rfl rfl
  | rearranged levels among => exact maintains_of_heap rfl among rfl rfl
  | removed name found present => exact maintains_of_heap rfl (fun _ => id) rfl rfl
  | founded name vacant present => exact maintains_of_heap rfl (fun _ => id) rfl rfl
  | entered name inside => exact maintains_of_heap rfl (fun _ => id) rfl rfl
  | ascended => exact maintains_of_heap rfl (fun _ => id) rfl rfl
  | returned => exact maintains_of_heap rfl (fun _ => id) rfl rfl
  | answered => exact maintains_of_heap rfl (fun _ => id) rfl rfl

/-! ## Whole evaluations -/

theorem Maintains.trans (first : Maintains before after) (second : Maintains after last) :
    Maintains before last where
  toSafe := first.toSafe.trans second.toSafe
  retained := second.retained.trans first.retained
  nesting := second.nesting.trans first.nesting
  spared intact few handle among object held := by
    have fewAfter := second.slots.trans few
    refine second.spared (first.intact intact fewAfter) few handle ?_ object
      (first.spared intact fewAfter handle among object held)
    rw [first.retained]
    exact among

/-- However a machine evolves, what evaluation leaves alone is maintained. An evaluation within
the present one puts the nesting back. -/
theorem Evolves.maintains (evolves : Evolves before after) : Maintains before after := by
  induction evolves with
  | unchanged => exact maintains_of_heap rfl (fun _ => id) rfl rfl
  | change first _ inductionHypothesis => exact first.maintains.trans inductionHypothesis
  | @nested machine inner last room _ _ body rest =>
    refine Maintains.trans ?_ rest
    have entered : Safe machine { machine with nesting := machine.nesting + 1 } :=
      safe_of_heap rfl fun _ => id
    have left : Safe inner { inner with nesting := inner.nesting - 1 } :=
      safe_of_heap rfl fun _ => id
    exact {
      toSafe := (entered.trans body.toSafe).trans left
      retained := body.retained
      nesting := congrArg (· - 1) body.nesting
      spared := fun intact few => body.spared ⟨intact.sound, intact.levels⟩ few }

/-! ## Lines -/

/-- A machine as a line is performed on it, with the levels of the stack retained. -/
def guarded (machine : Machine) : Machine :=
  { machine with retained := machine.stack.reverse ++ machine.retained }

/-- To release what was retained last leaves what was retained before. -/
theorem Maintains.released (performed : Maintains before.guarded after) :
    after.retained.drop (after.retained.length - before.retained.length) = before.retained := by
  rw [performed.retained]
  unfold guarded
  dsimp only
  rw [List.length_append, Nat.add_sub_cancel, List.drop_left]

/-- The levels of the stack keep their objects while a line is performed. -/
theorem Maintains.keptLevel (performed : Maintains before.guarded after) (intact : before.Intact)
    (few : after.heap.slots.size ≤ UInt32.size) {handle : Handle} (level : handle ∈ before.stack)
    {object : List UInt8} (held : before.heap.get? handle = some object) :
    after.heap.get? handle = some object :=
  performed.spared ⟨intact.sound, intact.levels⟩ few handle
    (List.mem_append_left _ (List.mem_reverse.mpr level)) object held

/-- What is left of a line: a machine that evolved with the levels of the stack retained. They are
released, and if the line failed they are put back. -/
theorem enact_run_guarded (line : String) (machine : Machine) :
    ∃ after, Maintains machine.guarded after ∧
      (enact (run line) machine = (.ok (), { after with retained := machine.retained }) ∨
        ∃ fault, enact (run line) machine = (.error fault, { after with
          stack := machine.stack, retained := machine.retained, lastFault := some fault })) := by
  rcases answer : enact (performLine line) machine.guarded with ⟨outcome, after⟩
  have performed : Maintains machine.guarded after := by
    have evolved := (evolving_performLine line machine.guarded).maintains
    rw [answer] at evolved
    exact evolved
  have released := performed.released
  have run := Link.enact_run line machine
  unfold guarded at answer
  rw [answer] at run
  refine ⟨after, performed, ?_⟩
  cases outcome with
  | ok _ =>
    dsimp only at run
    rw [released] at run
    exact .inl run
  | error fault =>
    dsimp only at run
    rw [released] at run
    exact .inr ⟨fault, run⟩

/-- To run a line costs the machine nothing. If it fails, the levels that are put back still have
their objects. -/
theorem safe_run (line : String) (machine : Machine) :
    Safe machine (enact (run line) machine).2 := by
  obtain ⟨after, performed, done | ⟨fault, failed⟩⟩ := enact_run_guarded line machine
  · rw [done]
    have retained : Safe machine machine.guarded := safe_of_heap rfl fun _ => id
    exact (retained.trans performed.toSafe).trans (safe_of_heap rfl fun _ => id)
  · rw [failed]
    exact {
      slots := performed.slots
      limit := performed.limit
      dense := performed.dense
      intact := fun intact few => by
        refine ⟨(performed.intact ⟨intact.sound, intact.levels⟩ few).sound, fun handle level => ?_⟩
        obtain ⟨object, held⟩ := intact.levels handle level
        exact ⟨object, performed.keptLevel intact few level held⟩ }

/-! ## Requests -/

/-- A request that only changes the machine as evaluation does costs it nothing. -/
theorem Evolving.safe {Item : Type} {action : Action Item} (evolving : Evolving action)
    (machine : Machine) : Safe machine (enact action machine).2 :=
  (evolving machine).maintains.toSafe

/-- A collection on request costs the machine nothing. -/
theorem safe_collect (machine : Machine) : Safe machine (enact collect machine).2 := by
  have after : (enact collect machine).2.heap = (machine.heap.collect machine.roots).2 := rfl
  constructor
  · rw [after]
    exact Heap.slots_le_answer machine.heap (.collect machine.roots)
  · rw [after]
    exact Heap.limit_answer machine.heap (.collect machine.roots)
  · intro dense
    rw [after]
    exact dense.answer (.collect machine.roots) (by simp)
  · intro intact _
    have collected := Heap.collect_spec intact.sound machine.roots
    refine ⟨after ▸ collected.sound, fun handle level => ?_⟩
    obtain ⟨object, held⟩ := intact.levels handle level
    rw [after]
    refine ⟨object, (Heap.Answered.collected machine.roots _ collected).get? ?_ held⟩
    rintro found same
    obtain rfl := Heap.Request.collect.inj same
    exact mem_roots.mpr (.inl level)

/-- A handle that is put on top is valid. -/
theorem safe_pushHandle (handle : Handle) (machine : Machine) :
    Safe machine (enact (pushHandle handle) machine).2 := by
  unfold pushHandle
  rw [enact_get_bind]
  split
  · rename_i valid
    have held : ∃ object, machine.heap.get? handle = some object := by
      rw [← Option.isSome_iff_exists, Heap.get?, Option.isSome_map]
      exact valid
    constructor
    · exact le_rfl
    · rfl
    · exact id
    · intro intact _
      exact ⟨intact.sound, List.forall_mem_cons.mpr ⟨held, intact.levels⟩⟩
  · exact safe_of_heap rfl fun _ => id

end Machine

namespace Session

open Machine

/-- What a machine can be asked to do, also with handles and with values that do not stand on its
stack. -/
inductive Request where
  | plain (operation : Operation)
  | make (value : Value)
  | pushHandle (handle : Handle)
  | retain (handle : Handle)
  | release (count : Nat)
  | execute (value : Value)
  | evaluate (value : Value)
  | evaluateValue (value : Value)
  | findRoot (equation unknown guess : Value)
  | changeSettings (settings : Settings)
  | recordFault (fault : Fault)
  | clearFault
  | interrupt
  | interrupted

/-- Does what a machine is asked for, whatever the answer is. -/
def Request.perform : Request → Action Unit
  | plain operation => discard operation.perform
  | make value => discard (Machine.make value)
  | pushHandle handle => Machine.pushHandle handle
  | retain handle => Machine.retain handle
  | release count => Machine.release count
  | execute value => Machine.executeValue value
  | evaluate value => Machine.evaluate value
  | evaluateValue value => discard (Machine.evaluateValue value)
  | findRoot equation unknown guess => discard (Machine.findRoot equation unknown guess)
  | changeSettings settings => Machine.changeSettings settings
  | recordFault fault => Machine.recordFault fault
  | clearFault => Machine.clearFault
  | interrupt => Machine.interrupt
  | interrupted => discard Machine.interrupted

/-- The machine after some requests. -/
def requested : List Request → Machine → Machine
  | [], machine => machine
  | request :: requests, machine => requested requests (enact request.perform machine).2

/-- An action has done the same when its answer is told in another way. -/
theorem enact_answer {Item Result : Type} (action : Action Item) (tell : Item → Result)
    (machine : Machine) :
    (enact (do return tell (← action)) machine).2 = (enact action machine).2 := by
  rcases answer : enact action machine with ⟨outcome, after⟩
  cases outcome with
  | ok item => rw [enact_bind_ok answer]; rfl
  | error fault => rw [enact_bind_error answer]

/-- To discard an answer does not change what is done. -/
theorem enact_discard {Item : Type} (action : Action Item) (machine : Machine) :
    (enact (discard action) machine).2 = (enact action machine).2 := by
  have discarded : discard action = action >>= fun _ => pure ⟨⟩ := by
    simp only [discard, Functor.discard, map_const, Function.comp_apply, map_eq_pure_bind]
  rw [discarded]
  exact enact_answer action _ machine

/-- Every operation but a collection and a line evolves the machine. -/
theorem evolves_operation {operation : Operation} (collects : operation ≠ .collect)
    (runs : ∀ line, operation ≠ .run line) (machine : Machine) :
    Evolves machine (enact operation.perform machine).2 := by
  have told {Item : Type} {action : Action Item} (tell : Item → Answer)
      (evolves : Evolves machine (enact action machine).2) :
      Evolves machine (enact (do return tell (← action)) machine).2 := by
    rw [enact_answer]
    exact evolves
  cases operation with
  | push value => exact told (fun _ => .done) (evolving_push value machine)
  | pop => exact told .value (evolving_pop machine)
  | level number => exact told .value (evolving_level number machine)
  | arguments count => exact told .values (evolving_arguments count machine)
  | pick number => exact told (fun _ => .done) (evolving_pick number machine)
  | duplicate => exact told (fun _ => .done) (evolving_pick 1 machine)
  | duplicate2 => exact told (fun _ => .done) (evolving_duplicate2 machine)
  | copySecond => exact told (fun _ => .done) (evolving_pick 2 machine)
  | swap => exact told (fun _ => .done) (evolving_swap machine)
  | rotate => exact told (fun _ => .done) (evolving_rotate machine)
  | drop count => exact told (fun _ => .done) (evolving_drop count machine)
  | clear => exact told (fun _ => .done) (evolving_clear machine)
  | store name value => exact told (fun _ => .done) (evolving_store name value machine)
  | fetch name => exact told .variable (evolving_fetch? name machine)
  | purge name => exact told (fun _ => .done) (evolving_purge name machine)
  | createDirectory name => exact told (fun _ => .done) (evolving_createDirectory name machine)
  | enter name => exact told .entered (evolving_enter name machine)
  | upDirectory => exact told (fun _ => .done) (evolving_upDirectory machine)
  | home => exact told (fun _ => .done) (evolving_home machine)
  | command given => exact told (fun _ => .done) (evolving_command given machine)
  | collect => exact absurd rfl collects
  | run line => exact absurd rfl (runs line)

/-- A plain operation costs the machine nothing. -/
theorem safe_operation (operation : Operation) (machine : Machine) :
    Safe machine (enact operation.perform machine).2 := by
  by_cases collects : operation = .collect
  · subst collects
    show Safe machine (enact (do discard Machine.collect; return Answer.done) machine).2
    rw [enact_answer (discard Machine.collect) (fun _ => Answer.done), enact_discard]
    exact safe_collect machine
  · by_cases runs : ∃ line, operation = .run line
    · obtain ⟨line, rfl⟩ := runs
      show Safe machine (enact (do Machine.run line; return Answer.done) machine).2
      rw [enact_answer (Machine.run line) (fun _ => Answer.done)]
      exact safe_run line machine
    · exact (evolves_operation collects (not_exists.mp runs) machine).maintains.toSafe

/-- A request costs the machine nothing. -/
theorem safe_request (request : Request) (machine : Machine) :
    Safe machine (enact request.perform machine).2 := by
  have unasked {Item : Type} {action : Action Item} (safe : Safe machine (enact action machine).2) :
      Safe machine (enact (discard action) machine).2 := by
    rw [enact_discard]
    exact safe
  cases request with
  | plain operation => exact unasked (safe_operation operation machine)
  | make value => exact unasked ((evolving_make value).safe machine)
  | pushHandle handle => exact safe_pushHandle handle machine
  | retain handle => exact safe_of_heap rfl fun _ => id
  | release count => exact safe_of_heap rfl fun _ => id
  | execute value => exact (evolving_executeValue value).safe machine
  | evaluate value => exact (evolving_evaluate value).safe machine
  | evaluateValue value => exact unasked ((evolving_evaluateValue value).safe machine)
  | findRoot equation unknown guess =>
    exact unasked ((evolving_findRoot equation unknown guess).safe machine)
  | changeSettings settings => exact safe_of_heap rfl fun _ => id
  | recordFault fault => exact safe_of_heap rfl fun _ => id
  | clearFault => exact safe_of_heap rfl fun _ => id
  | interrupt => exact safe_of_heap rfl fun _ => id
  | interrupted => exact unasked (evolving_interrupted.safe machine)

/-- Requests cost the machine nothing. -/
theorem safe_requested (requests : List Request) (machine : Machine) :
    Safe machine (requested requests machine) := by
  induction requests generalizing machine with
  | nil => exact safe_of_heap rfl fun _ => id
  | cons request requests inductionHypothesis =>
    exact (safe_request request machine).trans (inductionHypothesis _)

/-- A machine on which nothing has happened is intact. -/
theorem intact_start (settings : Settings) : (start settings).Intact :=
  ⟨Heap.sound_empty _ _, fun _ level => absurd level List.not_mem_nil⟩

end Session

end Calculator
