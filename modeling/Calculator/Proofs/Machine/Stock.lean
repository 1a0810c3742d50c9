import Calculator.Proofs.Machine.Atomicity
import Mathlib

/-!
# Levels and variables have objects

Whatever a machine has been asked to do, every level of its stack and every variable in its tree
refers to an object that is on the heap, as long as a word can number the slots. What is retained on
request need not: anyone may ask for a handle to be retained that never had an object. So where the
levels, the tree and their objects stay what they are, the machine shows what it did.
-/

namespace Calculator

namespace Machine

/-- A machine whose heap is laid out well and whose levels and variables all have an object. -/
structure Stocked (machine : Machine) : Prop where
  intact : machine.Intact
  named : ∀ handle ∈ Directory.contents machine.tree,
    ∃ object, machine.heap.get? handle = some object

variable {before after : Machine}

/-- Where the heap is the same and no value is new in the tree, the variables have their objects. -/
theorem Stocked.named_of_heap (stocked : before.Stocked) (heap : after.heap = before.heap)
    (contents : ∀ handle ∈ Directory.contents after.tree, handle ∈ Directory.contents before.tree) :
    ∀ handle ∈ Directory.contents after.tree, ∃ object, after.heap.get? handle = some object :=
  fun handle among => heap ▸ stocked.named handle (contents handle among)

/-- Where the heap was asked to place an object and no other value is new in the tree, the variables
have their objects. -/
theorem Stocked.named_of_place (stocked : before.Stocked)
    (few : after.heap.slots.size ≤ UInt32.size) {value : Value} {outcome : Outcome Handle}
    (answer : Storage.place before.heap before.roots (Encoding.encode value) =
      (outcome, after.heap))
    (contents : ∀ handle ∈ Directory.contents after.tree,
      handle ∈ Directory.contents before.tree ∨ outcome = .ok handle) :
    ∀ handle ∈ Directory.contents after.tree, ∃ object, after.heap.get? handle = some object := by
  obtain ⟨found, placed, same⟩ := Heap.place?_of_storage answer
  obtain ⟨-, kept, held⟩ := Heap.place?_spec placed stocked.intact.sound few
  intro handle among
  rcases contents handle among with old | new
  · obtain ⟨object, valid⟩ := stocked.named handle old
    exact ⟨object, kept handle (mem_roots.mpr (.inr (.inr old))) object valid⟩
  · exact ⟨_, held handle (same handle new)⟩

/-- A single change leaves an object for every level and every variable. -/
theorem Change.stocked (change : Change before after) (stocked : before.Stocked)
    (few : after.heap.slots.size ≤ UInt32.size) : after.Stocked := by
  refine ⟨change.maintains.intact stocked.intact few, ?_⟩
  have inside {handle : Handle} (held : handle ∈ Directory.contents before.current) :
      handle ∈ Directory.contents before.tree := Directory.mem_contents_of_along held
  cases change with
  | handed value => exact stocked.named_of_place few rfl fun _ => .inl
  | pushed value taken => exact stocked.named_of_place few taken fun _ => .inl
  | stored name value vacant present taken =>
    refine stocked.named_of_place few taken fun handle among => ?_
    rcases Directory.mem_contents_of_replaceAt among with new | old
    · rcases Directory.mem_contents_of_insert new with entry | old
      · rw [Directory.contentsOfEntry, List.mem_singleton] at entry
        exact .inr (entry ▸ rfl)
      · exact .inl (inside old)
    · exact .inl old
  | rearranged levels among => exact stocked.named_of_heap rfl fun _ => id
  | removed name found present =>
    refine stocked.named_of_heap rfl fun handle among => ?_
    rcases Directory.mem_contents_of_replaceAt among with left | old
    · exact inside (Directory.mem_contents_of_remove left)
    · exact old
  | founded name vacant present =>
    refine stocked.named_of_heap rfl fun handle among => ?_
    rcases Directory.mem_contents_of_replaceAt among with new | old
    · rcases Directory.mem_contents_of_insert new with entry | old
      · rw [Directory.contentsOfEntry, Directory.contents] at entry
        exact absurd entry List.not_mem_nil
      · exact inside old
    · exact old
  | entered name inside => exact stocked.named_of_heap rfl fun _ => id
  | ascended => exact stocked.named_of_heap rfl fun _ => id
  | returned => exact stocked.named_of_heap rfl fun _ => id
  | answered => exact stocked.named_of_heap rfl fun _ => id

/-- However a machine evolves, there is an object for every level and every variable. -/
theorem Evolves.stocked (evolves : Evolves before after) (stocked : before.Stocked)
    (few : after.heap.slots.size ≤ UInt32.size) : after.Stocked := by
  induction evolves with
  | unchanged => exact stocked
  | change first rest inductionHypothesis =>
    exact inductionHypothesis (first.stocked stocked (rest.maintains.slots.trans few)) few
  | nested room body rest bodyHypothesis restHypothesis =>
    obtain ⟨intact, named⟩ := stocked
    obtain ⟨inner, held⟩ := bodyHypothesis ⟨⟨intact.sound, intact.levels⟩, named⟩
      (rest.maintains.slots.trans few)
    exact restHypothesis ⟨⟨inner.sound, inner.levels⟩, held⟩ few

end Machine

namespace Session

open Machine

variable {settings : Settings} {machine : Machine}

/-- A line leaves an object for every level and every variable, whether it fails or not. -/
theorem stocked_run (line : String) (stocked : machine.Stocked)
    (few : (enact (run line) machine).2.heap.slots.size ≤ UInt32.size) :
    (enact (run line) machine).2.Stocked := by
  refine ⟨(safe_run line machine).intact stocked.intact few, ?_⟩
  have run := Link.enact_run line machine
  have guarded : machine.guarded.Stocked :=
    ⟨⟨stocked.intact.sound, stocked.intact.levels⟩, stocked.named⟩
  have performed := (evolving_performLine line machine.guarded).stocked guarded
  rcases answer : enact (performLine line) machine.guarded with ⟨outcome, after⟩
  rw [answer] at performed
  unfold Machine.guarded at answer
  rw [answer] at run
  cases outcome with
  | ok _ =>
    rw [run] at few ⊢
    exact (performed few).named
  | error fault =>
    rw [run] at few ⊢
    exact (performed few).named

/-- A request leaves an object for every level and every variable. -/
theorem stocked_request (request : Request) (stocked : machine.Stocked)
    (few : (enact request.perform machine).2.heap.slots.size ≤ UInt32.size) :
    (enact request.perform machine).2.Stocked := by
  have evolved {Item : Type} {action : Action Item} (evolving : Evolving action)
      (few : (enact action machine).2.heap.slots.size ≤ UInt32.size) :
      (enact action machine).2.Stocked := (evolving machine).stocked stocked few
  have intact := (safe_request request machine).intact stocked.intact few
  cases request with
  | plain operation =>
    by_cases collects : operation = .collect
    · subst collects
      refine ⟨intact, ?_⟩
      have collected := Heap.collect_spec stocked.intact.sound machine.roots
      intro handle among
      obtain ⟨object, held⟩ := stocked.named handle among
      refine ⟨object, (Heap.Answered.collected machine.roots _ collected).get? ?_ held⟩
      rintro found same
      obtain rfl := Heap.Request.collect.inj same
      exact mem_roots.mpr (.inr (.inr among))
    · by_cases runs : ∃ line, operation = .run line
      · obtain ⟨line, rfl⟩ := runs
        have same : (enact (Request.plain (.run line)).perform machine).2 =
            (enact (Machine.run line) machine).2 := by
          rw [Request.perform, enact_discard]
          exact enact_answer (Machine.run line) (fun _ => Answer.done) machine
        rw [same] at few ⊢
        exact stocked_run line stocked few
      · have same : (enact (Request.plain operation).perform machine).2 =
            (enact operation.perform machine).2 := enact_discard _ _
        rw [same] at few ⊢
        exact (evolves_operation collects (not_exists.mp runs) machine).stocked stocked few
  | make value =>
    rw [Request.perform, enact_discard] at few ⊢
    exact evolved (evolving_make value) few
  | pushHandle handle =>
    refine ⟨intact, ?_⟩
    rw [Request.perform, Machine.pushHandle, enact_get_bind]
    split <;> exact stocked.named
  | execute value => exact evolved (evolving_executeValue value) few
  | evaluate value => exact evolved (evolving_evaluate value) few
  | evaluateValue value =>
    rw [Request.perform, enact_discard] at few ⊢
    exact evolved (evolving_evaluateValue value) few
  | findRoot equation unknown guess =>
    rw [Request.perform, enact_discard] at few ⊢
    exact evolved (evolving_findRoot equation unknown guess) few
  | retain | release | changeSettings | recordFault | clearFault | interrupt =>
    exact ⟨intact, stocked.named⟩
  | interrupted =>
    rw [Request.perform, enact_discard] at few ⊢
    exact evolved evolving_interrupted few

/-- Requests leave an object for every level and every variable. -/
theorem stocked_requested (requests : List Request) (stocked : machine.Stocked)
    (few : (requested requests machine).heap.slots.size ≤ UInt32.size) :
    (requested requests machine).Stocked := by
  induction requests generalizing machine with
  | nil => exact stocked
  | cons request requests inductionHypothesis =>
    have slots := (safe_requested requests (enact request.perform machine).2).slots
    exact inductionHypothesis (stocked_request request stocked (slots.trans few)) few

/-- On a machine on which nothing has happened there are no levels and no variables. -/
theorem stocked_start (settings : Settings) : (start settings).Stocked where
  intact := intact_start settings
  named := fun _ among => absurd among List.not_mem_nil

/-- Where the levels, the tree and their objects stay what they are, the machine shows what it
did. -/
theorem view_of_kept {before after : Machine} (stocked : before.Stocked)
    (stack : after.stack = before.stack) (tree : after.tree = before.tree)
    (path : after.path = before.path)
    (kept : ∀ root ∈ before.roots, ∀ object, before.heap.get? root = some object →
      after.heap.get? root = some object) : view after = view before := by
  have same {handle : Handle} (among : handle ∈ before.roots)
      (held : ∃ object, before.heap.get? handle = some object) :
      after.valueOf handle = before.valueOf handle := by
    obtain ⟨object, valid⟩ := held
    exact (WatchedHeap.valueOf_eq_reading (kept handle among object valid)).trans
      (WatchedHeap.valueOf_eq_reading valid).symm
  unfold view
  rw [stack, tree, path, List.map_congr_left fun handle level =>
      same (mem_roots.mpr (.inl level)) (stocked.intact.levels handle level),
    Directory.map_congr before.tree fun handle among =>
      same (mem_roots.mpr (.inr (.inr among))) (stocked.named handle among)]

end Session

end Calculator
