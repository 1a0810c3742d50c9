import Calculator.Proofs.Encoding.RoundTrip
import Calculator.Proofs.Machine.Session
import Calculator.Proofs.Machine.Storage
import Calculator.Proofs.Memory.Wrapping
import Mathlib

/-!
# The heap is not seen

As long as the heap finds room for every object, nobody can tell from what a machine shows that
there is a heap, how large it is and when it is collected: a machine that keeps the values
themselves shows the same.
-/

namespace Calculator.Session

open Machine

/-- A machine on which nothing has happened and which keeps its objects as they are. -/
def direct (preferences : Preferences) : Machine Unit (Outcome Value) :=
  startOn () { preferences with }

/-- A machine on which nothing has happened, with a note of what its heap refuses. -/
def watched (settings : Settings) : Machine WatchedHeap Handle :=
  startOn ⟨.empty settings.heapSize.toNat settings.heapLimit.toNat, false⟩ settings

/-- Whether the heap is large enough for some operations: a word can number its slots, as it
always can if the heap is no larger, and it refuses no object. Where no search takes a sample, it
is enough that no operation fails for want of memory. -/
structure Roomy (settings : Settings) (operations : List Operation) : Prop where
  few : max settings.heapLimit.toNat settings.heapSize.toNat ≤ UInt32.size ∨
    (after operations (start settings)).heap.slots.size ≤ UInt32.size
  accepted : (after operations (watched settings)).storage.refused = false ∨
    settings.solverIterations = 0 ∧
      ∀ event ∈ trace operations (start settings), event.answer ≠ .error .outOfMemory

/-- To watch the heap changes nothing. -/
theorem trace_watched (settings : Settings) (operations : List Operation) :
    trace operations (watched settings) = trace operations (start settings) ∧
      (after operations (watched settings)).storage.heap =
        (after operations (start settings)).heap := by
  have linked : WatchedHeap.unwatched.Linked [] [] (watched settings) (start settings) :=
    WatchedHeap.unwatched.linked_startOn rfl rfl False.elim
  obtain ⟨traces, last⟩ :=
    trace_linked WatchedHeap.lawful_unwatched operations linked (fun gone => gone) False.elim
  exact ⟨traces, last.matched⟩

/-- A heap whose limit is a word never has more slots than a word can number. -/
theorem slots_le_of_limit {settings : Settings} (operations : List Operation)
    (word : max settings.heapLimit.toNat settings.heapSize.toNat ≤ UInt32.size) :
    (after operations (start settings)).heap.slots.size ≤ UInt32.size := by
  have linked : Heap.itself.Linked [] [] (start settings) (start settings) :=
    Heap.itself.linked_startOn ⟨rfl, Heap.dense_empty word⟩ rfl False.elim
  obtain ⟨-, last⟩ :=
    trace_linked Heap.lawful_itself operations linked (fun gone => gone) False.elim
  exact last.matched.2.sound.few

/-- A watched heap stands at first for no objects. -/
theorem linked_watched (reports : Prop) (settings : Settings)
    (searchless : reports → settings.solverIterations = 0) :
    (WatchedHeap.decoded reports).Linked [] [] (watched settings)
      (direct settings.toPreferences) :=
  (WatchedHeap.decoded reports).linked_startOn (Heap.sound_empty _ _) rfl searchless

/-- A machine with a heap that is large enough shows what one shows that keeps the values. -/
theorem trace_direct {settings : Settings} {operations : List Operation}
    (roomy : Roomy settings operations) :
    trace operations (start settings) = trace operations (direct settings.toPreferences) := by
  obtain ⟨traces, heaps⟩ := trace_watched settings operations
  have few := roomy.few.elim (slots_le_of_limit operations) id
  rw [← heaps] at few
  rw [← traces]
  rcases roomy.accepted with accepted | ⟨searchless, untold⟩
  · refine (trace_linked (WatchedHeap.lawful_decoded False) operations
      (linked_watched False settings False.elim) ?_ False.elim).1
    rintro (many | ⟨-, refused⟩)
    · exact absurd many (Nat.not_lt_of_le few)
    · rw [accepted] at refused
      simp at refused
  · rw [← traces] at untold
    refine (trace_linked (WatchedHeap.lawful_decoded True) operations
      (linked_watched True settings fun _ => searchless) ?_ fun _ => untold).1
    rintro (many | ⟨silent, -⟩)
    · exact absurd many (Nat.not_lt_of_le few)
    · exact silent trivial

/-- Collections change nothing on a machine that keeps the values. -/
theorem trace_filter (operations : List Operation) (machine : Machine Unit (Outcome Value)) :
    (trace operations machine).filter (fun event => !event.operation.isCollection) =
      trace (operations.filter fun operation => !operation.isCollection) machine := by
  induction operations generalizing machine with
  | nil => rfl
  | cons operation operations inductionHypothesis =>
    by_cases collection : operation.isCollection = true
    · rw [trace, List.filter_cons_of_neg (by simp [collection]),
        List.filter_cons_of_neg (by simp [collection]), inductionHypothesis]
      cases operation <;> simp [Operation.isCollection] at collection
      rfl
    · rw [trace, List.filter_cons_of_pos (by simp [collection]),
        List.filter_cons_of_pos (by simp [collection]), inductionHypothesis, trace]

/-- A machine that keeps the values keeps every conforming value as it is. -/
theorem make_direct (value : Value) (conforming : Encoding.Conforming value)
    (machine : Machine Unit (Outcome Value)) :
    enact (make value) machine = (.ok (.ok value), machine) := by
  rw [Encoding.make_eq_place value conforming.addressable, Link.enact_place]
  simp only [Storage.place, Encoding.reading_encode conforming]

/-- As long as the heap is large enough, a machine shows at every operation what a machine shows
that has no heap, no handles and no collections and keeps the values themselves; a conforming
value is kept there as it is. In particular nothing depends on the size and the limit of the heap
and on where it is collected: two machines with the same preferences show the same, apart from
the collections. -/
theorem heap_invisible (settings : Settings) (operations : List Operation)
    (roomy : Roomy settings operations) :
    trace operations (start settings) = trace operations (direct settings.toPreferences) ∧
    (∀ value, Encoding.Conforming value → ∀ machine : Machine Unit (Outcome Value),
      enact (make value) machine = (.ok (.ok value), machine)) ∧
    (∀ otherSettings otherOperations, Roomy otherSettings otherOperations →
      otherSettings.toPreferences = settings.toPreferences →
      (otherOperations.filter fun operation => !operation.isCollection) =
        (operations.filter fun operation => !operation.isCollection) →
      (trace otherOperations (start otherSettings)).filter
          (fun event => !event.operation.isCollection) =
        (trace operations (start settings)).filter
          (fun event => !event.operation.isCollection)) := by
  refine ⟨trace_direct roomy, make_direct, ?_⟩
  intro otherSettings otherOperations otherRoomy preferences same
  rw [trace_direct roomy, trace_direct otherRoomy, trace_filter, trace_filter, preferences, same]

/-- A heap that is collected when the second value is pushed, and a larger one that is collected
on request. -/
theorem heap_invisible_collected :
    let small : Settings := { heapSize := 3, heapLimit := 16 }
    let large : Settings := { heapSize := 16, heapLimit := 16 }
    let operations : List Operation := [.push (.ofInt 1), .clear, .push (.ofInt 2), .level 1]
    let collected : List Operation :=
      [.push (.ofInt 1), .clear, .collect, .push (.ofInt 2), .level 1]
    trace operations (start small) = trace operations (direct small.toPreferences) ∧
      (trace collected (start large)).filter (fun event => !event.operation.isCollection) =
        (trace operations (start small)).filter (fun event => !event.operation.isCollection) := by
  intro small large operations collected
  have roomySmall : Roomy small operations := ⟨.inl (by decide), .inl (by decide +kernel)⟩
  have roomyLarge : Roomy large collected := ⟨.inl (by decide), .inl (by decide +kernel)⟩
  obtain ⟨kept, -, same⟩ := heap_invisible small operations roomySmall
  exact ⟨kept, same large collected roomyLarge rfl rfl⟩

/-! ## What is seen of the heap -/

/-- While no slot is free and there is room, a value is placed behind all others and gets a slot of
its own. -/
theorem enact_make_appended {value : Value} (addressable : Encoding.Addressable value)
    {machine : Machine} (full : machine.heap.free = [])
    (room : machine.heap.used + (Encoding.encode value).length ≤ machine.heap.capacity) :
    enact (make value) machine = (.ok ⟨UInt32.ofNat machine.heap.slots.size, 0⟩, { machine with
      storage := machine.heap.appended (Encoding.encode value) }) := by
  have allocated := Heap.allocate?_eq_appended (Encoding.encode value) full room
  have placed : Storage.place machine.storage machine.roots (Encoding.encode value) =
      ((.ok ⟨UInt32.ofNat machine.heap.slots.size, 0⟩ : Outcome Handle),
        machine.heap.appended (Encoding.encode value)) := by
    simp only [Storage.place, Heap.place?]
    rw [heap] at allocated
    rw [allocated]
    rfl
  rw [Encoding.make_eq_place value addressable, Link.enact_place, placed]

/-- While no slot is free and there is room, a value is pushed behind all others and gets a slot of
its own. -/
theorem enact_push_appended {value : Value} (addressable : Encoding.Addressable value)
    {machine : Machine} (full : machine.heap.free = [])
    (room : machine.heap.used + (Encoding.encode value).length ≤ machine.heap.capacity) :
    enact (push value) machine = (.ok (), { machine with
      storage := machine.heap.appended (Encoding.encode value)
      stack := ⟨UInt32.ofNat machine.heap.slots.size, 0⟩ :: machine.stack }) :=
  enact_bind_ok (enact_make_appended addressable full room) _

/-- As long as there is room, a value that is pushed some times fills the heap. -/
theorem pushes_fill {value : Value} (addressable : Encoding.Addressable value) (count : Nat)
    {machine : Machine} {before : Nat}
    (filled : machine.heap.Filled (Encoding.encode value) before)
    (room : (before + count) * (Encoding.encode value).length ≤ machine.heap.capacity) :
    (after (List.replicate count (.push value)) machine).heap.Filled (Encoding.encode value)
        (before + count) ∧
      (after (List.replicate count (.push value)) machine).heap.capacity =
        machine.heap.capacity ∧
      ∀ event ∈ trace (List.replicate count (.push value)) machine, event.answer = .ok .done := by
  induction count generalizing machine before with
  | zero => exact ⟨filled, rfl, by simp [trace]⟩
  | succ count inductionHypothesis =>
    have length : (before + (count + 1)) * (Encoding.encode value).length =
        before * (Encoding.encode value).length + (Encoding.encode value).length +
          count * (Encoding.encode value).length := by ring
    have enough : machine.heap.used + (Encoding.encode value).length ≤ machine.heap.capacity := by
      rw [filled.used]
      omega
    let next : Machine := { machine with
      storage := machine.heap.appended (Encoding.encode value)
      stack := ⟨UInt32.ofNat machine.heap.slots.size, 0⟩ :: machine.stack }
    have performed : enact (Operation.push value).perform machine = (.ok .done, next) :=
      enact_bind_ok (enact_push_appended addressable filled.free enough) _
    have filledNext : next.heap.Filled (Encoding.encode value) (before + 1) :=
      filled.appended enough
    have capacity : next.heap.capacity = machine.heap.capacity := Heap.write_size _ _ _
    obtain ⟨last, same, quiet⟩ := inductionHypothesis filledNext (by
      rw [capacity, Nat.add_assoc, Nat.add_comm 1]
      exact room)
    rw [Nat.add_assoc, Nat.add_comm 1] at last
    rw [List.replicate_succ, after, trace, performed]
    exact ⟨last, same.trans capacity, List.forall_mem_cons.mpr ⟨rfl, quiet⟩⟩

/-- What is seen of some operations after others. -/
theorem trace_append {Store Reference : Type} [Storage Store Reference]
    (first second : List Operation) (machine : Machine Store Reference) :
    trace (first ++ second) machine = trace first machine ++ trace second (after first machine) := by
  induction first generalizing machine with
  | nil => rfl
  | cons operation first inductionHypothesis =>
    rw [List.cons_append, trace, trace, after, inductionHypothesis, List.cons_append]

/-- When the number of objects on the heap is cut to zero, the next object gets the handle of the
first one: what is read on top of the stack is the first value, not the last one. -/
theorem level_wrapped {settings : Settings} {first last : Value} {count : Nat}
    (positive : 0 < count) (wraps : UInt32.ofNat count = 0)
    (addressableFirst : Encoding.Addressable first) (addressableLast : Encoding.Addressable last)
    (room : count * (Encoding.encode first).length + (Encoding.encode last).length ≤
      settings.heapSize.toNat) :
    let operations := List.replicate count (.push first) ++ [.push last, .level 1]
    ∃ before view, trace operations (start settings) = before ++
        [⟨.level 1, (Encoding.reading (Encoding.encode first)).map .value, view⟩] ∧
      ∀ event ∈ before, event.answer = .ok .done := by
  intro operations
  have capacity : (start settings).heap.capacity = settings.heapSize.toNat := Array.size_replicate
  have empty : (start settings).heap.Filled (Encoding.encode first) 0 := Heap.filled_empty _ _ _
  obtain ⟨filled, same, quiet⟩ := pushes_fill addressableFirst count empty (by
    rw [capacity, Nat.zero_add]
    omega)
  rw [Nat.zero_add] at filled
  let full : Machine := after (List.replicate count (.push first)) (start settings)
  have used : full.heap.used + (Encoding.encode last).length ≤ full.heap.capacity := by
    rw [filled.used, same, capacity]
    exact room
  let pushed : Machine := { full with
    storage := full.heap.appended (Encoding.encode last)
    stack := ⟨UInt32.ofNat full.heap.slots.size, 0⟩ :: full.stack }
  have push : enact (Operation.push last).perform full = (.ok .done, pushed) :=
    enact_bind_ok (enact_push_appended addressableLast filled.free used) _
  have fronted : pushed.heap.Fronted (Encoding.encode first) := by
    refine (filled.fronted positive).appended (Encoding.encode last) ?_ used
    rw [filled.used]
    exact Nat.le_mul_of_pos_left _ positive
  have wrapped : UInt32.ofNat full.heap.slots.size = 0 := by
    rw [filled.slots]
    exact wraps
  have top : enact (Operation.level 1).perform pushed =
      ((Encoding.reading (Encoding.encode first)).map .value, pushed) := by
    have read : enact (Machine.level 1) pushed =
        (Encoding.reading (Encoding.encode first), pushed) := by
      have handle : enact (levelHandle 1) pushed =
          (.ok ⟨UInt32.ofNat full.heap.slots.size, 0⟩, pushed) := rfl
      rw [wrapped] at handle
      refine (enact_bind_ok handle _).trans ?_
      rw [Link.enact_value]
      exact congrArg (·, pushed) (WatchedHeap.valueOf_eq_reading fronted.get?)
    cases value : Encoding.reading (Encoding.encode first) with
    | ok value =>
      rw [value] at read
      exact enact_bind_ok read _
    | error fault =>
      rw [value] at read
      exact enact_bind_error read _
  refine ⟨trace (List.replicate count (.push first)) (start settings) ++
    [⟨.push last, .ok .done, view pushed⟩], view pushed, ?_, ?_⟩
  · rw [trace_append, trace, push, trace, top, List.append_assoc]
    rfl
  · intro event among
    rcases List.mem_append.mp among with among | among
    · exact quiet event among
    · rw [List.mem_singleton.mp among]

/-- A machine that keeps the values reads on top of the stack what was pushed last. -/
theorem level_direct {last : Value} (conforming : Encoding.Conforming last)
    (machine : Machine Unit (Outcome Value)) :
    ∃ before view, trace [.push last, .level 1] machine =
      [before, ⟨.level 1, .ok (.value last), view⟩] := by
  have pushed : enact (push last) machine =
      (.ok (), { machine with stack := .ok last :: machine.stack }) :=
    enact_bind_ok (make_direct last conforming machine) _
  have performed : enact (Operation.push last).perform machine =
      (.ok .done, { machine with stack := .ok last :: machine.stack }) :=
    enact_bind_ok pushed _
  rw [trace, trace, performed]
  exact ⟨_, _, rfl⟩

/-- When the number of objects on the heap is cut to zero, the heap is seen: the next level shows
another value than the one that was pushed. -/
theorem wrapped_visible {settings : Settings} {first last : Value} {count : Nat}
    (positive : 0 < count) (wraps : UInt32.ofNat count = 0)
    (conformingFirst : Encoding.Conforming first) (conformingLast : Encoding.Conforming last)
    (different : first ≠ last)
    (room : count * (Encoding.encode first).length + (Encoding.encode last).length ≤
      settings.heapSize.toNat) :
    let operations := List.replicate count (.push first) ++ [.push last, .level 1]
    (∀ event ∈ trace operations (start settings), event.answer ≠ .error .outOfMemory) ∧
      trace operations (start settings) ≠ trace operations (direct settings.toPreferences) := by
  intro operations
  obtain ⟨before, view, shape, quiet⟩ := level_wrapped positive wraps conformingFirst.addressable
    conformingLast.addressable room
  rw [Encoding.reading_encode conformingFirst] at shape
  constructor
  · intro event among
    rw [shape] at among
    rcases List.mem_append.mp among with among | among
    · rw [quiet event among]
      simp
    · rw [List.mem_singleton.mp among]
      simp [Except.map]
  · intro same
    obtain ⟨pushed, last, kept⟩ := level_direct conformingLast
      (after (List.replicate count (.push first)) (direct settings.toPreferences))
    rw [shape, trace_append, kept] at same
    have answers := congrArg (fun events : List Event => events.getLast?.map Event.answer) same
    rw [List.getLast?_append_of_ne_nil _ (by simp), List.getLast?_append_of_ne_nil _ (by simp)]
      at answers
    exact different (Answer.value.inj (Except.ok.inj (Option.some.inj answers)))

/-- While every operation succeeds, none fails for want of memory. -/
theorem untold_of_isOk {events : List Event}
    (fine : (events.all fun event => event.answer.isOk) = true) :
    ∀ event ∈ events, event.answer ≠ .error .outOfMemory := by
  intro event among same
  have succeeded := List.all_eq_true.mp fine event among
  rw [same] at succeeded
  simp [Except.isOk, Except.toBool] at succeeded

/-- Three ways in which the heap is seen although no operation fails for want of memory. A search
passes over a sample for which there was no memory left, and finds another root; a collection
tells how many bytes it gave back, which depends on when the heap was collected before; and when
there are more objects than a word can number, a level shows the value of another object. -/
theorem heap_visible :
    (let settings : Settings := { precision := .decimal32, heapSize := 40, heapLimit := 40 }
      let operations : List Operation :=
        [.store ⟨"N"⟩ (.program [.expression [.symbol ⟨"N"⟩], .command .purge, .ofInt 60,
            .command .factorial]),
          .push (.program [.symbol ⟨"N"⟩, .command .drop, .ofInt 0]),
          .push (.expression [.symbol ⟨"X"⟩]), .push (.ofInt 1), .command .root]
      (∀ event ∈ trace operations (start settings), event.answer ≠ .error .outOfMemory) ∧
        trace operations (start settings) ≠ trace operations (direct settings.toPreferences)) ∧
    (let small : Settings := { heapSize := 3, heapLimit := 16 }
      let large : Settings := { heapSize := 16, heapLimit := 16 }
      let operations : List Operation := [.push (.ofInt 1), .clear, .push (.ofInt 1), .clear]
      (∀ event ∈ trace operations (start small), event.answer ≠ .error .outOfMemory) ∧
        (enact Machine.collect (after operations (start small))).1 = .ok 2 ∧
        (enact Machine.collect (after operations (start large))).1 = .ok 4) ∧
    (let settings : Settings := { heapSize := 17179869184 }
      let operations : List Operation :=
        List.replicate UInt32.size (.push (.ofInt 1)) ++ [.push (.ofInt 2), .level 1]
      (∀ event ∈ trace operations (start settings), event.answer ≠ .error .outOfMemory) ∧
        trace operations (start settings) ≠ trace operations (direct settings.toPreferences)) := by
  refine ⟨⟨untold_of_isOk (by decide +kernel), ?_⟩,
    ⟨untold_of_isOk (by decide +kernel), ?_, ?_⟩, ?_⟩
  · intro same
    have shown := congrArg (fun events : List Event => events.map fun event =>
      event.view.stack.map fun level => level.toOption.map Encoding.encode) same
    exact absurd shown (by decide +kernel)
  · decide +kernel
  · decide +kernel
  · have lengthOne : (Encoding.encode (.ofInt 1)).length = 2 := by decide +kernel
    have lengthTwo : (Encoding.encode (.ofInt 2)).length = 2 := by decide +kernel
    have conformingOne : Encoding.Conforming (.ofInt 1) := Encoding.conforming_word _
    have conformingTwo : Encoding.Conforming (.ofInt 2) := Encoding.conforming_word _
    have different : Value.ofInt 1 ≠ .ofInt 2 := fun same =>
      absurd (congrArg Encoding.encode same) (by decide +kernel)
    refine wrapped_visible (by decide) (by decide) conformingOne conformingTwo different ?_
    rw [lengthOne, lengthTwo]
    decide

end Calculator.Session
