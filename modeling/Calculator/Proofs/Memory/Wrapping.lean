import Calculator.Proofs.Memory.Layout
import Mathlib

/-!
# Numbers of slots that wrap

The number of a new slot is cut to a word. A heap on which nothing was done but to place objects
makes a slot for every one of them, so the handle of an object depends on the number of objects
before it only up to the size of a word: with as many objects as a word can number, the next one
has the handle of the first one, which still has its object.
-/

namespace Calculator.Heap

/-- The first slot still is in its first generation and has an object at the front. -/
structure Fronted (object : List UInt8) (heap : Heap) : Prop where
  slot : heap.slots[0]? = some ⟨0, object.length, 0, true⟩
  bytes : (heap.memory.extract 0 (0 + object.length)).toList = object

/-- A heap on which an object was placed some times and nothing else was done. -/
structure Filled (object : List UInt8) (count : Nat) (heap : Heap) : Prop where
  free : heap.free = []
  slots : heap.slots.size = count
  used : heap.used = count * object.length
  fronted : 0 < count → heap.Fronted object

/-- Nothing was done to a heap without objects. -/
theorem filled_empty (capacity limit : Nat) (object : List UInt8) :
    (empty capacity limit).Filled object 0 where
  free := rfl
  slots := rfl
  used := (Nat.zero_mul _).symm
  fronted := by simp

/-- The object at the front has the handle of the first slot. -/
theorem Fronted.get? {heap : Heap} {object : List UInt8} (fronted : heap.Fronted object) :
    heap.get? ⟨0, 0⟩ = some object := by
  have slot : heap.slotAt 0 = ⟨0, object.length, 0, true⟩ := by
    rw [slotAt, fronted.slot]
    rfl
  rw [get?_eq]
  change (if (heap.slotAt 0).live = true ∧ (heap.slotAt 0).generation = 0 then
    some (heap.content 0) else none) = _
  rw [content, slot, if_pos ⟨rfl, rfl⟩]
  exact congrArg some fronted.bytes

/-- The heap after an object got a slot of its own. -/
def appended (heap : Heap) (object : List UInt8) : Heap :=
  { heap with
    slots := heap.slots.push ⟨heap.used, object.length, 0, true⟩
    memory := write heap.memory heap.used object
    used := heap.used + object.length }

/-- If there is room for an object and no slot is free, the object gets a slot of its own, whose
number is cut to a word. -/
theorem allocate?_eq_appended {heap : Heap} (object : List UInt8) (full : heap.free = [])
    (room : heap.used + object.length ≤ heap.capacity) :
    heap.allocate? object = some (⟨UInt32.ofNat heap.slots.size, 0⟩, heap.appended object) := by
  have enough : ¬ heap.available < object.length := by
    rw [available]
    omega
  obtain ⟨memory, used, limit, slots, free, collections, reclaimed⟩ := heap
  obtain rfl : free = [] := full
  rw [allocate?, if_neg enough]
  rfl

/-- The object at the front stays there when another one is placed behind it. -/
theorem Fronted.appended {heap : Heap} {object : List UInt8} (fronted : heap.Fronted object)
    (other : List UInt8) (behind : object.length ≤ heap.used)
    (room : heap.used + other.length ≤ heap.capacity) :
    (heap.appended other).Fronted object := by
  have inside : 0 < heap.slots.size := (Array.getElem?_eq_some_iff.mp fronted.slot).1
  constructor
  · rw [Heap.appended, Array.getElem?_push_lt inside, ← Array.getElem?_eq_getElem inside]
    exact fronted.slot
  · rw [Heap.appended, extract_write_apart _ _ _ _ _ room (by omega)]
    exact fronted.bytes

/-- A filled heap can be filled further. -/
theorem Filled.appended {heap : Heap} {object : List UInt8} {count : Nat}
    (filled : heap.Filled object count) (room : heap.used + object.length ≤ heap.capacity) :
    (heap.appended object).Filled object (count + 1) := by
  refine ⟨filled.free, ?_, ?_, fun _ => ?_⟩
  · rw [Heap.appended, Array.size_push, filled.slots]
  · rw [Heap.appended, filled.used, Nat.succ_mul]
  · rcases Nat.eq_zero_or_pos count with rfl | positive
    · have used : heap.used = 0 := filled.used.trans (Nat.zero_mul _)
      have none : heap.slots = #[] := Array.eq_empty_of_size_eq_zero filled.slots
      constructor
      · simp [Heap.appended, none, used]
      · rw [Heap.appended, used]
        rw [used] at room
        exact extract_write heap.memory 0 object room
    · refine (filled.fronted positive).appended object ?_ room
      rw [filled.used]
      exact Nat.le_mul_of_pos_left _ positive

end Calculator.Heap
