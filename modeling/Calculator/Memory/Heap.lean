/-!
# The heap

One row of bytes that holds the encodings of objects, and the slots through which the
objects are reached. A handle names a slot and the generation of the object in it. New
objects are placed behind all others; a collection removes the objects that no root names
and slides the others together, so the objects always lie side by side from the first
byte on. A slot that lost its object moves on to the next generation before it is used
again, and handles of an earlier generation are no longer valid.

The capacity is how many bytes the heap has at present. It grows on request, but never
beyond its limit.
-/

namespace Calculator

/-- A reference to an object on the heap. -/
structure Handle where
  /-- The position of the object's slot, as a machine word. -/
  slot : UInt32
  /-- The generation the slot was in when the object was placed. -/
  generation : UInt32
deriving DecidableEq, Repr, Inhabited

/-- The place of an object on the heap, or a place that is free to be used again. -/
structure Slot where
  /-- The position of the object's first byte. -/
  offset : Nat
  /-- The number of the object's bytes. -/
  length : Nat
  /-- How many objects the slot has lost, as a machine word. -/
  generation : UInt32
  /-- Whether the slot holds an object. -/
  live : Bool
deriving DecidableEq, Repr, Inhabited

/-- The position behind the object's last byte. -/
def Slot.stop (slot : Slot) : Nat := slot.offset + slot.length

/-- The bytes of the heap, its slots, and what it has done so far. -/
structure Heap where
  /-- All bytes of the heap. Those behind the bytes in use belong to no object. -/
  memory : Array UInt8
  /-- The number of bytes in use, those of collected objects among them until the next
  collection. -/
  used : Nat
  limit : Nat
  slots : Array Slot
  /-- The slots without an object, the one to be used next in front. -/
  free : List UInt32
  collections : Nat
  /-- The bytes that all collections together gave back. -/
  reclaimed : Nat
deriving Repr, Inhabited

namespace Heap

/-- A heap without objects. The limit is never below the capacity it begins with. -/
def empty (capacity limit : Nat) : Heap :=
  ⟨Array.replicate capacity 0, 0, max limit capacity, #[], [], 0, 0⟩

/-- The number of bytes of the heap. -/
def capacity (heap : Heap) : Nat := heap.memory.size

/-- The number of bytes that can be placed without a collection or growth. -/
def available (heap : Heap) : Nat := heap.capacity - heap.used

/-! ## Bytes -/

/-- Writes bytes into the memory from a position on. -/
def write (memory : Array UInt8) (position : Nat) : List UInt8 → Array UInt8
  | [] => memory
  | byte :: bytes => write (memory.setIfInBounds position byte) (position + 1) bytes

/-- Moves bytes toward the front of the memory, one after the other. The stretch they come
from and the one they go to may overlap. -/
def slide (memory : Array UInt8) (source target : Nat) : Nat → Array UInt8
  | 0 => memory
  | count + 1 =>
    let byte := (memory[source]?).getD 0
    slide (memory.setIfInBounds target byte) (source + 1) (target + 1) count

/-! ## Placing and reading objects -/

/-- Puts a slot to use: the one that became free last, or else a new one. The position of a
new slot is cut to a machine word. -/
def occupy (heap : Heap) (offset length : Nat) : Handle × Heap :=
  match heap.free with
  | index :: free =>
    let generation := (heap.slots[index.toNat]?.map Slot.generation).getD 0
    let slot : Slot := ⟨offset, length, generation, true⟩
    (⟨index, generation⟩, { heap with slots := heap.slots.setIfInBounds index.toNat slot, free })
  | [] =>
    let slots := heap.slots.push ⟨offset, length, 0, true⟩
    (⟨UInt32.ofNat heap.slots.size, 0⟩, { heap with slots })

/-- Places an object behind all others, if there is room for it. -/
def allocate? (heap : Heap) (object : List UInt8) : Option (Handle × Heap) :=
  if heap.available < object.length then none
  else
    let (handle, heap) := heap.occupy heap.used object.length
    some (handle, { heap with
      memory := write heap.memory heap.used object
      used := heap.used + object.length })

/-- The slot of a handle that is still valid. -/
def slot? (heap : Heap) (handle : Handle) : Option Slot :=
  (heap.slots[handle.slot.toNat]?).filter fun slot =>
    slot.live && slot.generation == handle.generation

/-- Whether a handle still refers to the object it was made for. -/
def isValid (heap : Heap) (handle : Handle) : Bool := (heap.slot? handle).isSome

/-- The bytes of the object behind a handle. -/
def get? (heap : Heap) (handle : Handle) : Option (List UInt8) :=
  (heap.slot? handle).map fun slot => (heap.memory.extract slot.offset slot.stop).toList

/-! ## Collection and growth -/

/-- For every slot, whether one of the roots names its object. -/
def marks (heap : Heap) (roots : List Handle) : Array Bool :=
  roots.foldl
    (fun marks root =>
      if heap.isValid root then marks.setIfInBounds root.slot.toNat true else marks)
    (Array.replicate heap.slots.size false)

/-- Puts a slot in front of the first of the others whose object does not lie before its own. -/
def insertSlot (heap : Heap) (index : Nat) : List Nat → List Nat
  | [] => [index]
  | other :: others =>
    let offset (index : Nat) : Nat := (heap.slots[index]?.map Slot.offset).getD 0
    if offset index ≤ offset other then index :: other :: others
    else other :: insertSlot heap index others

/-- The slots that hold objects, in the order of their objects. -/
def liveSlots (heap : Heap) : List Nat :=
  let live := (List.range heap.slots.size).filter fun index =>
    (heap.slots[index]?.map Slot.live).getD false
  live.foldr heap.insertSlot []

/-- Takes the object out of a slot, which thereby enters its next generation. -/
def discard (heap : Heap) (index : Nat) (slot : Slot) : Heap :=
  let slot := { slot with generation := slot.generation + 1, live := false }
  { heap with
    slots := heap.slots.setIfInBounds index slot
    free := UInt32.ofNat index :: heap.free }

/-- Moves the object of a slot behind those that have been kept. -/
def keep (heap : Heap) (index : Nat) (slot : Slot) : Heap :=
  if slot.offset = heap.used then { heap with used := heap.used + slot.length }
  else { heap with
    memory := slide heap.memory slot.offset heap.used slot.length
    slots := heap.slots.setIfInBounds index { slot with offset := heap.used }
    used := heap.used + slot.length }

/-- Keeps or discards the object of a slot. -/
def settle (marks : Array Bool) (heap : Heap) (index : Nat) : Heap :=
  match heap.slots[index]? with
  | none => heap
  | some slot => if (marks[index]?).getD false then heap.keep index slot else heap.discard index slot

/-- Removes every object that none of the roots names and slides the others together. Tells
how many bytes that gave back. -/
def collect (heap : Heap) (roots : List Handle) : Nat × Heap :=
  let settled := heap.liveSlots.foldl (settle (heap.marks roots)) { heap with used := 0 }
  let reclaimed := heap.used - settled.used
  (reclaimed, { settled with
    collections := heap.collections + 1, reclaimed := heap.reclaimed + reclaimed })

/-- Makes room for so many bytes more, unless that exceeds the limit. The capacity at least
doubles as long as the limit allows it. -/
def grow? (heap : Heap) (needed : Nat) : Option Heap :=
  let required := heap.used + needed
  if heap.limit < required then none
  else
    let capacity := min (max (heap.capacity * 2) required) heap.limit
    let added := Array.replicate (capacity - heap.capacity) 0
    some { heap with memory := heap.memory ++ added }

/-- Places an object. Lacking room, the heap is collected first, and only if that is not
enough does it grow. -/
def place? (heap : Heap) (roots : List Handle) (object : List UInt8) : Option Handle × Heap :=
  match heap.allocate? object with
  | some (handle, heap) => (some handle, heap)
  | none =>
    let (_, heap) := heap.collect roots
    match heap.allocate? object with
    | some (handle, heap) => (some handle, heap)
    | none =>
      match heap.grow? object.length with
      | none => (none, heap)
      | some heap =>
        match heap.allocate? object with
        | some (handle, heap) => (some handle, heap)
        | none => (none, heap)

/-- The number of objects on the heap. -/
def liveCount (heap : Heap) : Nat := heap.slots.toList.countP Slot.live

end Heap

end Calculator
