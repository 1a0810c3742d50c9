import Calculator.Proofs.Memory.Region
import Mathlib

/-!
# The layout of the heap

The slots with objects occupy stretches that lie side by side and fill the bytes in use, and
the slots without objects are free, each of them once. Placing an object and growing keep
the layout, as long as the number of a slot fits the word that handles have for it.
-/

namespace Calculator.Heap

/-! ## Slots -/

/-- The slot with a number. Beyond the last slot there is one without an object. -/
def slotAt (heap : Heap) (index : Nat) : Slot := (heap.slots[index]?).getD default

/-- The bytes of the stretch that a slot stands for. -/
def content (heap : Heap) (index : Nat) : List UInt8 :=
  (heap.memory.extract (heap.slotAt index).offset (heap.slotAt index).stop).toList

/-- A slot with an object is one of the slots there are. -/
theorem lt_size_of_live {heap : Heap} {index : Nat} (live : (heap.slotAt index).live = true) :
    index < heap.slots.size := by
  by_contra beyond
  rw [slotAt, Array.getElem?_eq_none (by omega)] at live
  exact absurd live (by decide)

/-- The slot with a number, if there is one. -/
theorem getElem?_slots {heap : Heap} {index : Nat} (inside : index < heap.slots.size) :
    heap.slots[index]? = some (heap.slotAt index) := by
  rw [slotAt, Array.getElem?_eq_getElem inside, Option.getD_some]

/-- The slots by their numbers. -/
theorem slots_toList (heap : Heap) :
    heap.slots.toList = (List.range heap.slots.size).map heap.slotAt := by
  apply List.ext_getElem?
  intro index
  rw [List.getElem?_map, Array.getElem?_toList]
  by_cases inside : index < heap.slots.size
  · rw [getElem?_slots inside, List.getElem?_range inside]
    rfl
  · rw [Array.getElem?_eq_none (by omega), List.getElem?_eq_none (by simpa using inside)]
    rfl

/-- Replacing a slot changes that slot only. -/
theorem slotAt_set (heap : Heap) (index other : Nat) (slot : Slot)
    (inside : index < heap.slots.size) :
    ({ heap with slots := heap.slots.setIfInBounds index slot } : Heap).slotAt other =
      if index = other then slot else heap.slotAt other := by
  simp only [slotAt, Array.getElem?_setIfInBounds]
  by_cases same : index = other
  · rw [if_pos same, if_pos same, if_pos (same ▸ inside), Option.getD_some]
  · rw [if_neg same, if_neg same]

/-- The object behind a handle is that of its slot, if the slot has one and is still in the
generation of the handle. -/
theorem get?_eq (heap : Heap) (handle : Handle) :
    heap.get? handle =
      if (heap.slotAt handle.slot.toNat).live = true ∧
          (heap.slotAt handle.slot.toNat).generation = handle.generation
        then some (heap.content handle.slot.toNat) else none := by
  rw [get?, slot?, content]
  by_cases inside : handle.slot.toNat < heap.slots.size
  · rw [getElem?_slots inside]
    by_cases valid : (heap.slotAt handle.slot.toNat).live = true ∧
        (heap.slotAt handle.slot.toNat).generation = handle.generation
    · simp [Option.filter, valid]
    · rw [if_neg valid]
      simpa [Option.filter] using valid
  · rw [if_neg fun valid => inside (lt_size_of_live valid.1), Array.getElem?_eq_none (by omega)]
    rfl

/-- A handle is valid if its slot has an object and is still in the generation of the handle. -/
theorem isValid_iff (heap : Heap) (handle : Handle) :
    heap.isValid handle = true ↔
      (heap.slotAt handle.slot.toNat).live = true ∧
        (heap.slotAt handle.slot.toNat).generation = handle.generation := by
  have object := get?_eq heap handle
  rw [isValid, ← Option.isSome_map (f := fun slot =>
    (heap.memory.extract slot.offset slot.stop).toList), ← get?, object]
  split <;> simp [*]

/-! ## Stretches side by side -/

/-- Whether the stretches of slots lie side by side, in this order, and fill all that is between
two positions. -/
def Contiguous (start : Nat) : List Slot → Nat → Prop
  | [], stop => start = stop
  | slot :: slots, stop => slot.offset = start ∧ Contiguous slot.stop slots stop

/-- Two rows of stretches that meet are one. -/
theorem Contiguous.append {start middle stop : Nat} {first second : List Slot}
    (front : Contiguous start first middle) (back : Contiguous middle second stop) :
    Contiguous start (first ++ second) stop := by
  induction first generalizing start with
  | nil =>
    obtain rfl : start = middle := front
    exact back
  | cons slot slots inductionHypothesis =>
    exact ⟨front.1, inductionHypothesis front.2⟩

/-- The stretches are as long as all they fill. -/
theorem Contiguous.length {start stop : Nat} {slots : List Slot}
    (filled : Contiguous start slots stop) :
    start + (slots.map Slot.length).sum = stop := by
  induction slots generalizing start with
  | nil => exact filled
  | cons slot slots inductionHypothesis =>
    obtain ⟨begins, others⟩ := filled
    have rest := inductionHypothesis others
    rw [Slot.stop] at rest
    rw [List.map_cons, List.sum_cons]
    omega

/-- Every stretch lies in what they fill. -/
theorem Contiguous.inside {start stop : Nat} {slots : List Slot}
    (filled : Contiguous start slots stop) {slot : Slot} (among : slot ∈ slots) :
    start ≤ slot.offset ∧ slot.stop ≤ stop := by
  induction slots generalizing start with
  | nil => simp at among
  | cons first slots inductionHypothesis =>
    obtain ⟨begins, others⟩ := filled
    have length := others.length
    rcases List.mem_cons.mp among with rfl | later
    · omega
    · obtain ⟨lower, upper⟩ := inductionHypothesis others later
      rw [Slot.stop] at lower
      omega

/-- Each stretch ends before the later ones begin. -/
theorem Contiguous.pairwise {start stop : Nat} {slots : List Slot}
    (filled : Contiguous start slots stop) :
    slots.Pairwise fun earlier later => earlier.stop ≤ later.offset := by
  induction slots generalizing start with
  | nil => exact .nil
  | cons slot slots inductionHypothesis =>
    exact .cons (fun later among => (filled.2.inside among).1) (inductionHypothesis filled.2)

/-- Every position in what they fill lies in one of the stretches. -/
theorem Contiguous.covers {start stop : Nat} {slots : List Slot}
    (filled : Contiguous start slots stop) (position : Nat) (above : start ≤ position)
    (below : position < stop) :
    ∃ slot ∈ slots, slot.offset ≤ position ∧ position < slot.stop := by
  induction slots generalizing start with
  | nil =>
    obtain rfl : start = stop := filled
    omega
  | cons slot slots inductionHypothesis =>
    by_cases here : position < slot.stop
    · exact ⟨slot, List.mem_cons_self, by rw [filled.1]; exact above, here⟩
    · obtain ⟨found, among, holds⟩ := inductionHypothesis filled.2 (Nat.le_of_not_lt here)
      exact ⟨found, List.mem_cons_of_mem slot among, holds⟩

/-! ## The layout -/

/-- Whether the slots with these numbers are those with objects, and their stretches lie side by
side in this order and fill the bytes in use. -/
structure Tiles (heap : Heap) (order : List Nat) : Prop where
  distinct : order.Nodup
  live : ∀ index, index ∈ order ↔ (heap.slotAt index).live = true
  filled : Contiguous 0 (order.map heap.slotAt) heap.used

/-- The layout of a heap on which nothing was done but what a heap can do. -/
structure Sound (heap : Heap) : Prop where
  /-- The stretches of the objects fill the bytes in use. -/
  tiled : ∃ order, heap.Tiles order
  /-- The bytes in use are among the bytes there are. -/
  bounded : heap.used ≤ heap.capacity
  /-- There are no more bytes than the limit allows. -/
  capped : heap.capacity ≤ heap.limit
  /-- The number of every slot is a word. -/
  few : heap.slots.size ≤ UInt32.size
  /-- No slot is free twice. -/
  freeOnce : heap.free.Nodup
  /-- The free slots are those without objects. -/
  freeDead : ∀ index, index ∈ heap.free ↔
    index.toNat < heap.slots.size ∧ (heap.slotAt index.toNat).live = false

/-- The stretch of an object ends within the bytes in use. -/
theorem Sound.stop_le {heap : Heap} (sound : heap.Sound) {index : Nat}
    (live : (heap.slotAt index).live = true) : (heap.slotAt index).stop ≤ heap.used := by
  obtain ⟨order, tiles⟩ := sound.tiled
  exact (tiles.filled.inside (List.mem_map_of_mem ((tiles.live index).mpr live))).2

/-- The stretches of two objects lie apart. -/
theorem Sound.apart {heap : Heap} (sound : heap.Sound) {first second : Nat}
    (liveFirst : (heap.slotAt first).live = true) (liveSecond : (heap.slotAt second).live = true)
    (distinct : first ≠ second) :
    (heap.slotAt first).stop ≤ (heap.slotAt second).offset ∨
      (heap.slotAt second).stop ≤ (heap.slotAt first).offset := by
  obtain ⟨order, tiles⟩ := sound.tiled
  have ordered := List.pairwise_map.mp tiles.filled.pairwise
  let Apart (one other : Nat) : Prop :=
    (heap.slotAt one).stop ≤ (heap.slotAt other).offset ∨
      (heap.slotAt other).stop ≤ (heap.slotAt one).offset
  have symmetric : Std.Symm Apart := ⟨fun _ _ => Or.symm⟩
  have either : order.Pairwise Apart := ordered.imp Or.inl
  exact either.forall ((tiles.live first).mpr liveFirst) ((tiles.live second).mpr liveSecond)
    distinct

/-- However the slots with objects are listed, their objects are as long as the bytes in use. -/
theorem Sound.total {heap : Heap} (sound : heap.Sound) {listed : List Nat}
    (distinct : listed.Nodup)
    (members : ∀ index, index ∈ listed ↔ (heap.slotAt index).live = true) :
    (listed.map fun index => (heap.slotAt index).length).sum = heap.used := by
  obtain ⟨order, tiles⟩ := sound.tiled
  have arranged : order.Perm listed :=
    (List.perm_ext_iff_of_nodup tiles.distinct distinct).mpr fun index =>
      (tiles.live index).trans (members index).symm
  have length := tiles.filled.length
  rw [List.map_map, Nat.zero_add] at length
  rw [← length]
  exact (arranged.map _).sum_eq.symm

/-- A heap without objects has the layout. -/
theorem sound_empty (capacity limit : Nat) : (empty capacity limit).Sound where
  tiled := by
    refine ⟨[], List.nodup_nil, fun index => ?_, rfl⟩
    have dead : ((empty capacity limit).slotAt index).live = false := rfl
    simp [dead]
  bounded := Nat.zero_le _
  capped := by
    rw [Heap.capacity, empty, Array.size_replicate]
    exact Nat.le_max_right limit capacity
  few := Nat.zero_le _
  freeOnce := List.nodup_nil
  freeDead index := by simp [empty]

end Calculator.Heap
