import Calculator.Proofs.Memory.Layout
import Mathlib

/-!
# Placing objects and growing

An object that is placed goes behind all others into a slot that had none, and no other slot
notices. Growing changes nothing that anyone can read.
-/

namespace Calculator.Heap

/-- What is known of a heap on which a slot was put to use. -/
structure Occupied (heap : Heap) (offset length : Nat) (handle : Handle) (next : Heap) : Prop where
  /-- The slot had no object. -/
  dead : (heap.slotAt handle.slot.toNat).live = false
  /-- The handle is of the generation that the slot is in. -/
  generation : (heap.slotAt handle.slot.toNat).generation = handle.generation
  /-- The slot stands for the given stretch. -/
  placed : next.slotAt handle.slot.toNat = ⟨offset, length, handle.generation, true⟩
  /-- All other slots are as before. -/
  others : ∀ index ≠ handle.slot.toNat, next.slotAt index = heap.slotAt index
  /-- No slot is free twice. -/
  freeOnce : next.free.Nodup
  /-- The free slots are those without objects. -/
  freeDead : ∀ index, index ∈ next.free ↔
    index.toNat < next.slots.size ∧ (next.slotAt index.toNat).live = false
  /-- There are no fewer slots. -/
  more : heap.slots.size ≤ next.slots.size
  /-- Nothing else has changed. -/
  rest : next = { heap with slots := next.slots, free := next.free }

/-- While no slot is free, the next number is put to use. -/
theorem occupied_appended {heap : Heap} {offset length : Nat} (sound : heap.Sound)
    (free : heap.free = []) (fits : heap.slots.size < UInt32.size) :
    Occupied heap offset length ⟨UInt32.ofNat heap.slots.size, 0⟩
      { heap with slots := heap.slots.push ⟨offset, length, 0, true⟩, free := [] } := by
  have number : (UInt32.ofNat heap.slots.size).toNat = heap.slots.size :=
    UInt32.toNat_ofNat_of_lt' fits
  have beyond : heap.slotAt heap.slots.size = default := by
    rw [slotAt, Array.getElem?_eq_none (Nat.le_refl _)]
    rfl
  constructor
  case dead =>
    simp only [number, beyond]
    rfl
  case generation =>
    simp only [number, beyond]
    rfl
  case placed =>
    simp only [number, slotAt, Array.getElem?_push_size]
    rfl
  case others =>
    intro index other
    simp only [number] at other
    simp only [slotAt, Array.getElem?_push, if_neg other]
  case freeOnce => exact List.nodup_nil
  case freeDead =>
    intro index
    constructor
    · intro impossible
      exact absurd impossible List.not_mem_nil
    · rintro ⟨inside, dead⟩
      -- A dead slot would have been free before, or it is the new one, which is not dead.
      by_cases new : index.toNat = heap.slots.size
      · simp only [slotAt, new, Array.getElem?_push_size] at dead
        exact absurd dead (by simp)
      · rw [Array.size_push] at inside
        simp only [slotAt, Array.getElem?_push, if_neg new] at dead
        have before := (sound.freeDead index).mpr ⟨by omega, dead⟩
        rw [free] at before
        exact absurd before List.not_mem_nil
  case more =>
    rw [Array.size_push]
    exact Nat.le_succ _
  case rest => rfl

/-- While some slots are free, the first of them is put to use. -/
theorem occupied_recycled {heap : Heap} {offset length : Nat} {index : UInt32}
    {others : List UInt32} (sound : heap.Sound) (free : heap.free = index :: others) :
    Occupied heap offset length ⟨index, (heap.slotAt index.toNat).generation⟩
      { heap with
        slots := heap.slots.setIfInBounds index.toNat
          ⟨offset, length, (heap.slotAt index.toNat).generation, true⟩
        free := others } := by
  obtain ⟨inside, dead⟩ := (sound.freeDead index).mp (free ▸ List.mem_cons_self)
  obtain ⟨absent, distinct⟩ := List.nodup_cons.mp (free ▸ sound.freeOnce)
  have slots (other : Nat) (slot : Slot) :
      ({ heap with
        slots := heap.slots.setIfInBounds index.toNat slot, free := others } : Heap).slotAt other =
        if index.toNat = other then slot else heap.slotAt other :=
    slotAt_set heap index.toNat other slot inside
  constructor
  case dead => exact dead
  case generation => rfl
  case placed => rw [slots, if_pos rfl]
  case others =>
    intro other distinctIndex
    rw [slots, if_neg distinctIndex.symm]
  case freeOnce => exact distinct
  case freeDead =>
    intro other
    rw [slots, Array.size_setIfInBounds]
    have before := sound.freeDead other
    rw [free, List.mem_cons] at before
    by_cases same : index = other
    · subst same
      simp [absent]
    · have numbers : index.toNat ≠ other.toNat := fun equal => same (UInt32.toNat_inj.mp equal)
      rw [if_neg numbers, ← before]
      simp [Ne.symm same]
  case more => simp
  case rest => rfl

/-- Putting a slot to use takes a free one or the next number. -/
theorem occupy_spec {heap next : Heap} {offset length : Nat} {handle : Handle}
    (sound : heap.Sound) (taking : heap.occupy offset length = (handle, next))
    (few : next.slots.size ≤ UInt32.size) : Occupied heap offset length handle next := by
  cases free : heap.free with
  | nil =>
    simp only [occupy, free, Prod.mk.injEq] at taking
    obtain ⟨rfl, rfl⟩ := taking
    rw [Array.size_push] at few
    exact occupied_appended sound free few
  | cons index others =>
    obtain ⟨inside, -⟩ := (sound.freeDead index).mp (free ▸ List.mem_cons_self)
    have generation : (heap.slots[index.toNat]?.map Slot.generation).getD 0 =
        (heap.slotAt index.toNat).generation := by
      rw [getElem?_slots inside]
      rfl
    simp only [occupy, free, generation, Prod.mk.injEq] at taking
    obtain ⟨rfl, rfl⟩ := taking
    exact occupied_recycled sound free

/-- One more slot with a stretch behind all others extends the layout. -/
theorem Tiles.extended {heap next : Heap} {order : List Nat} (tiles : heap.Tiles order)
    {index length : Nat} {generation : UInt32} (dead : (heap.slotAt index).live = false)
    (placed : next.slotAt index = ⟨heap.used, length, generation, true⟩)
    (others : ∀ other ≠ index, next.slotAt other = heap.slotAt other)
    (used : next.used = heap.used + length) : next.Tiles (order ++ [index]) := by
  have absent : index ∉ order := by
    rw [tiles.live, dead]
    simp
  constructor
  · rw [List.nodup_append]
    refine ⟨tiles.distinct, List.nodup_singleton index, ?_⟩
    rintro other among _ here rfl
    exact absent (List.mem_singleton.mp here ▸ among)
  · intro other
    rw [List.mem_append, List.mem_singleton, tiles.live]
    by_cases here : other = index
    · subst here
      simp [placed]
    · rw [others other here]
      simp [here]
  · have unchanged : order.map next.slotAt = order.map heap.slotAt :=
      List.map_congr_left fun other among => others other fun here => absent (here ▸ among)
    have front : Contiguous 0 (order.map next.slotAt) heap.used := by
      rw [unchanged]
      exact tiles.filled
    have back : Contiguous heap.used [next.slotAt index] next.used := by
      rw [placed, used]
      exact ⟨rfl, rfl⟩
    rw [List.map_append]
    exact front.append back

/-- What is known of a heap on which an object was placed. -/
structure Allocated (heap : Heap) (object : List UInt8) (handle : Handle) (next : Heap) : Prop where
  /-- The layout is kept. -/
  sound : next.Sound
  /-- The slot had no object. -/
  dead : (heap.slotAt handle.slot.toNat).live = false
  /-- The handle is of the generation that the slot is in. -/
  generation : (heap.slotAt handle.slot.toNat).generation = handle.generation
  /-- The slot has an object now. -/
  live : (next.slotAt handle.slot.toNat).live = true
  /-- The slot is still in that generation. -/
  same : (next.slotAt handle.slot.toNat).generation = handle.generation
  /-- The object is that of the slot. -/
  held : next.content handle.slot.toNat = object
  /-- All other slots are as before. -/
  others : ∀ index ≠ handle.slot.toNat, next.slotAt index = heap.slotAt index
  /-- The objects that were there before are still there. -/
  kept : ∀ index, (heap.slotAt index).live = true → next.content index = heap.content index
  /-- The capacity and the limit are as before. -/
  bounds : next.capacity = heap.capacity ∧ next.limit = heap.limit
  /-- There are no fewer slots. -/
  more : heap.slots.size ≤ next.slots.size

/-- Placing an object puts a slot to use for a stretch behind all others and writes it there. -/
theorem allocate?_eq_some {heap next : Heap} {object : List UInt8} {handle : Handle}
    (allocated : heap.allocate? object = some (handle, next)) :
    object.length ≤ heap.available ∧
      ∃ taken, heap.occupy heap.used object.length = (handle, taken) ∧
        next = { taken with
          memory := write taken.memory taken.used object
          used := taken.used + object.length } := by
  rw [allocate?] at allocated
  split at allocated
  · simp at allocated
  · rename_i room
    rw [Option.some.injEq, Prod.mk.injEq] at allocated
    obtain ⟨rfl, rfl⟩ := allocated
    exact ⟨Nat.le_of_not_lt room, _, rfl, rfl⟩

/-- Writing an object into the stretch that a slot was put to use for keeps the layout. -/
theorem Occupied.written {heap taken : Heap} {object : List UInt8} {handle : Handle}
    (occupied : Occupied heap heap.used object.length handle taken) (sound : heap.Sound)
    (few : taken.slots.size ≤ UInt32.size)
    (enough : heap.used + object.length ≤ heap.memory.size) :
    Sound { taken with
      memory := write heap.memory heap.used object
      used := heap.used + object.length } where
  tiled := by
    obtain ⟨order, tiles⟩ := sound.tiled
    exact ⟨_, tiles.extended occupied.dead occupied.placed occupied.others rfl⟩
  bounded := by
    rw [capacity, write_size]
    exact enough
  capped := by
    have capped := sound.capped
    have limit : taken.limit = heap.limit := by rw [occupied.rest]
    rw [capacity] at capped ⊢
    rw [write_size, limit]
    exact capped
  few := few
  freeOnce := occupied.freeOnce
  freeDead := occupied.freeDead

/-- Placing an object that there is room for. -/
theorem allocate?_spec {heap next : Heap} {object : List UInt8} {handle : Handle}
    (sound : heap.Sound) (allocated : heap.allocate? object = some (handle, next))
    (few : next.slots.size ≤ UInt32.size) : Allocated heap object handle next := by
  obtain ⟨room, taken, taking, form⟩ := allocate?_eq_some allocated
  have occupied := occupy_spec sound taking (by rw [form] at few; exact few)
  have written : next = { taken with
      memory := write heap.memory heap.used object
      used := heap.used + object.length } := by
    rw [form, occupied.rest]
  have memory : next.memory = write heap.memory heap.used object := by rw [written]
  have limit : next.limit = heap.limit := by rw [form, occupied.rest]
  have placed : next.slotAt handle.slot.toNat =
      ⟨heap.used, object.length, handle.generation, true⟩ := by
    rw [form]
    exact occupied.placed
  have others (index : Nat) (other : index ≠ handle.slot.toNat) :
      next.slotAt index = heap.slotAt index := by
    rw [form]
    exact occupied.others index other
  have bounded := sound.bounded
  rw [available, capacity] at room
  rw [capacity] at bounded
  have enough : heap.used + object.length ≤ heap.memory.size := by omega
  constructor
  case sound =>
    rw [written] at few ⊢
    exact occupied.written sound few enough
  case dead => exact occupied.dead
  case generation => exact occupied.generation
  case live => rw [placed]
  case same => rw [placed]
  case held =>
    rw [content, placed, memory]
    exact extract_write heap.memory heap.used object enough
  case others => exact others
  case kept =>
    intro index live
    have other : index ≠ handle.slot.toNat := by
      rintro rfl
      rw [occupied.dead] at live
      exact absurd live (by simp)
    rw [content, content, others index other, memory, Slot.stop,
      extract_write_apart _ _ _ _ _ enough (sound.stop_le live)]
  case bounds =>
    rw [capacity, capacity, memory, write_size]
    exact ⟨rfl, limit⟩
  case more =>
    rw [form]
    exact occupied.more

/-- What is known of a heap that has grown. -/
structure Grown (heap next : Heap) : Prop where
  /-- The layout is kept. -/
  sound : next.Sound
  /-- The slots are as before. -/
  slots : next.slots = heap.slots
  /-- The objects are as before. -/
  kept : ∀ index, (heap.slotAt index).live = true → next.content index = heap.content index
  /-- The limit is as before. -/
  limit : next.limit = heap.limit

/-- Growing changes no slot. -/
theorem Grown.slotAt {heap next : Heap} (grown : Grown heap next) (index : Nat) :
    next.slotAt index = heap.slotAt index := by
  rw [Heap.slotAt, Heap.slotAt, grown.slots]

/-- Growing appends bytes to the memory, up to the limit. -/
theorem grow?_spec {heap next : Heap} {needed : Nat} (sound : heap.Sound)
    (grown : heap.grow? needed = some next) : Grown heap next := by
  rw [grow?] at grown
  split at grown
  · simp at grown
  · rename_i allowed
    rw [Option.some.injEq] at grown
    subst grown
    have capped := sound.capped
    have bounded := sound.bounded
    rw [capacity] at capped bounded
    constructor
    · constructor
      · obtain ⟨order, tiles⟩ := sound.tiled
        exact ⟨order, tiles.distinct, tiles.live, tiles.filled⟩
      · simp only [capacity, Array.size_append]
        exact Nat.le_trans bounded (Nat.le_add_right _ _)
      · simp only [capacity, Array.size_append, Array.size_replicate]
        omega
      · exact sound.few
      · exact sound.freeOnce
      · exact sound.freeDead
    · rfl
    · intro index live
      have below := sound.stop_le live
      rw [Slot.stop] at below
      simp only [content, Slot.stop]
      refine congrArg Array.toList (extract_congr fun position inside => ?_)
      exact Array.getElem?_append_left (by
        change (heap.slotAt index).offset + position < heap.memory.size
        change position < (heap.slotAt index).length at inside
        omega)
    · rfl

end Calculator.Heap
