import Calculator.Proofs.Machine.Levels
import Calculator.Proofs.Machine.ReadBack
import Mathlib

/-!
# When the memory is exhausted

A heap that lacks room for an object is collected and then grows as far as it may. After the
collection nothing is in use but the objects of the roots, side by side. So an object is refused
only if it would not fit next to these in a heap of the size of the limit: neither objects that
nothing refers to nor gaps between objects ever cost an object its place.
-/

namespace Calculator

namespace Heap

/-- How many bytes the objects of the roots have, each object counted once. -/
def reachable (heap : Heap) (roots : List Handle) : ℕ :=
  ((roots.dedup.filterMap heap.get?).map List.length).sum

/-! ## What is in use after a collection -/

/-- An object is as long as the stretch of its slot. -/
theorem Sound.length_content {heap : Heap} (sound : heap.Sound) {index : ℕ}
    (live : (heap.slotAt index).live = true) :
    (heap.content index).length = (heap.slotAt index).length := by
  have stop := sound.stop_le live
  have bounded := sound.bounded
  rw [capacity] at bounded
  rw [content, Array.length_toList, Array.size_extract, Nat.min_eq_left (stop.trans bounded),
    Slot.stop, Nat.add_sub_cancel_left]

/-- The bytes of some objects are those of the stretches of their slots. -/
theorem Sound.sum_length {heap : Heap} (sound : heap.Sound) (handles : List Handle) :
    ((handles.filterMap heap.get?).map List.length).sum =
      (((handles.filter heap.isValid).map fun handle => handle.slot.toNat).map fun index =>
        (heap.slotAt index).length).sum := by
  induction handles with
  | nil => rfl
  | cons handle handles inductionHypothesis =>
    cases object : heap.get? handle with
    | none =>
      have invalid : heap.isValid handle = false := by
        rw [isValid, ← Option.isSome_map, ← get?, object]
        rfl
      rw [List.filterMap_cons_none object, List.filter_cons_of_neg (by rw [invalid]; decide)]
      exact inductionHypothesis
    | some bytes =>
      obtain ⟨live, generation, rfl⟩ := (get?_eq_some_iff heap handle bytes).mp object
      have valid := (isValid_iff heap handle).mpr ⟨live, generation⟩
      rw [List.filterMap_cons_some object, List.filter_cons_of_pos valid]
      simp only [List.map_cons, List.sum_cons]
      rw [sound.length_content live, inductionHypothesis]

/-- Two valid handles of one slot are the same. -/
theorem eq_of_isValid {heap : Heap} {first second : Handle} (validFirst : heap.isValid first = true)
    (validSecond : heap.isValid second = true)
    (same : first.slot.toNat = second.slot.toNat) : first = second := by
  have generation := ((isValid_iff heap first).mp validFirst).2.symm
  rw [same, ((isValid_iff heap second).mp validSecond).2] at generation
  obtain ⟨slot, number⟩ := first
  obtain ⟨other, count⟩ := second
  obtain rfl : slot = other := UInt32.toNat_inj.mp same
  obtain rfl : number = count := generation
  rfl

/-- After a collection the objects of the roots are in use and nothing else. -/
theorem used_collect {heap : Heap} (sound : heap.Sound) (roots : List Handle) :
    (heap.collect roots).2.used = heap.reachable roots := by
  have collected := collect_spec sound roots
  generalize (heap.collect roots).2 = next at collected
  have named (index : ℕ) : index ∈ (roots.dedup.filter heap.isValid).map
      (fun handle => handle.slot.toNat) ↔ heap.Named roots index := by
    simp only [List.mem_map, List.mem_filter, List.mem_dedup, Named, and_assoc]
  have live_of_named {index : ℕ} (names : heap.Named roots index) :
      (heap.slotAt index).live = true := by
    obtain ⟨root, -, valid, rfl⟩ := names
    exact ((isValid_iff heap root).mp valid).1
  have distinct : ((roots.dedup.filter heap.isValid).map fun handle => handle.slot.toNat).Nodup := by
    refine List.Nodup.map_on ?_ ((List.nodup_dedup roots).filter _)
    intro first among second other same
    exact eq_of_isValid (List.mem_filter.mp among).2 (List.mem_filter.mp other).2 same
  have members (index : ℕ) : index ∈ (roots.dedup.filter heap.isValid).map
      (fun handle => handle.slot.toNat) ↔ (next.slotAt index).live = true := by
    rw [named]
    constructor
    · intro names
      rw [collected.spared index (live_of_named names) names]
      exact live_of_named names
    · intro live
      by_contra unnamed
      cases before : (heap.slotAt index).live with
      | true => simp [collected.lost index before unnamed] at live
      | false =>
        rw [collected.idle index before, before] at live
        cases live
  rw [reachable, sound.sum_length, ← collected.sound.total distinct members]
  congr 1
  refine List.map_congr_left fun index among => ?_
  have names := (named index).mp among
  rw [collected.spared index (live_of_named names) names]

/-- The objects of the roots are among the bytes in use. -/
theorem reachable_le_used {heap : Heap} (sound : heap.Sound) (roots : List Handle) :
    heap.reachable roots ≤ heap.used := by
  obtain ⟨distinct, members, -⟩ := liveSlots_spec sound
  have parts := (settled_all sound roots).used sound distinct members
  rw [← used_collect sound roots]
  change (heap.liveSlots.foldl (settle (heap.marks roots)) { heap with used := 0 }).used ≤ _
  omega

/-! ## When an object is refused -/

/-- An object is allocated if there is room for it. -/
theorem allocate?_eq_none_iff (heap : Heap) (object : List UInt8) :
    heap.allocate? object = none ↔ heap.available < object.length := by
  rw [allocate?]
  split <;> simp_all

/-- Growing takes nothing off the memory, and leaves room for what it was asked for. -/
theorem available_grow? {heap next : Heap} {needed : ℕ} (sound : heap.Sound)
    (grown : heap.grow? needed = some next) :
    heap.capacity ≤ next.capacity ∧ needed ≤ next.available := by
  have bounded := sound.bounded
  rw [grow?] at grown
  split at grown
  · cases grown
  · rename_i allowed
    obtain rfl := Option.some.inj grown
    simp only [available, capacity, Array.size_append, Array.size_replicate] at bounded ⊢
    omega

/-- Growing is refused only beyond the limit. -/
theorem grow?_eq_none_iff (heap : Heap) (needed : ℕ) :
    heap.grow? needed = none ↔ heap.limit < heap.used + needed := by
  rw [grow?]
  split <;> simp_all

/-- To allocate an object does not change the size of the memory. -/
theorem capacity_allocate? {heap next : Heap} {object : List UInt8} {handle : Handle}
    (allocated : heap.allocate? object = some (handle, next)) : next.capacity = heap.capacity := by
  obtain ⟨-, taken, taking, rfl⟩ := allocate?_eq_some allocated
  have memory : taken.memory = heap.memory := by
    rw [← show (heap.occupy heap.used object.length).2 = taken by rw [taking], occupy]
    split <;> rfl
  rw [capacity, write_size, memory, capacity]

/-- An object is refused if and only if it does not fit next to the objects of the roots in a heap
of the size of the limit. -/
theorem place?_eq_none_iff {heap : Heap} (sound : heap.Sound) (roots : List Handle)
    (object : List UInt8) :
    (heap.place? roots object).1 = none ↔ heap.limit < heap.reachable roots + object.length := by
  have collected := collect_spec sound roots
  have used := used_collect sound roots
  have rooted := reachable_le_used sound roots
  obtain ⟨capacity, limit⟩ := collected.bounds
  constructor
  · intro refused
    unfold place? at refused
    split at refused
    · cases refused
    · dsimp only at refused
      split at refused
      · cases refused
      · split at refused
        · rename_i stuck
          rw [grow?_eq_none_iff, limit, used] at stuck
          exact stuck
        · rename_i next grown
          split at refused
          · cases refused
          · -- The heap has just grown for this object.
            rename_i crowded
            have room := (available_grow? collected.sound grown).2
            rw [allocate?_eq_none_iff] at crowded
            omega
  · intro large
    have bounded := sound.bounded
    have capped := sound.capped
    have first : heap.allocate? object = none := by
      rw [allocate?_eq_none_iff, available]
      omega
    have second : (heap.collect roots).2.allocate? object = none := by
      rw [allocate?_eq_none_iff, available, capacity, used]
      omega
    have third : (heap.collect roots).2.grow? object.length = none := by
      rw [grow?_eq_none_iff, limit, used]
      exact large
    simp only [place?, first, second, third]

/-- Nothing is taken off the memory when an object is placed. -/
theorem capacity_le_place? {heap : Heap} (sound : heap.Sound) (roots : List Handle)
    (object : List UInt8) : heap.capacity ≤ (heap.place? roots object).2.capacity := by
  have collected := collect_spec sound roots
  have same := collected.bounds.1
  unfold place?
  split
  · rename_i allocated
    exact (capacity_allocate? allocated).ge
  · dsimp only
    split
    · rename_i allocated
      rw [capacity_allocate? allocated, same]
    · split
      · exact same.ge
      · rename_i next grown
        have larger := same.ge.trans (available_grow? collected.sound grown).1
        split
        · rename_i allocated
          rwa [capacity_allocate? allocated]
        · exact larger

end Heap

namespace Machine

variable {machine : Machine}

/-- How many bytes a machine needs to keep what it keeps alive and a value besides. -/
def needed (machine : Machine) (value : Value) : ℕ :=
  machine.heap.reachable machine.roots + (Encoding.encode value).length

/-- A value is refused for want of memory if and only if what is needed exceeds the limit. -/
theorem make_eq_outOfMemory_iff (sound : machine.heap.Sound) {value : Value}
    (addressable : Encoding.Addressable value) :
    (enact (make value) machine).1 = .error .outOfMemory ↔
      machine.heap.limit < machine.needed value := by
  rw [Encoding.make_eq_place value addressable, Link.enact_place, needed,
    ← Heap.place?_eq_none_iff sound]
  show (Storage.place machine.heap machine.roots (Encoding.encode value)).1 = _ ↔ _
  simp only [Storage.place]
  split <;> simp_all

/-- A value that is not refused has been taken in as its encoding. -/
theorem get?_make (sound : machine.heap.Sound) (word : machine.heap.limit < 2 ^ 64) {value : Value}
    (fits : machine.needed value ≤ machine.heap.limit)
    (few : (enact (make value) machine).2.heap.slots.size ≤ UInt32.size) :
    ∃ handle, (enact (make value) machine).1 = .ok handle ∧
      (enact (make value) machine).2.heap.get? handle = some (Encoding.encode value) := by
  have addressable : Encoding.Addressable value := by
    rw [needed] at fits
    rw [Encoding.Addressable]
    omega
  have accepted := (make_eq_outOfMemory_iff sound addressable).not.mpr (Nat.not_lt.mpr fits)
  rw [Encoding.make_eq_place value addressable, Link.enact_place] at accepted few ⊢
  rcases answer : Storage.place machine.storage machine.roots (Encoding.encode value) with
    ⟨outcome, next⟩
  rw [answer] at accepted few
  cases outcome with
  | error fault => exact absurd (congrArg Except.error (fault_of_storage answer)) accepted
  | ok handle =>
    obtain ⟨found, placed, same⟩ := Heap.place?_of_storage answer
    exact ⟨handle, rfl, (Heap.place?_spec placed sound few).2.2 handle (same handle rfl)⟩

/-- To take in a value costs the roots nothing and takes nothing off the memory. -/
theorem kept_make (sound : machine.heap.Sound) (value : Value)
    (few : (enact (make value) machine).2.heap.slots.size ≤ UInt32.size) :
    (∀ root ∈ machine.roots, ∀ object, machine.heap.get? root = some object →
      (enact (make value) machine).2.heap.get? root = some object) ∧
    machine.heap.capacity ≤ (enact (make value) machine).2.heap.capacity ∧
    (enact (make value) machine).2.heap.capacity ≤ machine.heap.limit := by
  rcases enact_make value machine with ⟨fault, refused⟩ | placed
  · rw [refused]
    exact ⟨fun _ _ _ => id, le_rfl, sound.capped⟩
  · rw [placed, Link.enact_place] at few ⊢
    rcases answer : Storage.place machine.storage machine.roots (Encoding.encode value) with
      ⟨outcome, next⟩
    rw [answer] at few
    obtain ⟨found, settled, -⟩ := Heap.place?_of_storage answer
    obtain ⟨soundNext, kept, -⟩ := Heap.place?_spec settled sound few
    have larger := Heap.capacity_le_place? sound machine.roots (Encoding.encode value)
    have limit := Heap.limit_place? machine.heap machine.roots (Encoding.encode value)
    rw [show machine.heap.place? machine.roots (Encoding.encode value) = (found, next) from settled]
      at larger limit
    exact ⟨kept, larger, soundNext.capped.trans limit.le⟩

end Machine

namespace Session

open Machine

end Session

end Calculator
