import Calculator.Proofs.Memory.Collection
import Calculator.Proofs.Memory.Placement
import Mathlib

/-!
# The lifetime of objects

Whatever a heap is asked to do, in whatever order, its layout is kept, and a handle has its
object for as long as every collection finds the handle among its roots. From the first
collection on that does not, the handle is invalid for good, also when its slot is used again:
the generation of a slot counts how often the slot lost an object, as long as the count fits
a word.
-/

namespace Calculator.Heap

/-- What a heap can be asked to do. -/
inductive Request where
  | allocate (object : List UInt8)
  | collect (roots : List Handle)
  | grow (needed : Nat)
deriving DecidableEq, Repr

/-- The heap after a request. A request that is refused changes nothing. -/
def answer (heap : Heap) : Request → Heap
  | .allocate object =>
    match heap.allocate? object with
    | some (_, next) => next
    | none => heap
  | .collect roots => (heap.collect roots).2
  | .grow needed => (heap.grow? needed).getD heap

/-- The heap after some requests. -/
def run (heap : Heap) (requests : List Request) : Heap := requests.foldl answer heap

/-- Whether a slot has lost its object, as a number. -/
def loss (before after : Slot) : Nat := (before.live && !after.live).toNat

/-- How often a slot loses its object while some requests are answered. -/
def losses (index : Nat) (heap : Heap) : List Request → Nat
  | [] => 0
  | request :: requests =>
    loss (heap.slotAt index) ((heap.answer request).slotAt index)
      + losses index (heap.answer request) requests

/-- Requests are answered one after the other. -/
theorem run_append (heap : Heap) (first second : List Request) :
    heap.run (first ++ second) = (heap.run first).run second :=
  List.foldl_append

/-- Losses add up. -/
theorem losses_append (index : Nat) (heap : Heap) (first second : List Request) :
    losses index heap (first ++ second) =
      losses index heap first + losses index (heap.run first) second := by
  induction first generalizing heap with
  | nil => simp [losses, run]
  | cons request requests inductionHypothesis =>
    rw [List.cons_append, losses, losses, inductionHypothesis, Nat.add_assoc]
    rfl

/-- A request costs a slot its object at most once. -/
theorem losses_le_length (index : Nat) (heap : Heap) (requests : List Request) :
    losses index heap requests ≤ requests.length := by
  induction requests generalizing heap with
  | nil => exact Nat.le_refl 0
  | cons request requests inductionHypothesis =>
    have others := inductionHypothesis (heap.answer request)
    have single := Bool.toNat_le
      ((heap.slotAt index).live && !((heap.answer request).slotAt index).live)
    rw [losses, loss, List.length_cons]
    omega

/-! ## Single requests -/

/-- What a request can do to a heap. -/
inductive Answered (heap : Heap) : Request → Heap → Prop
  | refused (request : Request) (harmless : ∀ roots, request ≠ .collect roots) :
      Answered heap request heap
  | allocated (object : List UInt8) (handle : Handle) (next : Heap)
      (spec : Allocated heap object handle next) : Answered heap (.allocate object) next
  | collected (roots : List Handle) (next : Heap) (spec : Collected heap roots next) :
      Answered heap (.collect roots) next
  | grown (needed : Nat) (next : Heap) (spec : Grown heap next) :
      Answered heap (.grow needed) next

/-- Every request does one of the things that a request can do. -/
theorem answered {heap : Heap} (request : Request) (sound : heap.Sound)
    (few : (heap.answer request).slots.size ≤ UInt32.size) :
    Answered heap request (heap.answer request) := by
  cases request with
  | allocate object =>
    simp only [answer] at few ⊢
    cases placed : heap.allocate? object with
    | none => exact .refused _ (by simp)
    | some outcome =>
      rw [placed] at few
      exact .allocated _ _ _ (allocate?_spec sound placed few)
  | collect roots => exact .collected _ _ (collect_spec sound roots)
  | grow needed =>
    simp only [answer]
    cases grown : heap.grow? needed with
    | none => exact .refused _ (by simp)
    | some next => exact .grown _ _ (grow?_spec sound grown)

/-- Settling an object removes no slot. -/
theorem settle_slots_size (marks : Array Bool) (heap : Heap) (index : Nat) :
    (settle marks heap index).slots.size = heap.slots.size := by
  rw [settle]
  split
  · rfl
  · split
    · rw [keep]
      split
      · rfl
      · exact Array.size_setIfInBounds
    · exact Array.size_setIfInBounds

/-- To place an object changes the number of slots only if none is free and there is room. -/
theorem slots_answer_allocate (heap : Heap) (object : List UInt8) :
    (heap.answer (.allocate object)).slots.size = heap.slots.size ∨
      heap.free = [] ∧ object.length ≤ heap.available ∧
        (heap.answer (.allocate object)).slots.size = heap.slots.size + 1 := by
  simp only [answer]
  cases placed : heap.allocate? object with
  | none => exact .inl rfl
  | some outcome =>
    obtain ⟨room, taken, taking, form⟩ := allocate?_eq_some placed
    dsimp only
    rw [form]
    cases free : heap.free with
    | nil =>
      simp only [occupy, free, Prod.mk.injEq] at taking
      rw [← taking.2]
      exact .inr ⟨rfl, room, Array.size_push _⟩
    | cons index others =>
      simp only [occupy, free, Prod.mk.injEq] at taking
      rw [← taking.2]
      exact .inl Array.size_setIfInBounds

/-- No request removes a slot. -/
theorem slots_le_answer (heap : Heap) (request : Request) :
    heap.slots.size ≤ (heap.answer request).slots.size := by
  cases request with
  | allocate object =>
    rcases slots_answer_allocate heap object with same | ⟨-, -, more⟩
    · exact same.ge
    · exact more ▸ Nat.le_succ _
  | collect roots =>
    have settled (indices : List Nat) (now : Heap) :
        (indices.foldl (settle (heap.marks roots)) now).slots.size = now.slots.size := by
      induction indices generalizing now with
      | nil => rfl
      | cons index indices inductionHypothesis =>
        rw [List.foldl_cons, inductionHypothesis, settle_slots_size]
    exact (settled heap.liveSlots { heap with used := 0 }).ge
  | grow needed =>
    simp only [answer, grow?]
    split <;> exact Nat.le_refl _

/-- Settling an object does not change the limit. -/
theorem settle_limit (marks : Array Bool) (heap : Heap) (index : Nat) :
    (settle marks heap index).limit = heap.limit := by
  rw [settle]
  split
  · rfl
  · split
    · rw [keep]
      split <;> rfl
    · rfl

/-- No request changes the limit. -/
theorem limit_answer (heap : Heap) (request : Request) :
    (heap.answer request).limit = heap.limit := by
  cases request with
  | allocate object =>
    simp only [answer]
    cases placed : heap.allocate? object with
    | none => rfl
    | some outcome =>
      obtain ⟨-, taken, taking, form⟩ := allocate?_eq_some placed
      dsimp only
      rw [form]
      unfold occupy at taking
      split at taking <;> rw [← (Prod.mk.inj taking).2]
  | collect roots =>
    have settled (indices : List Nat) (now : Heap) :
        (indices.foldl (settle (heap.marks roots)) now).limit = now.limit := by
      induction indices generalizing now with
      | nil => rfl
      | cons index indices inductionHypothesis =>
        rw [List.foldl_cons, inductionHypothesis, settle_limit]
    exact settled heap.liveSlots { heap with used := 0 }
  | grow needed =>
    simp only [answer, grow?]
    split <;> rfl

/-- Every request keeps the layout and the limit. -/
theorem Answered.sound {heap next : Heap} {request : Request} (answered : Answered heap request next)
    (sound : heap.Sound) : next.Sound ∧ next.limit = heap.limit := by
  cases answered with
  | refused _ _ => exact ⟨sound, rfl⟩
  | allocated _ _ _ spec => exact ⟨spec.sound, spec.bounds.2⟩
  | collected _ _ spec => exact ⟨spec.sound, spec.bounds.2⟩
  | grown _ _ spec => exact ⟨spec.sound, spec.limit⟩

/-- A slot's generation goes up by one exactly when the slot loses its object. -/
theorem Answered.generation {heap next : Heap} {request : Request}
    (answered : Answered heap request next) (index : Nat) :
    (next.slotAt index).generation =
      (heap.slotAt index).generation + UInt32.ofNat (loss (heap.slotAt index) (next.slotAt index)) := by
  cases answered with
  | refused _ _ => simp [loss]
  | allocated object handle _ spec =>
    by_cases here : index = handle.slot.toNat
    · subst here
      simp [loss, spec.dead, spec.generation, spec.same]
    · simp [loss, spec.others index here]
  | collected roots _ spec =>
    by_cases live : (heap.slotAt index).live = true
    · by_cases named : heap.Named roots index
      · rw [spec.spared index live named]
        simp [loss, live]
      · rw [spec.lost index live named]
        simp [loss, live]
    · rw [Bool.not_eq_true] at live
      rw [spec.idle index live]
      simp [loss, live]
  | grown _ _ spec => simp [loss, spec.slotAt index]

/-- A handle with an object is valid, and the object is that of its slot. -/
theorem get?_eq_some_iff (heap : Heap) (handle : Handle) (object : List UInt8) :
    heap.get? handle = some object ↔
      (heap.slotAt handle.slot.toNat).live = true ∧
        (heap.slotAt handle.slot.toNat).generation = handle.generation ∧
          heap.content handle.slot.toNat = object := by
  rw [get?_eq]
  split
  · rename_i valid
    simp [valid]
  · rename_i invalid
    simp only [reduceCtorEq, false_iff]
    exact fun ⟨live, generation, _⟩ => invalid ⟨live, generation⟩

/-- A valid handle keeps its object through a request, unless it is a collection that does not
find the handle among its roots. -/
theorem Answered.get? {heap next : Heap} {request : Request} {handle : Handle}
    {object : List UInt8} (answered : Answered heap request next)
    (rooted : ∀ roots, request = .collect roots → handle ∈ roots)
    (held : heap.get? handle = some object) : next.get? handle = some object := by
  rw [get?_eq_some_iff] at held ⊢
  obtain ⟨live, generation, bytes⟩ := held
  cases answered with
  | refused _ _ => exact ⟨live, generation, bytes⟩
  | allocated other number _ spec =>
    have apart : handle.slot.toNat ≠ number.slot.toNat := by
      intro same
      have dead := spec.dead
      rw [← same, live] at dead
      simp at dead
    rw [spec.others _ apart, spec.kept _ live]
    exact ⟨live, generation, bytes⟩
  | collected roots _ spec =>
    have named : heap.Named roots handle.slot.toNat :=
      ⟨handle, rooted roots rfl, (isValid_iff heap handle).mpr ⟨live, generation⟩, rfl⟩
    rw [spec.spared _ live named, spec.kept _ live named]
    exact ⟨live, generation, bytes⟩
  | grown _ _ spec =>
    rw [spec.slotAt, spec.kept _ live]
    exact ⟨live, generation, bytes⟩

/-- A collection that does not find a valid handle among its roots costs the slot its object, for
only that handle names the object. -/
theorem Collected.lost_of_not_mem {heap next : Heap} {roots : List Handle} {handle : Handle}
    (collected : Collected heap roots next) (live : (heap.slotAt handle.slot.toNat).live = true)
    (generation : (heap.slotAt handle.slot.toNat).generation = handle.generation)
    (unrooted : handle ∉ roots) :
    loss (heap.slotAt handle.slot.toNat) (next.slotAt handle.slot.toNat) = 1 := by
  have unnamed : ¬ heap.Named roots handle.slot.toNat := by
    rintro ⟨root, among, valid, slot⟩
    have same : root = handle := by
      have rootGeneration := ((isValid_iff heap root).mp valid).2
      rw [slot, generation] at rootGeneration
      obtain ⟨rootSlot, rootCount⟩ := root
      obtain ⟨handleSlot, handleCount⟩ := handle
      rw [Handle.mk.injEq]
      exact ⟨UInt32.toNat_inj.mp slot, rootGeneration.symm⟩
    exact unrooted (same ▸ among)
  rw [collected.lost _ live unnamed]
  simp [loss, live]

/-! ## Runs -/

/-- No run removes a slot. -/
theorem slots_le_run (heap : Heap) (requests : List Request) :
    heap.slots.size ≤ (heap.run requests).slots.size := by
  induction requests generalizing heap with
  | nil => exact Nat.le_refl _
  | cons request requests inductionHypothesis =>
    exact Nat.le_trans (slots_le_answer heap request) (inductionHypothesis (heap.answer request))

/-- No run changes the limit. -/
theorem limit_run (heap : Heap) (requests : List Request) :
    (heap.run requests).limit = heap.limit := by
  induction requests generalizing heap with
  | nil => rfl
  | cons request requests inductionHypothesis =>
    exact (inductionHypothesis (heap.answer request)).trans (limit_answer heap request)

/-- A run keeps the layout and the limit. -/
theorem run_sound {heap : Heap} (requests : List Request) (sound : heap.Sound)
    (few : (heap.run requests).slots.size ≤ UInt32.size) :
    (heap.run requests).Sound ∧ (heap.run requests).limit = heap.limit := by
  induction requests generalizing heap with
  | nil => exact ⟨sound, rfl⟩
  | cons request requests inductionHypothesis =>
    have early := Nat.le_trans (slots_le_run (heap.answer request) requests) few
    obtain ⟨soundNext, limitNext⟩ := (answered request sound early).sound sound
    obtain ⟨soundAfter, limitAfter⟩ := inductionHypothesis soundNext few
    exact ⟨soundAfter, limitAfter.trans limitNext⟩

/-- A run raises a slot's generation by as many as the slot has lost objects. -/
theorem run_generation {heap : Heap} (requests : List Request) (sound : heap.Sound)
    (few : (heap.run requests).slots.size ≤ UInt32.size) (index : Nat) :
    ((heap.run requests).slotAt index).generation =
      (heap.slotAt index).generation + UInt32.ofNat (losses index heap requests) := by
  induction requests generalizing heap with
  | nil => simp [run, losses]
  | cons request requests inductionHypothesis =>
    have early := Nat.le_trans (slots_le_run (heap.answer request) requests) few
    have spec := answered request sound early
    have others := inductionHypothesis (spec.sound sound).1 few
    rw [losses, UInt32.ofNat_add, ← UInt32.add_assoc, ← spec.generation index]
    exact others

/-- A slot that loses nothing keeps having an object. -/
theorem run_live {heap : Heap} (requests : List Request) (index : Nat)
    (live : (heap.slotAt index).live = true) (none : losses index heap requests = 0) :
    ((heap.run requests).slotAt index).live = true := by
  induction requests generalizing heap with
  | nil => exact live
  | cons request requests inductionHypothesis =>
    rw [losses, Nat.add_eq_zero_iff] at none
    obtain ⟨first, others⟩ := none
    have still : ((heap.answer request).slotAt index).live = true := by
      simpa [loss, live] using first
    exact inductionHypothesis still others

/-- A valid handle keeps its object through a run in which every collection finds the handle
among its roots. -/
theorem run_get? {heap : Heap} {handle : Handle} {object : List UInt8} (requests : List Request)
    (sound : heap.Sound) (few : (heap.run requests).slots.size ≤ UInt32.size)
    (rooted : ∀ roots, .collect roots ∈ requests → handle ∈ roots)
    (held : heap.get? handle = some object) :
    (heap.run requests).get? handle = some object := by
  induction requests generalizing heap with
  | nil => exact held
  | cons request requests inductionHypothesis =>
    have early := Nat.le_trans (slots_le_run (heap.answer request) requests) few
    have spec := answered request sound early
    have next := spec.get? (fun roots same => rooted roots (same ▸ List.mem_cons_self)) held
    exact inductionHypothesis (spec.sound sound).1 few
      (fun roots among => rooted roots (List.mem_cons_of_mem _ among)) next

/-- A run with a collection that does not find a valid handle among its roots costs the slot of
the handle an object. -/
theorem losses_pos {heap : Heap} {handle : Handle} (requests : List Request) (sound : heap.Sound)
    (few : (heap.run requests).slots.size ≤ UInt32.size)
    (live : (heap.slotAt handle.slot.toNat).live = true)
    (generation : (heap.slotAt handle.slot.toNat).generation = handle.generation)
    {roots : List Handle} (among : .collect roots ∈ requests) (unrooted : handle ∉ roots) :
    0 < losses handle.slot.toNat heap requests := by
  obtain ⟨before, after, rfl⟩ := List.append_of_mem among
  rw [run_append] at few
  have early := Nat.le_trans (slots_le_run (heap.run before) (.collect roots :: after)) few
  rw [losses_append, losses]
  rcases Nat.eq_zero_or_pos (losses handle.slot.toNat heap before) with none | some
  · have still := run_live before handle.slot.toNat live none
    have same := run_generation before sound early handle.slot.toNat
    rw [none, generation] at same
    have lost := (collect_spec (run_sound before sound early).1 roots).lost_of_not_mem still
      (by simpa using same) unrooted
    simp only [answer]
    omega
  · omega

/-- A handle whose slot has lost an object since, but not as often as there are generations, is
invalid. -/
theorem run_get?_eq_none {heap : Heap} {handle : Handle} (requests : List Request)
    (sound : heap.Sound) (few : (heap.run requests).slots.size ≤ UInt32.size)
    (generation : (heap.slotAt handle.slot.toNat).generation = handle.generation)
    (lost : 0 < losses handle.slot.toNat heap requests)
    (rarely : losses handle.slot.toNat heap requests < UInt32.size) :
    (heap.run requests).get? handle = none := by
  have later := run_generation requests sound few handle.slot.toNat
  rw [get?_eq, if_neg]
  rintro ⟨-, same⟩
  rw [same, generation] at later
  have zero : UInt32.ofNat (losses handle.slot.toNat heap requests) = 0 := by
    have cancelled : handle.generation + 0 =
        handle.generation + UInt32.ofNat (losses handle.slot.toNat heap requests) := by
      rw [UInt32.add_zero]
      exact later
    exact ((UInt32.add_right_inj handle.generation).mp cancelled).symm
  have number := congrArg UInt32.toNat zero
  rw [UInt32.toNat_ofNat_of_lt' rarely] at number
  have none : losses handle.slot.toNat heap requests = 0 := number
  omega

/-! ## Safety -/

/-- Whether the stretches of the objects, which do not overlap, are all the bytes in use. -/
structure Tiled (heap : Heap) : Prop where
  /-- The stretches of the objects cover the bytes in use and no others. -/
  covered : ∀ position, position < heap.used ↔ ∃ index, (heap.slotAt index).live = true ∧
    (heap.slotAt index).offset ≤ position ∧ position < (heap.slotAt index).stop
  /-- The stretches of two objects lie apart. -/
  disjoint : ∀ first second, (heap.slotAt first).live = true → (heap.slotAt second).live = true →
    first ≠ second → (heap.slotAt first).stop ≤ (heap.slotAt second).offset ∨
      (heap.slotAt second).stop ≤ (heap.slotAt first).offset
  /-- The bytes in use are as many as the objects have. -/
  total : heap.used = ((heap.slots.toList.filter Slot.live).map Slot.length).sum

/-- The layout makes the objects tile the bytes in use. -/
theorem Sound.tiling {heap : Heap} (sound : heap.Sound) : heap.Tiled := by
  obtain ⟨order, tiles⟩ := sound.tiled
  refine ⟨fun position => ?_, fun first second => sound.apart, ?_⟩
  · constructor
    · intro below
      obtain ⟨slot, among, covers⟩ := tiles.filled.covers position (Nat.zero_le _) below
      obtain ⟨index, listed, rfl⟩ := List.mem_map.mp among
      exact ⟨index, (tiles.live index).mp listed, covers⟩
    · rintro ⟨index, live, -, below⟩
      exact Nat.lt_of_lt_of_le below (sound.stop_le live)
  · rw [slots_toList, List.filter_map, List.map_map]
    refine (sound.total (List.nodup_range.filter _) fun index => ?_).symm
    rw [List.mem_filter, List.mem_range]
    exact ⟨fun listed => listed.2, fun live => ⟨lt_size_of_live live, live⟩⟩

/-- Whatever a heap is asked to do, in whatever order, and whatever the roots of its collections
are, as long as the number of slots and the losses of every slot fit a word: the objects tile
the bytes in use, and those are no more than there are, which are no more than the limit; the
free slots are those without objects; a handle has its object, byte for byte, for as long as
every collection finds the handle among its roots, and is invalid for good after one that does
not; and a collection gives back what the lost objects were long. -/
theorem heap_safety (capacity limit : Nat) (requests : List Request)
    (few : ((empty capacity limit).run requests).slots.size ≤ UInt32.size)
    (rarely : ∀ index, losses index (empty capacity limit) requests < UInt32.size) :
    let heap := (empty capacity limit).run requests
    heap.Tiled ∧
    (heap.used ≤ heap.capacity ∧ heap.capacity ≤ max capacity limit) ∧
    (heap.free.Nodup ∧ ∀ index, index ∈ heap.free ↔
      index.toNat < heap.slots.size ∧ (heap.slotAt index.toNat).live = false) ∧
    (∀ before object after handle next, requests = before ++ .allocate object :: after →
      ((empty capacity limit).run before).allocate? object = some (handle, next) →
      ((∀ roots, .collect roots ∈ after → handle ∈ roots) → heap.get? handle = some object) ∧
      (∀ roots, .collect roots ∈ after → handle ∉ roots → heap.get? handle = none)) ∧
    (∀ roots, (heap.collect roots).1 =
      ((heap.killed (heap.collect roots).2).map fun index => (heap.slotAt index).length).sum) := by
  intro heap
  have start := sound_empty capacity limit
  obtain ⟨sound, limited⟩ := run_sound requests start few
  have capped := sound.capped
  rw [limited] at capped
  refine ⟨sound.tiling, ⟨sound.bounded, ?_⟩, ⟨sound.freeOnce, sound.freeDead⟩, ?_,
    collect_reclaimed sound⟩
  · rw [Nat.max_comm]
    exact capped
  · intro before object after handle next split placed
    have answer : ((empty capacity limit).run before).answer (.allocate object) = next := by
      simp only [Heap.answer, placed]
    have whole : heap = next.run after := by
      change (empty capacity limit).run requests = _
      rw [split, run_append, ← answer]
      rfl
    rw [whole]
    have fewAfter : (next.run after).slots.size ≤ UInt32.size := whole ▸ few
    have fewNext := Nat.le_trans (slots_le_run next after) fewAfter
    have fewBefore : ((empty capacity limit).run before).slots.size ≤ UInt32.size := by
      refine Nat.le_trans (slots_le_answer _ (.allocate object)) ?_
      rw [answer]
      exact fewNext
    have allocated := allocate?_spec (run_sound before start fewBefore).1 placed fewNext
    have held : next.get? handle = some object := by
      rw [get?_eq_some_iff]
      exact ⟨allocated.live, allocated.same, allocated.held⟩
    refine ⟨fun rooted => run_get? after allocated.sound fewAfter rooted held, ?_⟩
    intro roots among unrooted
    have lost := losses_pos after allocated.sound fewAfter allocated.live allocated.same among
      unrooted
    have bound := rarely handle.slot.toNat
    rw [split, losses_append, losses, answer] at bound
    exact run_get?_eq_none after allocated.sound fewAfter allocated.same lost (by omega)

/-- Two objects, of which a collection finds the second one only, and a third one in the place of
the first. -/
theorem heap_safety_recycled :
    let requests : List Request := [.allocate [1, 1, 1, 1], .allocate [2, 2], .collect [⟨1, 0⟩],
      .allocate [4, 4, 4]]
    let heap := (empty 8 16).run requests
    heap.Tiled ∧ heap.get? ⟨0, 0⟩ = none ∧ heap.get? ⟨1, 0⟩ = some [2, 2] := by
  have count : ((empty 8 16).run [.allocate [1, 1, 1, 1], .allocate [2, 2], .collect [⟨1, 0⟩],
      .allocate [4, 4, 4]]).slots.size = 2 := by cbv
  intro requests heap
  have few : heap.slots.size ≤ UInt32.size := count.trans_le (by decide)
  have rarely (index : Nat) : losses index (empty 8 16) requests < UInt32.size :=
    Nat.lt_of_le_of_lt (losses_le_length index (empty 8 16) requests) (by decide)
  obtain ⟨tiled, -, -, handles, -⟩ := heap_safety 8 16 requests few rarely
  obtain ⟨afterFirst, first⟩ : ∃ next,
      (empty 8 16).allocate? [1, 1, 1, 1] = some (⟨0, 0⟩, next) := ⟨_, rfl⟩
  obtain ⟨afterSecond, second⟩ : ∃ next,
      ((empty 8 16).run [.allocate [1, 1, 1, 1]]).allocate? [2, 2] = some (⟨1, 0⟩, next) :=
    ⟨_, rfl⟩
  refine ⟨tiled, ?_, ?_⟩
  · exact (handles [] _ _ _ afterFirst rfl first).2 [⟨1, 0⟩] (by simp) (by decide)
  · exact (handles [.allocate [1, 1, 1, 1]] _ _ _ afterSecond rfl second).1 (by simp)

end Calculator.Heap
