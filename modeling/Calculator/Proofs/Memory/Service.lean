import Calculator.Proofs.Memory.Lifetime
import Mathlib

/-!
# Placing with collection and growth

A heap that is to place an object may have to be collected and to grow first. All of this is a
row of requests whose collections find the same roots, so what is known of requests carries
over: the objects of the roots stay, and the handle that comes of it has the new object.

A heap whose limit is a word never has more slots than a word can number: a new slot is only made
when every slot has an object, and every object has at least one byte.
-/

namespace Calculator.Heap

/-- To place an object is to answer some requests, of which every collection finds the same
roots and every allocation is of the object. The last one allocates the object, if a handle comes
of it. -/
theorem place?_requests {heap next : Heap} {roots : List Handle} {object : List UInt8}
    {outcome : Option Handle} (placed : heap.place? roots object = (outcome, next)) :
    ∃ requests, next = heap.run requests ∧
      (∀ found, .collect found ∈ requests → found = roots) ∧
      (∀ other, .allocate other ∈ requests → other = object) ∧
      ∀ handle, outcome = some handle → ∃ before, requests = before ++ [.allocate object] ∧
        (heap.run before).allocate? object = some (handle, next) := by
  unfold place? at placed
  split at placed
  · rename_i handle after allocated
    obtain ⟨rfl, rfl⟩ := Prod.mk.inj placed
    refine ⟨[.allocate object], ?_, by simp, by simp, ?_⟩
    · simp [run, answer, allocated]
    · intro found same
      obtain rfl := Option.some.inj same
      exact ⟨[], rfl, allocated⟩
  · dsimp only at placed
    split at placed
    · rename_i handle after allocated
      obtain ⟨rfl, rfl⟩ := Prod.mk.inj placed
      refine ⟨[.collect roots, .allocate object], ?_, by simp, by simp, ?_⟩
      · simp [run, answer, allocated]
      · intro found same
        obtain rfl := Option.some.inj same
        exact ⟨[.collect roots], rfl, allocated⟩
    · split at placed
      · obtain ⟨rfl, rfl⟩ := Prod.mk.inj placed
        exact ⟨[.collect roots], rfl, by simp, by simp, by simp⟩
      · rename_i grown enlarged
        split at placed
        · rename_i handle after allocated
          obtain ⟨rfl, rfl⟩ := Prod.mk.inj placed
          refine ⟨[.collect roots, .grow object.length, .allocate object], ?_, by simp, by simp, ?_⟩
          · simp [run, answer, enlarged, allocated]
          · intro found same
            obtain rfl := Option.some.inj same
            refine ⟨[.collect roots, .grow object.length], rfl, ?_⟩
            simpa [run, answer, enlarged] using allocated
        · obtain ⟨rfl, rfl⟩ := Prod.mk.inj placed
          refine ⟨[.collect roots, .grow object.length], ?_, by simp, by simp, by simp⟩
          simp [run, answer, enlarged]

/-- To place an object removes no slot. -/
theorem slots_le_place? (heap : Heap) (roots : List Handle) (object : List UInt8) :
    heap.slots.size ≤ (heap.place? roots object).2.slots.size := by
  rcases placed : heap.place? roots object with ⟨outcome, next⟩
  obtain ⟨requests, rfl, -⟩ := place?_requests placed
  exact slots_le_run heap requests

/-- To place an object keeps the layout and the objects of the roots, and the handle that comes of
it has the object. -/
theorem place?_spec {heap next : Heap} {roots : List Handle} {object : List UInt8}
    {outcome : Option Handle} (placed : heap.place? roots object = (outcome, next))
    (sound : heap.Sound) (few : next.slots.size ≤ UInt32.size) :
    next.Sound ∧
      (∀ root ∈ roots, ∀ held, heap.get? root = some held → next.get? root = some held) ∧
      ∀ handle, outcome = some handle → next.get? handle = some object := by
  obtain ⟨requests, rfl, rooted, -, last⟩ := place?_requests placed
  refine ⟨(run_sound requests sound few).1, ?_, ?_⟩
  · intro root among held valid
    exact run_get? requests sound few (fun found member => rooted found member ▸ among) valid
  · intro handle same
    obtain ⟨before, rfl, allocated⟩ := last handle same
    rw [run_append] at few
    have early := Nat.le_trans (slots_le_run (heap.run before) [.allocate object]) few
    rw [← run_append] at few
    have spec := allocate?_spec (run_sound before sound early).1 allocated few
    exact (get?_eq_some_iff _ _ _).mpr ⟨spec.live, spec.same, spec.held⟩

/-- To place an object does not change the limit. -/
theorem limit_place? (heap : Heap) (roots : List Handle) (object : List UInt8) :
    (heap.place? roots object).2.limit = heap.limit := by
  rcases placed : heap.place? roots object with ⟨outcome, next⟩
  obtain ⟨requests, rfl, -⟩ := place?_requests placed
  exact limit_run heap requests

/-- No object is longer than the limit of its heap. -/
theorem Sound.length_le_limit {heap : Heap} (sound : heap.Sound) {handle : Handle}
    {object : List UInt8} (held : heap.get? handle = some object) :
    object.length ≤ heap.limit := by
  obtain ⟨-, -, rfl⟩ := (get?_eq_some_iff _ _ _).mp held
  have inside : (heap.content handle.slot.toNat).length ≤ heap.capacity := by
    rw [content, Array.length_toList, Array.size_extract, capacity]
    omega
  exact inside.trans sound.capped

/-! ## The number of slots -/

/-- A heap without empty objects whose limit is a word, and which has no more slots than that. -/
structure Dense (heap : Heap) : Prop where
  sound : heap.Sound
  filled : ∀ index, (heap.slotAt index).live = true → heap.content index ≠ []
  fewer : heap.slots.size ≤ heap.limit
  word : heap.limit ≤ UInt32.size

/-- A heap without objects is dense if its limit is a word. -/
theorem dense_empty {capacity limit : Nat} (word : max limit capacity ≤ UInt32.size) :
    (empty capacity limit).Dense where
  sound := sound_empty capacity limit
  filled index live := by
    have dead : ((empty capacity limit).slotAt index).live = false := rfl
    rw [dead] at live
    simp at live
  fewer := Nat.zero_le _
  word := word

/-- If every slot of a dense heap has an object, there are no more slots than bytes in use. -/
theorem Dense.slots_le_used {heap : Heap} (dense : heap.Dense) (full : heap.free = []) :
    heap.slots.size ≤ heap.used := by
  have live : ∀ index, index < heap.slots.size → (heap.slotAt index).live = true := by
    intro index inside
    have word : (UInt32.ofNat index).toNat = index :=
      UInt32.toNat_ofNat_of_lt' (Nat.lt_of_lt_of_le inside dense.sound.few)
    have occupied := mt (dense.sound.freeDead (UInt32.ofNat index)).mpr (by simp [full])
    rw [word] at occupied
    simpa [inside] using occupied
  have each : ∀ slot ∈ heap.slots.toList, slot.live = true ∧ 1 ≤ slot.length := by
    intro slot among
    rw [slots_toList] at among
    obtain ⟨index, listed, rfl⟩ := List.mem_map.mp among
    have inside := List.mem_range.mp listed
    refine ⟨live index inside, Nat.one_le_iff_ne_zero.mpr fun none => ?_⟩
    exact dense.filled index (live index inside) (content_of_empty none)
  rw [dense.sound.tiling.total, List.filter_eq_self.mpr fun slot among => (each slot among).1]
  have total := List.length_le_sum_of_one_le (heap.slots.toList.map Slot.length) (by
    intro length among
    obtain ⟨slot, member, rfl⟩ := List.mem_map.mp among
    exact (each slot member).2)
  simpa using total

/-- A dense heap keeps having no more slots than its limit. -/
theorem Dense.fewer_answer {heap : Heap} (dense : heap.Dense) (request : Request)
    (nonempty : ∀ object, request = .allocate object → object ≠ []) :
    (heap.answer request).slots.size ≤ heap.limit := by
  cases request with
  | allocate object =>
    rcases slots_answer_allocate heap object with same | ⟨full, room, more⟩
    · exact same.trans_le dense.fewer
    · have used := dense.slots_le_used full
      have bytes := List.length_pos_of_ne_nil (nonempty object rfl)
      have capped := dense.sound.capped
      rw [available] at room
      omega
  | collect roots => exact (collect_spec dense.sound roots).slots.trans_le dense.fewer
  | grow needed =>
    simp only [answer, grow?]
    split <;> exact dense.fewer

/-- A dense heap stays dense, as long as no empty object is placed. -/
theorem Dense.answer {heap : Heap} (dense : heap.Dense) (request : Request)
    (nonempty : ∀ object, request = .allocate object → object ≠ []) :
    (heap.answer request).Dense := by
  have fewer := dense.fewer_answer request nonempty
  have spec := answered request dense.sound (Nat.le_trans fewer dense.word)
  obtain ⟨sound, limit⟩ := spec.sound dense.sound
  refine ⟨sound, ?_, limit ▸ fewer, limit ▸ dense.word⟩
  intro index live
  generalize heap.answer request = next at spec live ⊢
  cases spec with
  | refused _ _ => exact dense.filled index live
  | allocated object handle _ spec =>
    by_cases here : index = handle.slot.toNat
    · subst here
      rw [spec.held]
      exact nonempty object rfl
    · rw [spec.others index here] at live
      rw [spec.kept index live]
      exact dense.filled index live
  | collected roots _ spec =>
    have before : (heap.slotAt index).live = true := by
      by_contra dead
      rw [Bool.not_eq_true] at dead
      rw [spec.idle index dead, dead] at live
      simp at live
    by_cases named : heap.Named roots index
    · rw [spec.kept index before named]
      exact dense.filled index before
    · rw [spec.lost index before named] at live
      simp at live
  | grown _ _ spec =>
    rw [spec.slotAt] at live
    rw [spec.kept index live]
    exact dense.filled index live

/-- A dense heap stays dense while it answers requests. -/
theorem Dense.run {heap : Heap} (dense : heap.Dense) (requests : List Request)
    (nonempty : ∀ object, .allocate object ∈ requests → object ≠ []) :
    (heap.run requests).Dense := by
  induction requests generalizing heap with
  | nil => exact dense
  | cons request requests inductionHypothesis =>
    have next := dense.answer request fun object same =>
      nonempty object (same ▸ List.mem_cons_self)
    exact inductionHypothesis next fun object among =>
      nonempty object (List.mem_cons_of_mem _ among)

/-- A dense heap stays dense when it places an object. -/
theorem Dense.place? {heap : Heap} (dense : heap.Dense) (roots : List Handle)
    {object : List UInt8} (nonempty : object ≠ []) : (heap.place? roots object).2.Dense := by
  rcases placed : heap.place? roots object with ⟨outcome, next⟩
  obtain ⟨requests, rfl, -, allocations, -⟩ := place?_requests placed
  exact dense.run requests fun other among => allocations other among ▸ nonempty

end Calculator.Heap
