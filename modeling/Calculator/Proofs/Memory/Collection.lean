import Calculator.Proofs.Memory.Layout
import Mathlib

/-!
# Collections

A collection walks over the objects in the order in which they lie. What has been kept so far
fills a stretch from the first byte on that never reaches an object still to come, so moving
an object overwrites none of those. In the end the objects that some root names are all
there, with the same bytes, and the slots of the others are free in their next generation.
-/

namespace Calculator.Heap

/-- Whether one of the roots names the object in a slot. -/
def Named (heap : Heap) (roots : List Handle) (index : Nat) : Prop :=
  ∃ root ∈ roots, heap.isValid root = true ∧ root.slot.toNat = index

/-- Marking goes over the roots from any marks on and adds the slots of the valid ones. -/
theorem marks_foldl (heap : Heap) (roots : List Handle) (marks : Array Bool)
    (size : marks.size = heap.slots.size) (index : Nat) :
    ((roots.foldl (fun marks root =>
        if heap.isValid root then marks.setIfInBounds root.slot.toNat true else marks)
        marks)[index]?).getD false = true ↔
      (marks[index]?).getD false = true ∨ heap.Named roots index := by
  induction roots generalizing marks with
  | nil => simp [Named]
  | cons root roots inductionHypothesis =>
    rw [List.foldl_cons]
    by_cases valid : heap.isValid root = true
    · have inside : root.slot.toNat < marks.size := by
        rw [size]
        exact lt_size_of_live ((isValid_iff heap root).mp valid).1
      rw [if_pos valid, inductionHypothesis _ (by rw [Array.size_setIfInBounds, size]),
        Array.getElem?_setIfInBounds]
      by_cases here : root.slot.toNat = index
      · subst here
        simp [inside, Named, valid]
      · simp [here, Named]
    · rw [if_neg valid, inductionHypothesis _ size]
      simp [Named, valid]

/-- The marked slots are those whose object a root names. -/
theorem marks_iff (heap : Heap) (roots : List Handle) (index : Nat) :
    ((heap.marks roots)[index]?).getD false = true ↔ heap.Named roots index := by
  rw [marks, marks_foldl heap roots _ (Array.size_replicate ..)]
  have blank : ((Array.replicate heap.slots.size false)[index]?).getD false = false := by
    rw [Array.getElem?_replicate]
    split <;> rfl
  simp [blank]

/-- Whether the stretch of a slot does not begin behind that of another one. -/
def Before (heap : Heap) (left right : Nat) : Prop :=
  (heap.slotAt left).offset ≤ (heap.slotAt right).offset

instance (heap : Heap) : DecidableRel heap.Before := fun left right =>
  inferInstanceAs (Decidable ((heap.slotAt left).offset ≤ (heap.slotAt right).offset))

/-- A slot is inserted into a list as its position demands. -/
theorem insertSlot_eq (heap : Heap) (index : Nat) (others : List Nat) :
    heap.insertSlot index others = others.orderedInsert heap.Before index := by
  have offsets (index : Nat) : (heap.slots[index]?.map Slot.offset).getD 0 =
      (heap.slotAt index).offset := by
    rw [slotAt]
    cases heap.slots[index]? <;> rfl
  induction others with
  | nil => rfl
  | cons other others inductionHypothesis =>
    simp only [insertSlot, offsets, List.orderedInsert, inductionHypothesis]
    rfl

/-- The slots with objects are listed by their positions. -/
theorem liveSlots_eq (heap : Heap) :
    heap.liveSlots = ((List.range heap.slots.size).filter fun index =>
      (heap.slotAt index).live).insertionSort heap.Before := by
  have lives (index : Nat) : (heap.slots[index]?.map Slot.live).getD false =
      (heap.slotAt index).live := by
    rw [slotAt]
    cases heap.slots[index]? <;> rfl
  simp only [liveSlots, lives]
  congr 1
  funext index others
  exact insertSlot_eq heap index others

/-- The slots with objects are listed once each, and a stretch that is not empty lies behind all
those listed before. -/
theorem liveSlots_spec {heap : Heap} (sound : heap.Sound) :
    heap.liveSlots.Nodup ∧ (∀ index, index ∈ heap.liveSlots ↔ (heap.slotAt index).live = true) ∧
      heap.liveSlots.Pairwise fun earlier later =>
        0 < (heap.slotAt later).length →
          (heap.slotAt earlier).stop ≤ (heap.slotAt later).offset := by
  have members (index : Nat) : index ∈ heap.liveSlots ↔ (heap.slotAt index).live = true := by
    rw [liveSlots_eq, List.mem_insertionSort, List.mem_filter, List.mem_range]
    exact ⟨fun listed => listed.2, fun live => ⟨lt_size_of_live live, live⟩⟩
  have distinct : heap.liveSlots.Nodup := by
    rw [liveSlots_eq, (List.perm_insertionSort _ _).nodup_iff]
    exact List.nodup_range.filter _
  have total : Std.Total heap.Before := ⟨fun left right => Nat.le_total _ _⟩
  have transitive : IsTrans Nat heap.Before := ⟨fun _ _ _ => Nat.le_trans⟩
  have sorted : heap.liveSlots.Pairwise heap.Before := by
    rw [liveSlots_eq]
    exact List.pairwise_insertionSort heap.Before _
  refine ⟨distinct, members, ?_⟩
  refine (sorted.and distinct).imp_of_mem ?_
  intro earlier later listedEarlier listedLater ordered nonempty
  obtain ⟨before, other⟩ := ordered
  rw [Before] at before
  have apart := sound.apart ((members earlier).mp listedEarlier) ((members later).mp listedLater)
    other
  rw [Slot.stop, Slot.stop] at apart
  rw [Slot.stop]
  omega

/-! ## Keeping and discarding one object -/

/-- What is known of a heap on which an object was moved behind those kept before. -/
structure Kept (now : Heap) (index : Nat) (next : Heap) : Prop where
  /-- The slot stands for the stretch behind those kept before. -/
  slot : next.slotAt index = { now.slotAt index with offset := now.used }
  /-- All other slots are as before. -/
  others : ∀ other ≠ index, next.slotAt other = now.slotAt other
  /-- The object is counted. -/
  used : next.used = now.used + (now.slotAt index).length
  /-- The object is as before. -/
  content : next.content index = now.content index
  /-- Nothing else in the memory has changed. -/
  apart : ∀ start length,
    start + length ≤ now.used ∨ now.used + (now.slotAt index).length ≤ start →
      next.memory.extract start (start + length) = now.memory.extract start (start + length)
  /-- The number of slots is as before. -/
  slots : next.slots.size = now.slots.size
  /-- The free slots are as before. -/
  free : next.free = now.free
  /-- The capacity and the limit are as before. -/
  bounds : next.capacity = now.capacity ∧ next.limit = now.limit

/-- Keeping an object moves it toward the front, if it is not there already. -/
theorem keep_spec (now : Heap) (index : Nat) (inside : index < now.slots.size)
    (forward : 0 < (now.slotAt index).length → now.used ≤ (now.slotAt index).offset)
    (room : (now.slotAt index).stop ≤ now.memory.size) :
    Kept now index (now.keep index (now.slotAt index)) := by
  rw [keep]
  split
  · rename_i there
    have same : now.slotAt index = { now.slotAt index with offset := now.used } := by
      rw [← there]
    exact ⟨same, fun _ _ => rfl, rfl, rfl, fun _ _ _ => rfl, rfl, rfl, rfl, rfl⟩
  · have slots (other : Nat) : (now.keep index (now.slotAt index)).slotAt other =
        if index = other then { now.slotAt index with offset := now.used }
          else now.slotAt other := by
      rename_i elsewhere
      rw [keep, if_neg elsewhere]
      exact slotAt_set now index other _ inside
    rename_i elsewhere
    rw [keep, if_neg elsewhere] at slots
    have moved : (slide now.memory (now.slotAt index).offset now.used
          (now.slotAt index).length).extract now.used (now.used + (now.slotAt index).length) =
        now.memory.extract (now.slotAt index).offset (now.slotAt index).stop := by
      rcases Nat.eq_zero_or_pos (now.slotAt index).length with empty | nonempty
      · simp [Slot.stop, empty]
      · exact extract_slide _ _ _ _ (forward nonempty) room
    have apart (start length : Nat)
        (clear : start + length ≤ now.used ∨ now.used + (now.slotAt index).length ≤ start) :
        (slide now.memory (now.slotAt index).offset now.used
          (now.slotAt index).length).extract start (start + length) =
          now.memory.extract start (start + length) := by
      rcases Nat.eq_zero_or_pos (now.slotAt index).length with empty | nonempty
      · rw [empty, slide]
      · exact extract_slide_apart _ _ _ _ _ _ (forward nonempty) room clear
    refine ⟨?_, fun other distinct => ?_, rfl, ?_, apart, ?_, rfl, ?_, rfl⟩
    · rw [slots, if_pos rfl]
    · rw [slots, if_neg distinct.symm]
    · rw [content, slots, if_pos rfl, content]
      exact congrArg Array.toList moved
    · exact Array.size_setIfInBounds
    · rw [capacity, slide_size, capacity]

/-- The slot of a discarded object is free and in its next generation. -/
theorem discard_slotAt (now : Heap) (index other : Nat) (inside : index < now.slots.size) :
    (now.discard index (now.slotAt index)).slotAt other =
      if index = other then
        { now.slotAt index with generation := (now.slotAt index).generation + 1, live := false }
      else now.slotAt other :=
  slotAt_set now index other _ inside

/-! ## Going over the objects -/

/-- The state of a collection that has settled some objects and has others still to come, in the
order in which they lie. -/
structure Settling (heap : Heap) (keeps : Nat → Bool) (settled coming : List Nat) (now : Heap) :
    Prop where
  /-- What has been kept does not reach an object still to come. -/
  behind : ∀ index ∈ coming, 0 < (heap.slotAt index).length →
    now.used ≤ (heap.slotAt index).offset
  /-- The slots of all other objects are as before. -/
  waiting : ∀ index ∉ settled, now.slotAt index = heap.slotAt index
  /-- The objects still to come are as before. -/
  untouched : ∀ index ∈ coming, now.content index = heap.content index
  /-- What has been kept fills a stretch from the first byte on. -/
  filled : Contiguous 0 ((settled.filter keeps).map now.slotAt) now.used
  /-- The slots of kept objects differ from before in the position only. -/
  spared : ∀ index ∈ settled, keeps index = true →
    now.slotAt index = { heap.slotAt index with offset := (now.slotAt index).offset }
  /-- The kept objects are as before. -/
  kept : ∀ index ∈ settled, keeps index = true → now.content index = heap.content index
  /-- The slots of the others have none and are in their next generation. -/
  lost : ∀ index ∈ settled, keeps index = false → now.slotAt index =
    { heap.slotAt index with generation := (heap.slotAt index).generation + 1, live := false }
  /-- The slots of the others are free, behind those that were free before. -/
  free : now.free =
    ((settled.filter fun index => !keeps index).reverse.map UInt32.ofNat) ++ heap.free
  /-- The number of slots is as before. -/
  slots : now.slots.size = heap.slots.size
  /-- The capacity and the limit are as before. -/
  bounds : now.capacity = heap.capacity ∧ now.limit = heap.limit

/-- A stretch of no bytes holds nothing. -/
theorem content_of_empty {heap : Heap} {index : Nat} (empty : (heap.slotAt index).length = 0) :
    heap.content index = [] := by
  simp [content, Slot.stop, empty]

/-- The content of a slot depends on its stretch only. -/
theorem content_congr {first second : Heap} {index other : Nat}
    (same : first.memory.extract (first.slotAt index).offset (first.slotAt index).stop =
      second.memory.extract (second.slotAt other).offset (second.slotAt other).stop) :
    first.content index = second.content other :=
  congrArg Array.toList same

/-- The objects before and behind one in a list without repetitions are others. -/
theorem others_of_nodup {settled coming : List Nat} {index : Nat}
    (distinct : (settled ++ index :: coming).Nodup) :
    (∀ other ∈ settled, other ≠ index) ∧ ∀ other ∈ coming, other ∉ settled ∧ other ≠ index := by
  obtain ⟨-, behind, apart⟩ := List.nodup_append.mp distinct
  refine ⟨fun other done => apart other done index List.mem_cons_self, fun other among => ?_⟩
  refine ⟨fun done => apart other done other (List.mem_cons_of_mem _ among) rfl, ?_⟩
  rintro rfl
  exact (List.nodup_cons.mp behind).1 among

/-- Keeping the next object keeps the state of a collection. -/
theorem Settling.keep {heap now next : Heap} {keeps : Nat → Bool} {settled coming : List Nat}
    {index : Nat} (state : Settling heap keeps settled (index :: coming) now)
    (distinct : (settled ++ index :: coming).Nodup) (keep : keeps index = true)
    (later : ∀ other ∈ coming, 0 < (heap.slotAt other).length →
      (heap.slotAt index).stop ≤ (heap.slotAt other).offset)
    (moved : Kept now index next) :
    Settling heap keeps (settled ++ [index]) coming next := by
  obtain ⟨other_of_settled, unsettled⟩ := others_of_nodup distinct
  have slot : now.slotAt index = heap.slotAt index :=
    state.waiting index fun done => other_of_settled index done rfl
  have used := moved.used
  rw [slot] at used
  -- The object moves into a place that ends before the stretches that come later.
  have clear (other : Nat) (among : other ∈ coming) (nonempty : 0 < (heap.slotAt other).length) :
      now.used + (heap.slotAt index).length ≤ (heap.slotAt other).offset := by
    have reached := later other among nonempty
    have here := state.behind index List.mem_cons_self
    have there := state.behind other (List.mem_cons_of_mem _ among) nonempty
    rw [Slot.stop] at reached
    omega
  have front : (settled ++ [index]).filter keeps = settled.filter keeps ++ [index] := by
    simp [List.filter_append, keep]
  have back : ((settled ++ [index]).filter fun index => !keeps index) =
      settled.filter fun index => !keeps index := by
    simp [List.filter_append, keep]
  have earlier : (settled.filter keeps).map next.slotAt = (settled.filter keeps).map now.slotAt :=
    List.map_congr_left fun other among =>
      moved.others other (other_of_settled other (List.mem_filter.mp among).1)
  constructor
  case behind =>
    intro other among nonempty
    rw [used]
    exact clear other among nonempty
  case waiting =>
    intro other among
    rw [List.mem_append, List.mem_singleton, not_or] at among
    rw [moved.others other among.2]
    exact state.waiting other among.1
  case untouched =>
    intro other among
    have still : next.slotAt other = heap.slotAt other := by
      rw [moved.others other (unsettled other among).2]
      exact state.waiting other (unsettled other among).1
    rcases Nat.eq_zero_or_pos (heap.slotAt other).length with empty | nonempty
    · rw [content_of_empty empty, content_of_empty (by rw [still]; exact empty)]
    · rw [← state.untouched other (List.mem_cons_of_mem _ among)]
      refine content_congr ?_
      rw [still, state.waiting other (unsettled other among).1]
      exact moved.apart _ _ (.inr (by rw [slot]; exact clear other among nonempty))
  case filled =>
    rw [front, List.map_append, earlier]
    refine state.filled.append ?_
    rw [List.map_singleton, moved.slot]
    exact ⟨rfl, by rw [moved.used]; rfl⟩
  case spared =>
    intro other among kept
    rcases List.mem_append.mp among with done | here
    · rw [moved.others other (other_of_settled other done)]
      exact state.spared other done kept
    · obtain rfl := List.mem_singleton.mp here
      rw [moved.slot, slot]
  case kept =>
    intro other among kept
    rcases List.mem_append.mp among with done | here
    · have inside : (now.slotAt other).stop ≤ now.used :=
        (state.filled.inside (List.mem_map_of_mem (List.mem_filter.mpr ⟨done, kept⟩))).2
      rw [← state.kept other done kept]
      refine content_congr ?_
      rw [moved.others other (other_of_settled other done)]
      exact moved.apart _ _ (.inl inside)
    · obtain rfl := List.mem_singleton.mp here
      rw [moved.content]
      exact state.untouched other List.mem_cons_self
  case lost =>
    intro other among dropped
    rcases List.mem_append.mp among with done | here
    · rw [moved.others other (other_of_settled other done)]
      exact state.lost other done dropped
    · obtain rfl := List.mem_singleton.mp here
      rw [keep] at dropped
      exact absurd dropped (by simp)
  case free =>
    rw [moved.free, back]
    exact state.free
  case slots =>
    rw [moved.slots]
    exact state.slots
  case bounds =>
    exact ⟨moved.bounds.1.trans state.bounds.1, moved.bounds.2.trans state.bounds.2⟩

/-- Discarding the next object keeps the state of a collection. -/
theorem Settling.discard {heap now : Heap} {keeps : Nat → Bool} {settled coming : List Nat}
    {index : Nat} (state : Settling heap keeps settled (index :: coming) now)
    (distinct : (settled ++ index :: coming).Nodup) (drop : keeps index = false)
    (inside : index < now.slots.size) :
    Settling heap keeps (settled ++ [index]) coming (now.discard index (now.slotAt index)) := by
  obtain ⟨other_of_settled, unsettled⟩ := others_of_nodup distinct
  have others (other : Nat) (apart : other ≠ index) :
      (now.discard index (now.slotAt index)).slotAt other = now.slotAt other := by
    rw [discard_slotAt now index other inside, if_neg apart.symm]
  have content (other : Nat) (apart : other ≠ index) :
      (now.discard index (now.slotAt index)).content other = now.content other := by
    refine content_congr ?_
    rw [others other apart]
    rfl
  have front : (settled ++ [index]).filter keeps = settled.filter keeps := by
    simp [List.filter_append, drop]
  have back : ((settled ++ [index]).filter fun index => !keeps index) =
      (settled.filter fun index => !keeps index) ++ [index] := by
    simp [List.filter_append, drop]
  have earlier : (settled.filter keeps).map (now.discard index (now.slotAt index)).slotAt =
      (settled.filter keeps).map now.slotAt :=
    List.map_congr_left fun other among =>
      others other (other_of_settled other (List.mem_filter.mp among).1)
  constructor
  case behind =>
    intro other among nonempty
    exact state.behind other (List.mem_cons_of_mem _ among) nonempty
  case waiting =>
    intro other among
    rw [List.mem_append, List.mem_singleton, not_or] at among
    rw [others other among.2]
    exact state.waiting other among.1
  case untouched =>
    intro other among
    rw [content other (unsettled other among).2]
    exact state.untouched other (List.mem_cons_of_mem _ among)
  case filled =>
    rw [front, earlier]
    exact state.filled
  case spared =>
    intro other among kept
    rcases List.mem_append.mp among with done | here
    · rw [others other (other_of_settled other done)]
      exact state.spared other done kept
    · obtain rfl := List.mem_singleton.mp here
      rw [drop] at kept
      exact absurd kept (by simp)
  case kept =>
    intro other among kept
    rcases List.mem_append.mp among with done | here
    · rw [content other (other_of_settled other done)]
      exact state.kept other done kept
    · obtain rfl := List.mem_singleton.mp here
      rw [drop] at kept
      exact absurd kept (by simp)
  case lost =>
    intro other among dropped
    rcases List.mem_append.mp among with done | here
    · rw [others other (other_of_settled other done)]
      exact state.lost other done dropped
    · obtain rfl := List.mem_singleton.mp here
      rw [discard_slotAt now other other inside, if_pos rfl,
        state.waiting other fun done => other_of_settled other done rfl]
  case free =>
    have pushed : (now.discard index (now.slotAt index)).free = UInt32.ofNat index :: now.free := rfl
    rw [pushed, state.free, back, List.reverse_append]
    rfl
  case slots =>
    exact Array.size_setIfInBounds.trans state.slots
  case bounds =>
    exact state.bounds

/-- Settling all the objects still to come, from any state of a collection on. -/
theorem Settling.all {heap now : Heap} {marks : Array Bool} {settled coming : List Nat}
    (sound : heap.Sound)
    (state : Settling heap (fun index => (marks[index]?).getD false) settled coming now)
    (distinct : (settled ++ coming).Nodup)
    (live : ∀ index ∈ coming, (heap.slotAt index).live = true)
    (ordered : coming.Pairwise fun earlier later => 0 < (heap.slotAt later).length →
      (heap.slotAt earlier).stop ≤ (heap.slotAt later).offset) :
    Settling heap (fun index => (marks[index]?).getD false) (settled ++ coming) []
      (coming.foldl (settle marks) now) := by
  induction coming generalizing settled now with
  | nil =>
    rw [List.append_nil]
    exact state
  | cons index coming inductionHypothesis =>
    obtain ⟨liveIndex, liveComing⟩ := List.forall_mem_cons.mp live
    obtain ⟨later, orderedComing⟩ := List.pairwise_cons.mp ordered
    have slot : now.slotAt index = heap.slotAt index :=
      state.waiting index fun done => (others_of_nodup distinct).1 index done rfl
    have inside : index < now.slots.size := by
      rw [state.slots]
      exact lt_size_of_live liveIndex
    have next : Settling heap (fun index => (marks[index]?).getD false) (settled ++ [index]) coming
        (settle marks now index) := by
      rw [settle, getElem?_slots inside]
      cases keeps : (marks[index]?).getD false with
      | true =>
        refine state.keep distinct keeps later (keep_spec now index inside ?_ ?_)
        · rw [slot]
          exact state.behind index List.mem_cons_self
        · have stop := sound.stop_le liveIndex
          have bounded := sound.bounded
          rw [slot, ← capacity, state.bounds.1]
          omega
      | false => exact state.discard distinct keeps inside
    rw [List.foldl_cons, List.append_cons]
    rw [List.append_cons] at distinct
    exact inductionHypothesis next distinct liveComing orderedComing

/-! ## Whole collections -/

/-- What is known of a heap that was collected. -/
structure Collected (heap : Heap) (roots : List Handle) (next : Heap) : Prop where
  /-- The layout is kept. -/
  sound : next.Sound
  /-- A slot whose object a root names has moved at most. -/
  spared : ∀ index, (heap.slotAt index).live = true → heap.Named roots index →
    next.slotAt index = { heap.slotAt index with offset := (next.slotAt index).offset }
  /-- An object that a root names is as before. -/
  kept : ∀ index, (heap.slotAt index).live = true → heap.Named roots index →
    next.content index = heap.content index
  /-- Every other object is gone, and its slot is in the next generation. -/
  lost : ∀ index, (heap.slotAt index).live = true → ¬ heap.Named roots index →
    next.slotAt index =
      { heap.slotAt index with generation := (heap.slotAt index).generation + 1, live := false }
  /-- A slot without an object is as before. -/
  idle : ∀ index, (heap.slotAt index).live = false → next.slotAt index = heap.slotAt index
  /-- The number of slots is as before. -/
  slots : next.slots.size = heap.slots.size
  /-- The capacity and the limit are as before. -/
  bounds : next.capacity = heap.capacity ∧ next.limit = heap.limit

/-- After all objects are settled, the kept ones fill the bytes in use. -/
theorem Settling.tiles {heap now : Heap} {keeps : Nat → Bool} {settled : List Nat}
    (state : Settling heap keeps settled [] now) (distinct : settled.Nodup)
    (members : ∀ index, index ∈ settled ↔ (heap.slotAt index).live = true) :
    now.Tiles (settled.filter keeps) := by
  refine ⟨distinct.filter _, fun index => ?_, state.filled⟩
  rw [List.mem_filter]
  by_cases listed : index ∈ settled
  · have live := (members index).mp listed
    cases keep : keeps index with
    | true =>
      rw [state.spared index listed keep]
      simp [listed, live]
    | false =>
      rw [state.lost index listed keep]
      simp
  · rw [state.waiting index listed, ← members]
    simp [listed]

/-- After all objects are settled, the free slots are those without objects, each of them once. -/
theorem Settling.frees {heap now : Heap} {keeps : Nat → Bool} {settled : List Nat}
    (state : Settling heap keeps settled [] now) (sound : heap.Sound) (distinct : settled.Nodup)
    (members : ∀ index, index ∈ settled ↔ (heap.slotAt index).live = true) :
    now.free.Nodup ∧ ∀ index, index ∈ now.free ↔
      index.toNat < now.slots.size ∧ (now.slotAt index.toNat).live = false := by
  have number (index : Nat) (listed : index ∈ settled) :
      (UInt32.ofNat index).toNat = index := by
    have inside := lt_size_of_live ((members index).mp listed)
    exact UInt32.toNat_ofNat_of_lt' (Nat.lt_of_lt_of_le inside sound.few)
  have dropped (index : UInt32) :
      index ∈ ((settled.filter fun index => !keeps index).reverse.map UInt32.ofNat) ↔
        index.toNat ∈ settled ∧ keeps index.toNat = false := by
    rw [List.mem_map]
    constructor
    · rintro ⟨other, among, rfl⟩
      rw [List.mem_reverse, List.mem_filter] at among
      rw [number other among.1]
      simpa using among
    · rintro ⟨listed, drop⟩
      refine ⟨index.toNat, ?_, UInt32.ofNat_toNat⟩
      rw [List.mem_reverse, List.mem_filter]
      simp [listed, drop]
  have before (index : UInt32) (free : index ∈ heap.free) : index.toNat ∉ settled := by
    rw [members, ((sound.freeDead index).mp free).2]
    simp
  constructor
  · rw [state.free, List.nodup_append]
    refine ⟨?_, sound.freeOnce, ?_⟩
    · refine List.Nodup.map_on ?_ (List.nodup_reverse.mpr (distinct.filter _))
      intro first amongFirst second amongSecond same
      rw [List.mem_reverse, List.mem_filter] at amongFirst amongSecond
      rw [← number first amongFirst.1, ← number second amongSecond.1, same]
    · rintro index among other free rfl
      exact before index free ((dropped index).mp among).1
  · intro index
    rw [state.free, List.mem_append, dropped, sound.freeDead, state.slots]
    by_cases listed : index.toNat ∈ settled
    · have live := (members index.toNat).mp listed
      have inside := lt_size_of_live live
      cases keep : keeps index.toNat with
      | true =>
        rw [state.spared _ listed keep]
        simp [live]
      | false =>
        rw [state.lost _ listed keep]
        simp [listed, inside]
    · rw [state.waiting _ listed]
      simp [listed]

/-- After all objects are settled, the bytes in use are those of the kept ones, and together with
those of the others they are the bytes in use before. -/
theorem Settling.used {heap now : Heap} {keeps : Nat → Bool} {settled : List Nat}
    (state : Settling heap keeps settled [] now) (sound : heap.Sound) (distinct : settled.Nodup)
    (members : ∀ index, index ∈ settled ↔ (heap.slotAt index).live = true) :
    now.used + ((settled.filter fun index => !keeps index).map fun index =>
      (heap.slotAt index).length).sum = heap.used := by
  have total := sound.total distinct members
  have kept := state.filled.length
  have same : (settled.filter keeps).map (Slot.length ∘ now.slotAt) =
      (settled.filter keeps).map fun index => (heap.slotAt index).length := by
    refine List.map_congr_left fun index among => ?_
    obtain ⟨listed, keep⟩ := List.mem_filter.mp among
    rw [Function.comp, state.spared index listed keep]
  have whole : ((settled.filter keeps ++ settled.filter fun index => !keeps index).map fun index =>
      (heap.slotAt index).length).sum = heap.used :=
    ((List.filter_append_perm keeps settled).map _).sum_eq.trans total
  rw [List.map_map, same] at kept
  rw [List.map_append, List.sum_append] at whole
  omega

/-- After all objects are settled, the heap has the layout. -/
theorem Settling.sound {heap now : Heap} {keeps : Nat → Bool} {settled : List Nat}
    (state : Settling heap keeps settled [] now) (sound : heap.Sound) (distinct : settled.Nodup)
    (members : ∀ index, index ∈ settled ↔ (heap.slotAt index).live = true) : now.Sound where
  tiled := ⟨_, state.tiles distinct members⟩
  bounded := by
    have parts := state.used sound distinct members
    have bounded := sound.bounded
    rw [state.bounds.1]
    omega
  capped := by
    rw [state.bounds.1, state.bounds.2]
    exact sound.capped
  few := state.slots.le.trans sound.few
  freeOnce := (state.frees sound distinct members).1
  freeDead := (state.frees sound distinct members).2

/-- The objects of the slots that a collection settles. -/
theorem settled_all {heap : Heap} (sound : heap.Sound) (roots : List Handle) :
    Settling heap (fun index => ((heap.marks roots)[index]?).getD false) heap.liveSlots []
      (heap.liveSlots.foldl (settle (heap.marks roots)) { heap with used := 0 }) := by
  obtain ⟨distinct, members, ordered⟩ := liveSlots_spec sound
  have start : Settling heap (fun index => ((heap.marks roots)[index]?).getD false) []
      heap.liveSlots { heap with used := 0 } :=
    ⟨fun _ _ _ => Nat.zero_le _, fun _ _ => rfl, fun _ _ => rfl, rfl,
      fun _ impossible => absurd impossible List.not_mem_nil,
      fun _ impossible => absurd impossible List.not_mem_nil,
      fun _ impossible => absurd impossible List.not_mem_nil, rfl, rfl, rfl, rfl⟩
  exact start.all sound distinct (fun index => (members index).mp) ordered

/-- Collecting keeps the named objects and discards all others. -/
theorem collect_spec {heap : Heap} (sound : heap.Sound) (roots : List Handle) :
    Collected heap roots (heap.collect roots).2 := by
  obtain ⟨distinct, members, -⟩ := liveSlots_spec sound
  have done := settled_all sound roots
  have keeps (index : Nat) : ((heap.marks roots)[index]?).getD false = true ↔
      heap.Named roots index := marks_iff heap roots index
  constructor
  case sound =>
    -- To count the collection and what it gave back leaves the layout as it is.
    obtain ⟨⟨order, tiles⟩, bounded, capped, few, freeOnce, freeDead⟩ :=
      done.sound sound distinct members
    exact ⟨⟨order, tiles.distinct, tiles.live, tiles.filled⟩, bounded, capped, few, freeOnce,
      freeDead⟩
  case spared =>
    intro index live named
    exact done.spared index ((members index).mpr live) ((keeps index).mpr named)
  case kept =>
    intro index live named
    exact done.kept index ((members index).mpr live) ((keeps index).mpr named)
  case lost =>
    intro index live unnamed
    exact done.lost index ((members index).mpr live) (by
      rw [← keeps] at unnamed
      simpa using unnamed)
  case idle =>
    intro index dead
    exact done.waiting index fun listed => by
      rw [members, dead] at listed
      exact absurd listed (by simp)
  case slots => exact done.slots
  case bounds => exact done.bounds

/-- The slots that lost their object from one heap to another. -/
def killed (before after : Heap) : List Nat :=
  (List.range before.slots.size).filter fun index =>
    (before.slotAt index).live && !(after.slotAt index).live

/-- What a collection says that it gave back are the bytes of the objects that were lost. -/
theorem collect_reclaimed {heap : Heap} (sound : heap.Sound) (roots : List Handle) :
    (heap.collect roots).1 =
      ((heap.killed (heap.collect roots).2).map fun index => (heap.slotAt index).length).sum := by
  obtain ⟨distinct, members, -⟩ := liveSlots_spec sound
  have parts := (settled_all sound roots).used sound distinct members
  have collected := collect_spec sound roots
  have keeps (index : Nat) : ((heap.marks roots)[index]?).getD false = true ↔
      heap.Named roots index := marks_iff heap roots index
  have same : (heap.liveSlots.filter fun index =>
      !((heap.marks roots)[index]?).getD false).Perm (heap.killed (heap.collect roots).2) := by
    refine (List.perm_ext_iff_of_nodup (distinct.filter _) (List.nodup_range.filter _)).mpr ?_
    intro index
    rw [List.mem_filter, List.mem_filter, List.mem_range, members]
    by_cases live : (heap.slotAt index).live = true
    · by_cases named : heap.Named roots index
      · rw [collected.spared index live named, (keeps index).mpr named]
        simp [live]
      · have drop : ((heap.marks roots)[index]?).getD false = false := by
          rw [← keeps] at named
          simpa using named
        rw [collected.lost index live named, drop]
        simp [live, lt_size_of_live live]
    · simp [live]
  rw [← (same.map fun index => (heap.slotAt index).length).sum_eq]
  change heap.used -
    (heap.liveSlots.foldl (settle (heap.marks roots)) { heap with used := 0 }).used = _
  omega

end Calculator.Heap
