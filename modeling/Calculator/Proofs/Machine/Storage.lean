import Calculator.Proofs.Encoding.RoundTrip
import Calculator.Proofs.Machine.Simulation
import Calculator.Proofs.Memory.Service
import Mathlib

/-!
# Storages

A machine may keep its objects on the heap or as they are. A heap that collects, moves and
grows still has the object of every root at the end, so reading a handle gives what the object
was decoded to when it was placed, and the handles stand for the objects.

Nothing more is said of a heap with more slots than a word can number, and of one that has
refused an object. To say the second, the heap is watched: a note is made of every refusal. The
note changes nothing else.
-/

namespace Calculator

/-! ## Objects as they are -/

/-- The value that an encoding is read as. -/
def Encoding.reading (object : List UInt8) : Outcome Value :=
  (decode object).mapError Fault.malformed |>.map Prod.fst

/-- The encoding of a conforming value is read as that value. -/
theorem Encoding.reading_encode {value : Value} (conforming : Conforming value) :
    reading (encode value) = .ok value := by
  have decoded := decode_encode value [] conforming
  rw [List.append_nil] at decoded
  rw [reading, decoded]
  rfl

/-- Objects as they are read: what refers to an object is the object itself, and there is nothing
to collect. -/
instance : Storage Unit (Outcome Value) where
  place _ _ object := (.ok (Encoding.reading object), ())
  valueOf _ outcome := outcome
  collect _ _ := (0, ())

/-! ## The heap -/

namespace Heap

/-- A dense heap stands for itself. -/
def itself : Link Heap Handle Heap Handle where
  image _ handle := handle
  Valid _ _ := True
  Matched heap other := heap = other ∧ heap.Dense
  Lost _ := False
  Reports := False

/-- A heap stays dense, for no encoding is empty. -/
theorem lawful_itself : itself.Lawful where
  value := by
    rintro heap other handle ⟨rfl, -⟩ -
    rfl
  place := by
    rintro heap other roots value ⟨rfl, dense⟩ -
    rw [show roots.map (itself.image heap) = roots from List.map_id' roots]
    have nonempty := List.length_pos_iff.mp (Encoding.encode_length_pos value)
    have next := dense.place? roots nonempty
    simp only [Storage.place]
    rcases placed : heap.place? roots (Encoding.encode value) with ⟨_ | handle, after⟩
    all_goals rw [placed] at next
    · exact .failed ⟨⟨rfl, next⟩, fun _ _ => trivial, fun _ _ => rfl⟩
    · exact .done ⟨⟨rfl, next⟩, fun _ _ => trivial, fun _ _ => rfl⟩ trivial
  collect := by
    rintro heap other roots ⟨rfl, dense⟩ -
    rw [show roots.map (itself.image heap) = roots from List.map_id' roots]
    have next := dense.answer (.collect roots) (by simp)
    exact .inr ⟨⟨rfl, next⟩, fun _ _ => trivial, fun _ _ => rfl⟩
  placeLost _ _ gone := gone
  collectLost _ gone := gone

end Heap

/-! ## A watched heap -/

/-- A heap, and whether it has ever refused an object. -/
structure WatchedHeap where
  heap : Heap
  refused : Bool

instance : Storage WatchedHeap Handle where
  place watched roots object :=
    match watched.heap.place? roots object with
    | (some handle, heap) => (.ok handle, { watched with heap })
    | (none, heap) => (.error .outOfMemory, ⟨heap, true⟩)
  valueOf watched := watched.heap.valueOf
  collect watched roots :=
    let (reclaimed, heap) := watched.heap.collect roots
    (reclaimed, { watched with heap })

namespace WatchedHeap

/-- A watched heap stands for the heap itself. -/
def unwatched : Link WatchedHeap Handle Heap Handle where
  image _ handle := handle
  Valid _ _ := True
  Matched watched heap := watched.heap = heap
  Lost _ := False
  Reports := False

/-- To watch a heap changes nothing. -/
theorem lawful_unwatched : unwatched.Lawful where
  value := by
    rintro watched heap handle rfl -
    rfl
  place := by
    rintro watched heap roots value rfl -
    rw [show roots.map (unwatched.image watched) = roots from List.map_id' roots]
    simp only [Storage.place]
    rcases watched.heap.place? roots (Encoding.encode value) with ⟨_ | handle, next⟩
    · exact .failed ⟨rfl, fun _ _ => trivial, fun _ _ => rfl⟩
    · exact .done ⟨rfl, fun _ _ => trivial, fun _ _ => rfl⟩ trivial
  collect := by
    rintro watched heap roots rfl -
    rw [show roots.map (unwatched.image watched) = roots from List.map_id' roots]
    exact .inr ⟨rfl, fun _ _ => trivial, fun _ _ => rfl⟩
  placeLost _ _ gone := gone
  collectLost _ gone := gone

/-- The handles of a watched heap stand for the values of the objects. The heap is lost when it has
more slots than a word can number. A refusal is either reported by the action in which it happens,
or the heap is lost by it. -/
def decoded (reports : Prop) : Link WatchedHeap Handle Unit (Outcome Value) where
  image watched handle := watched.heap.valueOf handle
  Valid watched handle := ∃ object, watched.heap.get? handle = some object
  Matched watched _ := watched.heap.Sound
  Lost watched := UInt32.size < watched.heap.slots.size ∨ ¬ reports ∧ watched.refused = true
  Reports := reports

/-- A handle has the value that its object is read as. -/
theorem valueOf_eq_reading {heap : Heap} {handle : Handle} {object : List UInt8}
    (held : heap.get? handle = some object) : heap.valueOf handle = Encoding.reading object := by
  rw [Heap.valueOf, held]
  rfl

/-- If the objects of all roots are what they were, the roots stand for what they did. -/
theorem carried_of_kept {reports : Prop} {watched next : WatchedHeap} {roots : List Handle}
    (sound : next.heap.Sound)
    (valid : ∀ root ∈ roots, (decoded reports).Valid watched root)
    (kept : ∀ root ∈ roots, ∀ held,
      watched.heap.get? root = some held → next.heap.get? root = some held) :
    (decoded reports).Carried roots watched next () := by
  refine ⟨sound, fun root among => ?_, fun root among => ?_⟩
  · obtain ⟨object, held⟩ := valid root among
    exact ⟨object, kept root among object held⟩
  · obtain ⟨object, held⟩ := valid root among
    exact (valueOf_eq_reading (kept root among object held)).trans (valueOf_eq_reading held).symm

/-- The heap answers as if it kept the values of the objects. -/
theorem lawful_decoded (reports : Prop) : (decoded reports).Lawful where
  value _ _ := rfl
  place {watched other roots} value sound valid := by
    simp only [Storage.place]
    rcases placed : watched.heap.place? roots (Encoding.encode value) with ⟨_ | handle, next⟩
    · by_cases told : reports
      · exact .refused told
      · exact .lost (.inr ⟨told, rfl⟩)
    · by_cases few : next.slots.size ≤ UInt32.size
      · obtain ⟨soundNext, kept, held⟩ := Heap.place?_spec placed sound few
        rw [← valueOf_eq_reading (held handle rfl)]
        exact .done (carried_of_kept soundNext valid kept) ⟨_, held handle rfl⟩
      · exact .lost (.inl (Nat.lt_of_not_le few))
  collect {watched other roots} sound valid := by
    have collected := Heap.collect_spec sound roots
    refine .inr (carried_of_kept collected.sound valid fun root among held object => ?_)
    exact (Heap.Answered.collected roots _ collected).get? (fun found same => by
      obtain rfl := Heap.Request.collect.inj same
      exact among) object
  placeLost {watched} roots object gone := by
    have slots := Heap.slots_le_place? watched.heap roots object
    simp only [Storage.place]
    rcases placed : watched.heap.place? roots object with ⟨_ | handle, next⟩
    all_goals rw [placed] at slots
    · exact gone.imp (fun many => Nat.lt_of_lt_of_le many slots) fun refused => ⟨refused.1, rfl⟩
    · exact gone.imp_left fun many => Nat.lt_of_lt_of_le many slots
  collectLost {watched} roots gone :=
    gone.imp_left fun many =>
      Nat.lt_of_lt_of_le many (Heap.slots_le_answer watched.heap (.collect roots))

end WatchedHeap

end Calculator
