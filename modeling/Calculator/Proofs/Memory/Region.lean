import Calculator.Memory.Heap
import Mathlib

/-!
# Stretches of memory

What writing and sliding do to the bytes of the memory, position by position, and what that
means for the stretches that objects occupy. A stretch that slides toward the front may
overlap the place it goes to: byte by byte, nothing is overwritten that is still to be moved.
-/

namespace Calculator.Heap

/-- Two stretches hold the same bytes if they do so position by position. -/
theorem extract_congr {first second : Array UInt8} {start shifted count : Nat}
    (same : ∀ position < count, first[start + position]? = second[shifted + position]?) :
    first.extract start (start + count) = second.extract shifted (shifted + count) := by
  apply Array.ext_getElem?
  intro position
  rw [Array.getElem?_extract, Array.getElem?_extract]
  by_cases inside : position < count
  · have agree := same position inside
    by_cases within : start + position < first.size
    · rw [Array.getElem?_eq_getElem within] at agree
      have other : shifted + position < second.size := (Array.getElem?_eq_some_iff.mp agree.symm).1
      rw [if_pos (by omega), if_pos (by omega), Array.getElem?_eq_getElem within, agree]
    · rw [Array.getElem?_eq_none (by omega)] at agree
      have other : second.size ≤ shifted + position := Array.getElem?_eq_none_iff.mp agree.symm
      rw [if_neg (by omega), if_neg (by omega)]
  · rw [if_neg (by omega), if_neg (by omega)]

/-- Writing changes no number of bytes. -/
@[simp]
theorem write_size (memory : Array UInt8) (position : Nat) (bytes : List UInt8) :
    (write memory position bytes).size = memory.size := by
  induction bytes generalizing memory position with
  | nil => rfl
  | cons byte bytes inductionHypothesis =>
    rw [write, inductionHypothesis, Array.size_setIfInBounds]

/-- Writing within the memory puts the bytes to their positions and leaves all others alone. -/
theorem write_getElem? (memory : Array UInt8) (position : Nat) (bytes : List UInt8)
    (room : position + bytes.length ≤ memory.size) (index : Nat) :
    (write memory position bytes)[index]? =
      if position ≤ index ∧ index < position + bytes.length then bytes[index - position]?
      else memory[index]? := by
  induction bytes generalizing memory position with
  | nil =>
    rw [write, if_neg]
    rw [List.length_nil]
    omega
  | cons byte bytes inductionHypothesis =>
    rw [List.length_cons] at room ⊢
    rw [write, inductionHypothesis _ _ (by rw [Array.size_setIfInBounds]; omega),
      Array.getElem?_setIfInBounds]
    by_cases here : position = index
    · subst here
      rw [if_neg (by omega), if_pos rfl, if_pos (by omega), if_pos (by omega), Nat.sub_self]
      rfl
    · rw [if_neg here]
      by_cases behind : position + 1 ≤ index ∧ index < position + 1 + bytes.length
      · have step : index - position = index - (position + 1) + 1 := by omega
        rw [if_pos behind, if_pos (by omega), step, List.getElem?_cons_succ]
      · rw [if_neg behind, if_neg (by omega)]

/-- The stretch that was written to holds the bytes. -/
theorem extract_write (memory : Array UInt8) (position : Nat) (bytes : List UInt8)
    (room : position + bytes.length ≤ memory.size) :
    ((write memory position bytes).extract position (position + bytes.length)).toList = bytes := by
  have same : (write memory position bytes).extract position (position + bytes.length) =
      bytes.toArray.extract 0 (0 + bytes.length) := by
    refine extract_congr fun offset inside => ?_
    rw [write_getElem? memory position bytes room, if_pos (by omega), Nat.add_sub_cancel_left,
      Nat.zero_add, List.getElem?_toArray]
  rw [same]
  simp

/-- A stretch away from what was written holds the same bytes as before. -/
theorem extract_write_apart (memory : Array UInt8) (position : Nat) (bytes : List UInt8)
    (start count : Nat) (room : position + bytes.length ≤ memory.size)
    (apart : start + count ≤ position) :
    (write memory position bytes).extract start (start + count) =
      memory.extract start (start + count) := by
  refine extract_congr fun offset inside => ?_
  rw [write_getElem? memory position bytes room, if_neg (by omega)]

/-- Sliding changes no number of bytes. -/
@[simp]
theorem slide_size (memory : Array UInt8) (source target count : Nat) :
    (slide memory source target count).size = memory.size := by
  induction count generalizing memory source target with
  | zero => rfl
  | succ count inductionHypothesis =>
    rw [slide, inductionHypothesis, Array.size_setIfInBounds]

/-- Sliding toward the front puts the bytes of the source to the target, as they were before, and
leaves all positions outside the target alone. -/
theorem slide_getElem? (memory : Array UInt8) (source target count : Nat)
    (forward : target ≤ source) (room : source + count ≤ memory.size) (index : Nat) :
    (slide memory source target count)[index]? =
      if target ≤ index ∧ index < target + count then memory[source + (index - target)]?
      else memory[index]? := by
  induction count generalizing memory source target with
  | zero => rw [slide, if_neg (by omega)]
  | succ count inductionHypothesis =>
    have readable : source < memory.size := by omega
    -- The byte that is set lies in front of all the bytes that are still to be moved.
    rw [slide, inductionHypothesis _ _ _ (by omega) (by rw [Array.size_setIfInBounds]; omega),
      Array.getElem?_setIfInBounds, Array.getElem?_setIfInBounds]
    by_cases here : target = index
    · subst here
      rw [if_neg (by omega), if_pos rfl, if_pos (by omega), if_pos (by omega), Nat.sub_self,
        Nat.add_zero, Array.getElem?_eq_getElem readable]
      rfl
    · by_cases behind : target + 1 ≤ index ∧ index < target + 1 + count
      · have step : source + 1 + (index - (target + 1)) = source + (index - target) := by omega
        rw [if_pos behind, if_neg (by omega), if_pos (by omega), step]
      · rw [if_neg behind, if_neg here, if_neg (by omega)]

/-- The stretch that was slid holds the bytes it held at its source. -/
theorem extract_slide (memory : Array UInt8) (source target count : Nat)
    (forward : target ≤ source) (room : source + count ≤ memory.size) :
    (slide memory source target count).extract target (target + count) =
      memory.extract source (source + count) := by
  refine extract_congr fun offset inside => ?_
  rw [slide_getElem? memory source target count forward room, if_pos (by omega),
    Nat.add_sub_cancel_left]

/-- A stretch apart from the target holds the same bytes as before. -/
theorem extract_slide_apart (memory : Array UInt8) (source target count start length : Nat)
    (forward : target ≤ source) (room : source + count ≤ memory.size)
    (apart : start + length ≤ target ∨ target + count ≤ start) :
    (slide memory source target count).extract start (start + length) =
      memory.extract start (start + length) := by
  refine extract_congr fun offset inside => ?_
  rw [slide_getElem? memory source target count forward room, if_neg (by omega)]

end Calculator.Heap
