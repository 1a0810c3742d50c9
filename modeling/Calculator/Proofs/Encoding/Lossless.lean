import Calculator.Proofs.Encoding.Leb128
import Mathlib

/-!
# Lossless words

What is handed to an encoder for a word are the bytes that the word is written in. Their count is
returned, and a formula on the binary digits of the word tells it beforehand. Reading gives the word
back, from no fewer bytes. Signed words are mapped to unsigned ones and back without loss, and of two
with the same sign the one with the larger magnitude does not become the shorter one.
-/

namespace Calculator.Leb128

/-! ## The bytes of a word -/

/-- Shifting the last group out of a word divides the word by the number of groups there are. -/
theorem toNat_shifted (value : UInt64) : (value >>> 7).toNat = value.toNat / 128 := by
  rw [UInt64.toNat_shiftRight]
  exact Nat.shiftRight_eq_div_pow value.toNat 7

/-- The last group of a word is what is left of it. -/
theorem toNat_lastGroup (value : UInt64) : (value &&& 0x7F).toUInt8.toNat = value.toNat % 128 := by
  have masked : (value &&& 0x7F).toNat = value.toNat % 128 := by
    rw [UInt64.toNat_and]
    exact Nat.and_two_pow_sub_one_eq_mod value.toNat 7
  rw [UInt64.toNat_toUInt8, masked]
  omega

/-- The high bit is above every group. -/
theorem toNat_highBit {group : UInt8} (small : group.toNat < 128) :
    (group ||| 0x80).toNat = group.toNat + 128 := by
  rw [UInt8.toNat_or, Nat.or_comm, Nat.add_comm]
  exact (Nat.two_pow_add_eq_or_of_lt (i := 7) small 1).symm

/-- The encoder is handed the bytes that the word is written in, and each of them is counted. -/
theorem emit_eq {State : Type} (encoder : State → List UInt8 → State) (state : State) (size : ℕ)
    (value : UInt64) :
    emit encoder state size value =
      ((write value.toNat).foldl (fun state byte => encoder state [byte]) state,
        size + (write value.toNat).length) := by
  induction state, size, value using emit.induct encoder with
  | case1 state size value rest last =>
    have small : value.toNat < 128 := by
      have zero : (value >>> 7).toNat = 0 := congrArg UInt64.toNat last
      rw [toNat_shifted] at zero
      omega
    have byte : (value &&& 0x7F).toUInt8 = UInt8.ofNat value.toNat := by
      rw [← UInt8.toNat_inj, toNat_lastGroup, UInt8.toNat_ofNat']
      omega
    rw [emit, dif_pos last, write, if_pos small, byte]
    rfl
  | case2 state size value group rest further inductionHypothesis =>
    have large : ¬ value.toNat < 128 := by
      intro small
      refine further (UInt64.toNat_inj.mp ?_)
      rw [toNat_shifted]
      exact Nat.div_eq_of_lt small
    have final := toNat_lastGroup value
    have byte : (value &&& 0x7F).toUInt8 ||| 0x80 = UInt8.ofNat (value.toNat % 128 + 128) := by
      rw [← UInt8.toNat_inj, toNat_highBit (by omega), final, UInt8.toNat_ofNat']
      omega
    have written :
        write value.toNat = UInt8.ofNat (value.toNat % 128 + 128) :: write (value.toNat / 128) := by
      rw [write, if_neg large]
    simp only [group, rest, toNat_shifted, byte] at inductionHypothesis
    rw [emit, dif_neg further, byte, inductionHypothesis, written, List.foldl_cons,
      List.length_cons, Nat.add_assoc, Nat.add_comm 1]

/-! ## The number of bytes -/

/-- Every word takes at least one byte. -/
theorem size_pos (value : UInt64) : 0 < size value := by
  rw [size]
  split_ifs with zero
  · exact Nat.one_pos
  · have nonzero : value.toNat ≠ 0 := fun none => zero (UInt64.toNat_inj.mp none)
    rw [Digits.binaryCount, if_neg nonzero]
    omega

/-- So many bytes have room for the binary digits of exactly the words below that power of 128. -/
theorem size_le_iff (value : UInt64) (count : ℕ) :
    size value ≤ count + 1 ↔ value.toNat < 128 ^ (count + 1) := by
  have power : 128 ^ (count + 1) = 2 ^ (7 * (count + 1)) := by
    rw [Nat.pow_mul]
  by_cases zero : value = 0
  · rw [size, if_pos zero, zero]
    exact ⟨fun _ => Nat.pow_pos (by decide), fun _ => by omega⟩
  · have nonzero : value.toNat ≠ 0 := fun none => zero (UInt64.toNat_inj.mp none)
    rw [size, if_neg zero, Digits.binaryCount, if_neg nonzero, power, ← Nat.log2_lt nonzero]
    omega

/-- The formula tells the number of bytes that a word is written in. -/
theorem size_eq_length (value : UInt64) : size value = (write value.toNat).length := by
  obtain ⟨count, length⟩ := Nat.exists_eq_succ_of_ne_zero (write_length_pos value.toNat).ne'
  obtain ⟨other, counted⟩ := Nat.exists_eq_succ_of_ne_zero (size_pos value).ne'
  -- Both are the least number of bytes with room for the word.
  refine le_antisymm ?_ ?_
  · rw [length, size_le_iff, ← write_length_le_iff, length]
  · rw [counted, write_length_le_iff, ← size_le_iff, counted]

/-! ## Signed words -/

/-- Of two signed words that are not on different sides of zero the one with the smaller magnitude is
mapped to the smaller unsigned word. -/
theorem zigzag_mono {left right : Int64} (alike : 0 ≤ left.toInt * right.toInt)
    (smaller : |left.toInt| ≤ |right.toInt|) : (zigzag left).toNat ≤ (zigzag right).toNat := by
  have first := zigzag_value left
  have second := zigzag_value right
  rcases lt_trichotomy left.toInt 0 with negative | zero | positive
  · have other : right.toInt < 0 := by
      have nonpos := nonpos_of_mul_nonneg_right alike negative
      rw [abs_of_neg negative, abs_of_nonpos nonpos] at smaller
      omega
    rw [abs_of_neg negative, abs_of_neg other] at smaller
    rw [if_neg (by omega)] at first second
    omega
  · rw [zero, if_pos le_rfl] at first
    omega
  · have other := nonneg_of_mul_nonneg_right alike positive
    rw [abs_of_pos positive, abs_of_nonneg other] at smaller
    rw [if_pos positive.le] at first
    rw [if_pos other] at second
    omega

/-! ## Words -/

/-- Words are encoded without loss. Whatever encoder takes the bytes of a word, it is handed those that
the word is written in, and as many are counted as the formula tells; reading gives the word back and
leaves what follows; and no row of fewer bytes is read as the word. Signed and unsigned words are mapped
to each other one to one, and on either side of zero a word of larger magnitude does not take fewer
bytes. -/
theorem words_lossless (value : UInt64) (left right : Int64) :
    (∀ {State : Type} (encoder : State → List UInt8 → State) (state : State),
      emit encoder state 0 value =
        ((write value.toNat).foldl (fun state byte => encoder state [byte]) state, size value)) ∧
    emit (fun bytes group => bytes ++ group) [] 0 value = (write value.toNat, size value) ∧
    (write value.toNat).length = size value ∧
    (∀ rest, read (write value.toNat ++ rest) = (some value, rest)) ∧
    (∀ bytes rest, read bytes = (some value, rest) → size value ≤ bytes.length) ∧
    unzigzag (zigzag left) = left ∧ zigzag (unzigzag value) = value ∧
    (0 ≤ left.toInt * right.toInt → |left.toInt| ≤ |right.toInt| →
      size (zigzag left) ≤ size (zigzag right)) := by
  have emitted {State : Type} (encoder : State → List UInt8 → State) (state : State) :
      emit encoder state 0 value =
        ((write value.toNat).foldl (fun state byte => encoder state [byte]) state, size value) := by
    rw [emit_eq, Nat.zero_add, size_eq_length]
  refine ⟨emitted, ?_, (size_eq_length value).symm, ?_, ?_, unzigzag_zigzag left,
    zigzag_unzigzag value, ?_⟩
  · rw [emitted, List.foldl_append_eq_append, List.nil_append, ← List.flatMap_def,
      List.flatMap_singleton']
  · intro rest
    rw [read_write value.toNat rest value.toNat_lt, UInt64.ofNat_toNat]
  · intro bytes rest successful
    obtain ⟨used, split, enough, -⟩ := read_used bytes rest value successful
    rw [size_eq_length, split, List.length_append]
    omega
  · intro alike smaller
    rw [size_eq_length, size_eq_length]
    exact write_length_mono (zigzag_mono alike smaller)

/-- A number with a superfluous group takes no fewer bytes, and the smallest signed word no fewer than
any other one below zero. -/
theorem words_lossless_superfluous :
    read [0xAC, 0x82, 0x00, 0x07] = (some 300, [0x07]) ∧ size 300 ≤ 4 ∧
      size (zigzag (-300)) ≤ size (zigzag Int64.minValue) := by
  have superfluous : read [0xAC, 0x82, 0x00, 0x07] = (some 300, [0x07]) := by decide
  obtain ⟨-, -, -, -, shortest, -, -, ordered⟩ := words_lossless 300 (-300) Int64.minValue
  exact ⟨superfluous, shortest _ _ superfluous, ordered (by decide) (by decide)⟩

end Calculator.Leb128
