import Calculator.Encoding.Leb128
import Mathlib

/-!
# Reading and writing variable-length integers

Reading gives back what was written, whatever follows it. Conversely, a successful read
depends only on the bytes it used up, and no row of bytes shorter than the written one
stands for the same number: superfluous groups are accepted, missing ones are not.
-/

namespace Calculator.Leb128

/-- The seven bits that a byte contributes, as a number. -/
theorem group_value (byte : UInt8) : (byte &&& 0x7F).toNat = byte.toNat % 128 := by
  rw [UInt8.toNat_and]
  exact Nat.and_two_pow_sub_one_eq_mod byte.toNat 7

/-- Adding a group above the bits read so far adds its multiple of a power of two, as long as
the sum fits a word. -/
theorem accumulated (value : UInt64) (group : UInt8) (shift : Nat) (within : shift ≤ 63)
    (below : value.toNat < 2 ^ shift) (fits : group.toNat * 2 ^ shift < 2 ^ 64) :
    (value ||| (group.toUInt64 <<< UInt64.ofNat shift)).toNat =
      value.toNat + group.toNat * 2 ^ shift := by
  have amount : (UInt64.ofNat shift).toNat % 64 = shift := by
    rw [UInt64.toNat_ofNat']
    omega
  rw [UInt64.toNat_or, UInt64.toNat_shiftLeft, amount, UInt8.toNat_toUInt64,
    Nat.shiftLeft_eq, Nat.mod_eq_of_lt fits, Nat.or_comm, Nat.mul_comm,
    ← Nat.two_pow_add_eq_or_of_lt below]
  omega

/-- Every number is written in at least one byte. -/
theorem write_ne_nil (number : Nat) : write number ≠ [] := by
  rw [write]
  split <;> simp

/-- The length of a written number is positive. -/
theorem write_length_pos (number : Nat) : 0 < (write number).length :=
  List.length_pos_iff.mpr (write_ne_nil number)

/-- So many bytes are enough exactly for the numbers below that power of 128. -/
theorem write_length_le_iff (number count : Nat) :
    (write number).length ≤ count + 1 ↔ number < 128 ^ (count + 1) := by
  induction count generalizing number with
  | zero =>
    rw [write]
    split
    · simpa using ‹number < 128›
    · simp only [List.length_cons, Nat.add_le_add_iff_right, Nat.le_zero, List.length_eq_zero_iff]
      exact ⟨fun empty => absurd empty (write_ne_nil _), fun small => by omega⟩
  | succ count inductionHypothesis =>
    rw [write]
    split
    · rename_i small
      have enough : 128 ≤ 128 ^ (count + 1 + 1) := Nat.le_self_pow (by omega) 128
      exact ⟨fun _ => by omega, fun _ => by simp⟩
    · rw [List.length_cons, Nat.add_le_add_iff_right, inductionHypothesis,
        Nat.div_lt_iff_lt_mul (by decide), ← Nat.pow_succ]

/-- A word is written in at most ten bytes. -/
theorem write_length_le_ten (number : Nat) (fits : number < 2 ^ 64) :
    (write number).length ≤ 10 :=
  (write_length_le_iff number 9).mpr (Nat.lt_trans fits (by decide))

/-- Larger numbers are not written in fewer bytes. -/
theorem write_length_mono {lower upper : Nat} (ordered : lower ≤ upper) :
    (write lower).length ≤ (write upper).length := by
  obtain ⟨count, length⟩ : ∃ count, (write upper).length = count + 1 :=
    Nat.exists_eq_succ_of_ne_zero (write_length_pos upper).ne'
  rw [length, write_length_le_iff]
  exact Nat.lt_of_le_of_lt ordered ((write_length_le_iff upper count).mp length.le)

/-- Whether the group of a byte still lies inside the word. -/
def Admitted (shift : Nat) (byte : UInt8) : Prop :=
  shift ≤ 63 ∧ (shift = 63 → (byte &&& 0x7F).toNat ≤ 1)

/-- The number read so far with one group more. -/
def accumulate (value : UInt64) (shift : Nat) (byte : UInt8) : UInt64 :=
  value ||| ((byte &&& 0x7F).toUInt64 <<< UInt64.ofNat shift)

/-- A group inside the word is taken in, and reading stops at a byte without the high bit. -/
theorem readOnto_admitted {shift : Nat} {byte : UInt8} (admitted : Admitted shift byte)
    (value : UInt64) (rest : List UInt8) :
    readOnto value shift (byte :: rest) =
      if byte < 0x80 then (some (accumulate value shift byte), rest)
      else readOnto (accumulate value shift byte) (shift + 7) rest := by
  have accepted : ¬ ((decide (63 < shift) || shift == 63 && decide (1 < byte &&& 0x7F)) = true) := by
    simp only [Bool.or_eq_true, Bool.and_eq_true, decide_eq_true_eq, beq_iff_eq, not_or, not_and,
      UInt8.lt_iff_toNat_lt]
    exact ⟨Nat.not_lt.mpr admitted.1, fun top => Nat.not_lt.mpr (admitted.2 top)⟩
  rw [readOnto, if_neg accepted]
  rfl

/-- A group outside the word makes reading fail. -/
theorem readOnto_refused {shift : Nat} {byte : UInt8} (refused : ¬ Admitted shift byte)
    (value : UInt64) (rest : List UInt8) :
    readOnto value shift (byte :: rest) = (none, rest) := by
  have stopped : (decide (63 < shift) || shift == 63 && decide (1 < byte &&& 0x7F)) = true := by
    simp only [Admitted, not_and, Classical.not_imp] at refused
    simp only [Bool.or_eq_true, Bool.and_eq_true, decide_eq_true_eq, beq_iff_eq,
      UInt8.lt_iff_toNat_lt]
    by_cases inside : shift ≤ 63
    · obtain ⟨top, above⟩ := refused inside
      exact .inr ⟨top, Nat.lt_of_not_le above⟩
    · exact .inl (Nat.lt_of_not_le inside)
  rw [readOnto, if_pos stopped]

/-- The byte of the last group of a number ends it and contributes the group. -/
theorem last_group {number : Nat} (small : number < 128) :
    UInt8.ofNat number < 0x80 ∧ (UInt8.ofNat number &&& 0x7F).toNat = number := by
  have byte : (UInt8.ofNat number).toNat = number := by
    rw [UInt8.toNat_ofNat']
    omega
  constructor
  · rw [UInt8.lt_iff_toNat_lt, byte]
    exact small
  · rw [group_value, byte]
    exact Nat.mod_eq_of_lt small

/-- The byte of any other group does not end the number and contributes the group. -/
theorem continued_group (number : Nat) :
    ¬ UInt8.ofNat (number % 128 + 128) < 0x80 ∧
      (UInt8.ofNat (number % 128 + 128) &&& 0x7F).toNat = number % 128 := by
  have byte : (UInt8.ofNat (number % 128 + 128)).toNat = number % 128 + 128 := by
    rw [UInt8.toNat_ofNat']
    omega
  constructor
  · rw [UInt8.lt_iff_toNat_lt, byte]
    exact Nat.not_lt.mpr (Nat.le_add_left 128 _)
  · rw [group_value, byte]
    omega

/-- Reading a written number on top of the bits read so far adds it above them and leaves what
follows. The number only has to fit the word together with those bits. -/
theorem readOnto_write (number : Nat) (value : UInt64) (shift : Nat) (rest : List UInt8)
    (within : shift ≤ 63) (below : value.toNat < 2 ^ shift)
    (fits : value.toNat + number * 2 ^ shift < 2 ^ 64) :
    readOnto value shift (write number ++ rest) =
      (some (UInt64.ofNat (value.toNat + number * 2 ^ shift)), rest) := by
  induction number using write.induct generalizing value shift with
  | case1 number small =>
    obtain ⟨last, group⟩ := last_group small
    have admitted : Admitted shift (UInt8.ofNat number) := by
      refine ⟨within, ?_⟩
      rintro rfl
      omega
    have sum : (accumulate value shift (UInt8.ofNat number)).toNat =
        value.toNat + number * 2 ^ shift := by
      rw [accumulate, accumulated value _ shift within below (by rw [group]; omega), group]
    rw [write, if_pos small, List.singleton_append, readOnto_admitted admitted, if_pos last,
      ← sum, UInt64.ofNat_toNat]
  | case2 number large inductionHypothesis =>
    obtain ⟨continued, group⟩ := continued_group number
    have split : number * 2 ^ shift =
        number % 128 * 2 ^ shift + number / 128 * 2 ^ (shift + 7) := by
      calc number * 2 ^ shift = (128 * (number / 128) + number % 128) * 2 ^ shift := by
            rw [Nat.div_add_mod]
        _ = _ := by rw [Nat.pow_add]; ring
    -- A further group is there, so its lowest bit is still inside the word.
    have further : shift + 7 ≤ 63 := by
      by_contra beyond
      have power : 2 ^ 64 ≤ 2 ^ (shift + 7) := Nat.pow_le_pow_right (by decide) (by omega)
      have product : 1 * 2 ^ (shift + 7) ≤ number / 128 * 2 ^ (shift + 7) :=
        Nat.mul_le_mul_right _ (by omega)
      omega
    have admitted : Admitted shift (UInt8.ofNat (number % 128 + 128)) :=
      ⟨within, fun top => by omega⟩
    have sum : (accumulate value shift (UInt8.ofNat (number % 128 + 128))).toNat =
        value.toNat + number % 128 * 2 ^ shift := by
      rw [accumulate, accumulated value _ shift within below (by rw [group]; omega), group]
    have grown : value.toNat + number % 128 * 2 ^ shift < 2 ^ (shift + 7) := by
      have remainder : number % 128 * 2 ^ shift ≤ 127 * 2 ^ shift :=
        Nat.mul_le_mul_right _ (by omega)
      rw [Nat.pow_add]
      omega
    rw [write, if_neg large, List.cons_append, readOnto_admitted admitted, if_neg continued,
      inductionHypothesis _ (shift + 7) further (by rw [sum]; exact grown) (by rw [sum]; omega),
      sum, Nat.add_assoc, ← split]

/-- Reading gives back what was written and leaves what follows. -/
theorem read_write (number : Nat) (rest : List UInt8) (fits : number < 2 ^ 64) :
    read (write number ++ rest) = (some (UInt64.ofNat number), rest) := by
  have written := readOnto_write number 0 0 rest (by decide) (by decide) (by simpa using fits)
  simpa [read] using written

/-- A group that is taken in fits the word, since groups begin at multiples of seven bits. -/
theorem accumulate_value {value : UInt64} {shift : Nat} {byte : UInt8}
    (aligned : shift % 7 = 0) (below : value.toNat < 2 ^ shift)
    (admitted : Admitted shift byte) :
    (accumulate value shift byte).toNat = value.toNat + byte.toNat % 128 * 2 ^ shift := by
  have fits : (byte &&& 0x7F).toNat * 2 ^ shift < 2 ^ 64 := by
    by_cases top : shift = 63
    · have single : (byte &&& 0x7F).toNat ≤ 1 := admitted.2 top
      rw [top]
      omega
    · have inside : shift ≤ 56 := by
        have within : shift ≤ 63 := admitted.1
        omega
      have power : 2 ^ shift ≤ 2 ^ 56 := Nat.pow_le_pow_right (by decide) inside
      have group : (byte &&& 0x7F).toNat ≤ 127 := by
        rw [group_value]
        omega
      have product := Nat.mul_le_mul group power
      omega
  rw [accumulate, accumulated value _ shift admitted.1 below fits, group_value]

/-- A further group keeps the number read so far below the next place. -/
theorem accumulate_below {value : UInt64} {shift : ℕ} {byte : UInt8} (aligned : shift % 7 = 0)
    (below : value.toNat < 2 ^ shift) (admitted : Admitted shift byte) :
    (accumulate value shift byte).toNat < 2 ^ (shift + 7) := by
  have group : byte.toNat % 128 * 2 ^ shift ≤ 127 * 2 ^ shift :=
    Nat.mul_le_mul_right _ (by omega)
  rw [accumulate_value aligned below admitted, Nat.pow_add]
  omega

/-- A successful read on top of other bits used up at least one byte, would have gone the same
way whatever followed those bytes, and gives a number of no more bits than they hold. -/
theorem readOnto_used (value : UInt64) (shift : Nat) (bytes rest : List UInt8) (result : UInt64)
    (aligned : shift % 7 = 0) (below : value.toNat < 2 ^ shift)
    (successful : readOnto value shift bytes = (some result, rest)) :
    ∃ used, bytes = used ++ rest ∧ used ≠ [] ∧ result.toNat < 2 ^ shift * 128 ^ used.length ∧
      ∀ suffix, readOnto value shift (used ++ suffix) = (some result, suffix) := by
  induction bytes generalizing value shift with
  | nil => simp [readOnto] at successful
  | cons byte bytes inductionHypothesis =>
    by_cases admitted : Admitted shift byte
    · have grown := accumulate_below aligned below admitted
      rw [readOnto_admitted admitted] at successful
      by_cases last : byte < 0x80
      · rw [if_pos last, Prod.mk.injEq, Option.some.injEq] at successful
        obtain ⟨rfl, rfl⟩ := successful
        refine ⟨[byte], rfl, by simp, by simpa [Nat.pow_add] using grown, ?_⟩
        intro suffix
        rw [List.singleton_append, readOnto_admitted admitted, if_pos last]
      · rw [if_neg last] at successful
        obtain ⟨used, rfl, nonempty, bounded, stable⟩ := inductionHypothesis _ (shift + 7)
          (by omega) grown successful
        refine ⟨byte :: used, rfl, by simp, ?_, ?_⟩
        · rw [List.length_cons, Nat.pow_succ', ← Nat.mul_assoc]
          rwa [Nat.pow_add] at bounded
        · intro suffix
          rw [List.cons_append, readOnto_admitted admitted, if_neg last, stable]
    · rw [readOnto_refused admitted] at successful
      simp at successful

/-- A successful read used up some bytes, at least as many as the number is written in, and
would have gone the same way whatever followed them. -/
theorem read_used (bytes rest : List UInt8) (result : UInt64)
    (successful : read bytes = (some result, rest)) :
    ∃ used, bytes = used ++ rest ∧ (write result.toNat).length ≤ used.length ∧
      ∀ suffix, read (used ++ suffix) = (some result, suffix) := by
  obtain ⟨used, split, nonempty, bounded, stable⟩ :=
    readOnto_used 0 0 bytes rest result rfl (by decide) successful
  refine ⟨used, split, ?_, stable⟩
  obtain ⟨count, length⟩ : ∃ count, used.length = count + 1 :=
    Nat.exists_eq_succ_of_ne_zero (by simpa using nonempty)
  rw [length, write_length_le_iff, ← length]
  simpa using bounded

/-- Shifting a word right by all but one of its bits fills it with its sign. -/
theorem filled_with_sign (value : BitVec 64) :
    value.sshiftRight 63 = if value.msb then BitVec.allOnes 64 else 0#64 := by
  have onlyBit (index : Nat) (inside : 63 + index < 64) :
      value[63 + index] = value.msb := by
    have first : index = 0 := by omega
    subst first
    simp [BitVec.msb_eq_getLsbD_last]
  ext index inside
  rw [BitVec.getElem_sshiftRight]
  cases negative : value.msb with
  | false => split <;> simp [onlyBit, negative]
  | true =>
    simp only [if_true, BitVec.getElem_allOnes]
    split <;> simp [onlyBit, negative]

/-- A signed word is mapped to twice its value, or for a negative one to one less than twice
its magnitude. -/
theorem zigzag_value (value : Int64) :
    ((zigzag value).toNat : Int) =
      if 0 ≤ value.toInt then 2 * value.toInt else -2 * value.toInt - 1 := by
  have bits : (zigzag value).toBitVec =
      (value.toBitVec <<< 1) ^^^ (value.toBitVec.sshiftRight 63) := by
    simp only [zigzag, Int64.toBitVec_toUInt64, Int64.toBitVec_xor, Int64.toBitVec_shiftLeft,
      Int64.toBitVec_shiftRight]
    rfl
  have number : (zigzag value).toNat = (zigzag value).toBitVec.toNat := rfl
  have integer : value.toInt = value.toBitVec.toInt := rfl
  have bound := value.toBitVec.isLt
  have top := BitVec.msb_eq_decide value.toBitVec
  rw [number, bits, filled_with_sign, integer, BitVec.toInt_eq_msb_cond]
  by_cases negative : value.toBitVec.msb = true
  · have large : 2 ^ 63 ≤ value.toBitVec.toNat := by
      rw [negative] at top
      simpa using top
    simp only [negative, if_true]
    rw [BitVec.xor_allOnes, BitVec.toNat_not, BitVec.toNat_shiftLeft, Nat.shiftLeft_eq]
    split <;> omega
  · have small : value.toBitVec.toNat < 2 ^ 63 := by
      simp only [Bool.not_eq_true] at negative
      rw [negative] at top
      simpa using top
    simp only [negative]
    have zero : (value.toBitVec <<< 1 ^^^ 0#64) = value.toBitVec <<< 1 := BitVec.xor_zero
    simp only [Bool.false_eq_true, if_false]
    rw [zero, BitVec.toNat_shiftLeft, Nat.shiftLeft_eq]
    split <;> omega

/-- Even words are mapped back to their half, odd ones to the numbers below zero. -/
theorem unzigzag_value (value : UInt64) :
    (unzigzag value).toInt =
      if value.toNat % 2 = 0 then ((value.toNat / 2 : Nat) : Int)
      else -((value.toNat / 2 : Nat) : Int) - 1 := by
  have bits : (unzigzag value).toBitVec = (value.toBitVec >>> 1) ^^^ -(value.toBitVec &&& 1) := by
    simp only [unzigzag, Int64.toBitVec_xor, Int64.toBitVec_neg, UInt64.toBitVec_toInt64,
      UInt64.toBitVec_shiftRight, UInt64.toBitVec_and]
    rfl
  have integer : (unzigzag value).toInt = (unzigzag value).toBitVec.toInt := rfl
  have number : value.toNat = value.toBitVec.toNat := rfl
  have bound := value.toBitVec.isLt
  have low : (value.toBitVec &&& 1) = BitVec.ofNat 64 (value.toBitVec.toNat % 2) := by
    apply BitVec.eq_of_toNat_eq
    rw [BitVec.toNat_and, BitVec.toNat_ofNat]
    have parity : value.toBitVec.toNat &&& 1 = value.toBitVec.toNat % 2 :=
      Nat.and_two_pow_sub_one_eq_mod value.toBitVec.toNat 1
    have one : (1 : BitVec 64).toNat = 1 := rfl
    rw [one, parity]
    omega
  rw [integer, bits, number, low, BitVec.toInt_eq_toNat_cond]
  by_cases even : value.toBitVec.toNat % 2 = 0
  · have zero : value.toBitVec >>> 1 ^^^ -BitVec.ofNat 64 0 = value.toBitVec >>> 1 := by simp
    rw [even, zero, BitVec.toNat_ushiftRight, Nat.shiftRight_eq_div_pow]
    split <;> omega
  · have odd : value.toBitVec.toNat % 2 = 1 := by omega
    have ones : -(BitVec.ofNat 64 1) = BitVec.allOnes 64 := by decide
    rw [odd, ones, BitVec.xor_allOnes, BitVec.toNat_not, BitVec.toNat_ushiftRight,
      Nat.shiftRight_eq_div_pow]
    split <;> omega

/-- Mapping back gives the signed word that was mapped. -/
theorem unzigzag_zigzag (value : Int64) : unzigzag (zigzag value) = value := by
  apply Int64.toInt_inj.mp
  have mapped := zigzag_value value
  rw [unzigzag_value]
  split at mapped <;> split <;> omega

/-- Mapping back and forth gives the unsigned word, too. -/
theorem zigzag_unzigzag (value : UInt64) : zigzag (unzigzag value) = value := by
  apply UInt64.toNat_inj.mp
  have mapped := unzigzag_value value
  have back := zigzag_value (unzigzag value)
  split at mapped <;> split at back <;> omega

/-- A scale from which a few digits are taken away is written in at most one byte more. -/
theorem write_zigzag_sub_length (scale : Int64) (dropped : Nat) (few : dropped ≤ 24) :
    (write (zigzag (scale - Int64.ofNat dropped)).toNat).length ≤
      (write (zigzag scale).toNat).length + 1 := by
  have longest := write_length_le_ten _ (zigzag (scale - Int64.ofNat dropped)).toNat_lt
  rcases Nat.lt_or_ge 8 (write (zigzag scale).toNat).length with long | short
  · omega
  · have small := (write_length_le_iff (zigzag scale).toNat 7).mp short
    have taken : (Int64.ofNat dropped).toInt = dropped := by
      rw [Int64.toInt_ofNat_of_lt (by omega)]
    have value := zigzag_value scale
    have inside : -2 ^ 56 < scale.toInt ∧ scale.toInt < 2 ^ 56 := by
      split at value <;> omega
    have difference : (scale - Int64.ofNat dropped).toInt = scale.toInt - dropped := by
      rw [Int64.toInt_sub, taken, Int.bmod]
      split <;> omega
    have shifted := zigzag_value (scale - Int64.ofNat dropped)
    rw [difference] at shifted
    have near : (zigzag (scale - Int64.ofNat dropped)).toNat ≤ (zigzag scale).toNat + 48 := by
      split at value <;> split at shifted <;> omega
    obtain ⟨count, length⟩ : ∃ count, (write (zigzag scale).toNat).length = count + 1 :=
      Nat.exists_eq_succ_of_ne_zero (write_length_pos _).ne'
    have below := (write_length_le_iff _ count).mp length.le
    have room : 128 ≤ 128 ^ (count + 1) := Nat.le_self_pow (by omega) 128
    rw [length, write_length_le_iff, Nat.pow_succ]
    omega

end Calculator.Leb128
