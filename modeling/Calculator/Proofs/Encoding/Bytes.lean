import Calculator.Encoding.Bytes
import Mathlib

/-!
# Integers and texts as bytes: round trips

Every row of bytes denotes an integer, and the row written for an integer denotes it. A row
that was not written as short as possible denotes the same integer as a shorter one. Texts
are different: a row of bytes denotes at most one text, and only that text's own bytes do.
-/

namespace Calculator.Bytes

/-- The row written for a natural number denotes it. -/
theorem toNat_ofNat (number : Nat) : toNat (ofNat number) = number := by
  induction number using ofNat.induct with
  | case1 number small =>
    rw [ofNat, if_pos small, toNat, toNat, UInt8.toNat_ofNat']
    omega
  | case2 number large inductionHypothesis =>
    rw [ofNat, if_neg large, toNat, inductionHypothesis, UInt8.toNat_ofNat']
    omega

/-- Every natural number is written in at least one byte. -/
theorem ofNat_ne_nil (number : Nat) : ofNat number ≠ [] := by
  rw [ofNat]
  split <;> simp

/-- A row of bytes denotes a number below the power of 256 that its length gives. -/
theorem toNat_lt (bytes : List UInt8) : toNat bytes < 256 ^ bytes.length := by
  induction bytes with
  | nil => decide
  | cons byte bytes inductionHypothesis =>
    have bound : byte.toNat < 256 := byte.toNat_lt
    rw [toNat, List.length_cons, Nat.pow_succ]
    omega

/-- So many bytes are enough exactly for the natural numbers below that power of 256. -/
theorem ofNat_length_le_iff (number count : Nat) :
    (ofNat number).length ≤ count + 1 ↔ number < 256 ^ (count + 1) := by
  induction count generalizing number with
  | zero =>
    rw [ofNat]
    split
    · simpa using ‹number < 256›
    · simp only [List.length_cons, Nat.add_le_add_iff_right, Nat.le_zero, List.length_eq_zero_iff]
      exact ⟨fun empty => absurd empty (ofNat_ne_nil _), fun small => by omega⟩
  | succ count inductionHypothesis =>
    rw [ofNat]
    split
    · rename_i small
      have enough : 256 ≤ 256 ^ (count + 1 + 1) := Nat.le_self_pow (by omega) 256
      exact ⟨fun _ => by omega, fun _ => by simp⟩
    · rw [List.length_cons, Nat.add_le_add_iff_right, inductionHypothesis,
        Nat.div_lt_iff_lt_mul (by decide), ← Nat.pow_succ]

/-- A number is not written longer than any row of bytes that denotes it; only zero, which the
empty row denotes, takes a byte. -/
theorem ofNat_toNat_length (bytes : List UInt8) :
    (ofNat (toNat bytes)).length ≤ max 1 bytes.length := by
  have bound : toNat bytes < 256 ^ bytes.length := toNat_lt bytes
  obtain ⟨count, length⟩ : ∃ count, max 1 bytes.length = count + 1 :=
    ⟨max 1 bytes.length - 1, by omega⟩
  have grown : 256 ^ bytes.length ≤ 256 ^ (count + 1) := Nat.pow_le_pow_right (by decide) (by omega)
  rw [length, ofNat_length_le_iff]
  omega

/-- The row written for an integer is not empty. -/
theorem ofInt_ne_nil (number : Int) : ofInt number ≠ [] := by
  rw [ofInt]
  split <;> simp

/-- The lowest byte of an integer, as a natural number. -/
theorem lowest_byte (number : Int) :
    ((UInt8.ofNat (number % 256).toNat).toNat : Int) = number % 256 := by
  rw [UInt8.toNat_ofNat']
  omega

/-- The row written for an integer denotes it in two's complement. -/
theorem toInt_ofInt (number : Int) : toInt (ofInt number) = number := by
  induction number using ofInt.induct with
  | case1 number short =>
    have byte := lowest_byte number
    rw [ofInt, dif_pos short, toInt]
    by_cases negative : number < 0
    · have high : ¬ UInt8.ofNat (number % 256).toNat < 128 := by
        rw [UInt8.lt_iff_toNat_lt]
        have value : (128 : UInt8).toNat = 128 := rfl
        omega
      rw [if_neg high]
      omega
    · have low : UInt8.ofNat (number % 256).toNat < 128 := by
        rw [UInt8.lt_iff_toNat_lt]
        have value : (128 : UInt8).toNat = 128 := rfl
        omega
      rw [if_pos low]
      omega
  | case2 number long inductionHypothesis =>
    have byte := lowest_byte number
    rw [ofInt, dif_neg long, toInt, inductionHypothesis, byte]
    · omega
    · exact ofInt_ne_nil (number / 256)

/-- A row of bytes denotes an integer within the bounds that its length gives. -/
theorem toInt_bounds (byte : UInt8) (bytes : List UInt8) :
    -(128 * 256 ^ bytes.length : Int) ≤ toInt (byte :: bytes) ∧
      toInt (byte :: bytes) < 128 * 256 ^ bytes.length := by
  have bound : byte.toNat < 256 := byte.toNat_lt
  induction bytes generalizing byte with
  | nil =>
    have middle : (128 : UInt8).toNat = 128 := rfl
    rw [toInt, List.length_nil, Int.pow_zero]
    split
    · rename_i low
      rw [UInt8.lt_iff_toNat_lt, middle] at low
      omega
    · rename_i high
      rw [UInt8.lt_iff_toNat_lt, middle] at high
      omega
  | cons next bytes inductionHypothesis =>
    have bounds := inductionHypothesis next next.toNat_lt
    rw [toInt, List.length_cons, Int.pow_succ]
    · omega
    · simp

/-- So many bytes are enough for the integers within these bounds. -/
theorem ofInt_length_le (number : Int) (count : Nat)
    (bounds : -(128 * 256 ^ count : Int) ≤ number ∧ number < 128 * 256 ^ count) :
    (ofInt number).length ≤ count + 1 := by
  induction count generalizing number with
  | zero =>
    rw [ofInt, dif_pos (by simpa using bounds)]
    simp
  | succ count inductionHypothesis =>
    rw [ofInt]
    split
    · simp
    · rw [Int.pow_succ] at bounds
      have shorter := inductionHypothesis (number / 256) (by omega)
      simpa using shorter

/-- An integer between a row's and zero is not written longer than the row; only for the empty
row it takes a byte. -/
theorem ofInt_length_le_of_between (bytes : List UInt8) (number : Int)
    (between : number.natAbs ≤ (toInt bytes).natAbs)
    (sign : 0 ≤ number * toInt bytes) :
    (ofInt number).length ≤ max 1 bytes.length := by
  cases bytes with
  | nil =>
    have zero : number = 0 := by
      simpa [toInt] using between
    subst zero
    exact Nat.le_trans (ofInt_length_le 0 0 (by decide)) (by simp)
  | cons byte bytes =>
    have bounds := toInt_bounds byte bytes
    have inside : -(128 * 256 ^ bytes.length : Int) ≤ number ∧
        number < 128 * 256 ^ bytes.length := by
      rcases Int.lt_trichotomy (toInt (byte :: bytes)) 0 with negative | zero | positive
      · have below : number ≤ 0 := by
          by_contra above
          have product := Int.mul_neg_of_pos_of_neg (by omega : 0 < number) negative
          omega
        omega
      · omega
      · have above : 0 ≤ number := by
          by_contra below
          have product := Int.mul_neg_of_neg_of_pos (by omega : number < 0) positive
          omega
        omega
    exact Nat.le_trans (ofInt_length_le number bytes.length inside) (by simp)

/-- The bytes of a text denote it. -/
theorem toText?_ofText (text : String) : toText? (ofText text) = some text := by
  simp [toText?, ofText, String.fromUTF8?, text.isValidUTF8, String.fromUTF8]

/-- Only the bytes of a text denote it. -/
theorem eq_ofText_of_toText? (bytes : List UInt8) (text : String)
    (denoted : toText? bytes = some text) : bytes = ofText text := by
  simp only [toText?, String.fromUTF8?] at denoted
  split at denoted
  · rw [Option.some.injEq] at denoted
    subst denoted
    simp [ofText, String.fromUTF8]
  · simp at denoted

end Calculator.Bytes
