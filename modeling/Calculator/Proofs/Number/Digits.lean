import Calculator.Number.Decimal.Literal
import Calculator.Proofs.Number.Rational
import Calculator.Render
import Mathlib

/-!
# Written numbers

The digits of a number denote the number, and an integer is written with its sign and its digits.
-/

namespace Calculator

namespace Digits

/-- The character of a digit is a digit and stands for it. -/
theorem character_digit {digit : ℕ} (small : digit < 10) :
    Decimal.isDigit (character digit) = true ∧ value (character digit) = digit := by
  interval_cases digit <;> decide

/-- Writing a number in front of a row puts a row of digits there that denotes the number. -/
theorem writeOnto_spec (number : ℕ) (rest : List Char) :
    ∃ digits, writeOnto number rest = digits ++ rest ∧ digits ≠ [] ∧
      (∀ digit ∈ digits, Decimal.isDigit digit = true) ∧ read digits = number := by
  induction number, rest using writeOnto.induct with
  | case1 number rest small =>
    obtain ⟨digit, value⟩ := character_digit small
    refine ⟨[character number], by rw [writeOnto, if_pos small]; rfl, by simp, by simpa using digit, ?_⟩
    simp [read, value]
  | case2 number rest large inductionHypothesis =>
    obtain ⟨digit, value⟩ := character_digit (Nat.mod_lt number (by decide : 0 < 10))
    obtain ⟨digits, written, nonempty, plain, denoted⟩ := inductionHypothesis
    refine ⟨digits ++ [character (number % 10)], ?_, by simp, ?_, ?_⟩
    · rw [writeOnto, if_neg large, written, List.append_assoc]
      rfl
    · simpa [or_imp, forall_and] using ⟨plain, digit⟩
    · rw [read, List.foldl_append, ← read, denoted]
      simp only [List.foldl_cons, List.foldl_nil, value]
      omega

/-- A number is written with digits. -/
theorem write_plain (number : ℕ) :
    write number ≠ [] ∧ ∀ digit ∈ write number, Decimal.isDigit digit = true := by
  obtain ⟨digits, written, nonempty, plain, -⟩ := writeOnto_spec number []
  rw [write, written, List.append_nil]
  exact ⟨nonempty, plain⟩

/-- What a number is written with denotes it. -/
theorem read_write (number : ℕ) : read (write number) = number := by
  obtain ⟨digits, written, -, -, denoted⟩ := writeOnto_spec number []
  rw [write, written, List.append_nil, denoted]

end Digits

namespace Word

/-- The magnitude of a machine integer is that of its value. -/
theorem toNat_magnitude (word : Word) : word.magnitude.toNat = word.toInt.natAbs := by
  unfold toInt
  split <;> omega

/-- A machine integer is negative if its value is. -/
theorem negative_eq (word : Word) : word.negative = decide (word.toInt < 0) := by
  obtain ⟨negative, magnitude, canonical⟩ := word
  cases negative
  · simp [toInt]
  · have positive : 0 < magnitude.toNat :=
      Nat.pos_of_ne_zero fun zero => canonical rfl (UInt64.toNat_inj.mp zero)
    simp only [toInt, if_true]
    rw [eq_comm, decide_eq_true_eq]
    omega

end Word

namespace Real

/-- The integer that is represented. -/
theorem toInt?_ofInt (value : ℤ) : (ofInt value).toInt? = some value := by
  by_cases small : value.natAbs < UInt64.size
  · obtain ⟨word, representation, same⟩ := ofInt_of_small small
    rw [representation, toInt?, same]
  · rw [ofInt, dif_pos (Nat.le_of_not_lt small), toInt?]

/-- The opposite of an integer. -/
theorem negated_ofInt (value : ℤ) : (ofInt value).negated = ofInt (-value) := by
  by_cases small : value.natAbs < UInt64.size
  · obtain ⟨word, representation, same⟩ := ofInt_of_small small
    rw [representation, negated, ← ofInt_toInt, ← same]
    congr 1
    rw [Word.negated, Word.toInt_ofSign, Word.toInt]
    cases word.negative <;> simp
  · rw [ofInt, dif_pos (Nat.le_of_not_lt small), negated]

/-- An integer is written with its sign and its digits. -/
theorem render_ofInt (settings : Preferences) (value : ℤ) :
    Render.real settings (ofInt value) = Digits.signedText value := by
  by_cases small : value.natAbs < UInt64.size
  · obtain ⟨word, representation, same⟩ := ofInt_of_small small
    rw [representation, Render.real, Word.toNat_magnitude, Word.negative_eq, same, Render.sign,
      Digits.signedText]
    by_cases negative : value < 0 <;> simp [negative]
  · rw [ofInt, dif_pos (Nat.le_of_not_lt small), Render.real]

/-- Whether an integer is negative by its representation. -/
theorem isNegative_ofInt (value : ℤ) : (ofInt value).isNegative = decide (value < 0) := by
  by_cases small : value.natAbs < UInt64.size
  · obtain ⟨word, representation, same⟩ := ofInt_of_small small
    rw [representation, isNegative, Word.negative_eq, same]
  · rw [ofInt, dif_pos (Nat.le_of_not_lt small), isNegative]

end Real

end Calculator
