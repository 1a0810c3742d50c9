import Calculator.Number.Real
import Mathlib

/-!
# Exact numbers as rational numbers

What an exact number denotes is a rational number, and each rational number has one
representation: a word or a wide integer if it is an integer, and the fraction in lowest terms
otherwise.
-/

namespace Calculator

/-! ## Rounded quotients -/

/-- The integer next to a rational number in the direction of zero. -/
def truncated (q : ℚ) : ℤ := if 0 ≤ q then ⌊q⌋ else ⌈q⌉

/-- Rounding toward zero treats both signs alike. -/
theorem truncated_neg (q : ℚ) : truncated (-q) = -truncated q := by
  unfold truncated
  rcases lt_trichotomy q 0 with negative | rfl | positive
  · rw [if_pos (by linarith), if_neg (by linarith), Int.floor_neg]
  · simp
  · rw [if_neg (by linarith), if_pos positive.le, Int.ceil_neg]

/-- Rounding a quotient of integers down is the division rounded down. -/
theorem floor_div_eq_fdiv (a b : ℤ) (nonzero : b ≠ 0) : ⌊(a : ℚ) / b⌋ = a.fdiv b := by
  have positive (a : ℤ) (b : ℕ) : ⌊(a : ℚ) / (b : ℤ)⌋ = a.fdiv b := by
    rw [Int.fdiv_eq_ediv_of_nonneg a (Int.natCast_nonneg b), Int.cast_natCast,
      Rat.floor_intCast_div_natCast]
  obtain ⟨n, rfl | rfl⟩ := Int.eq_nat_or_neg b
  · exact positive a n
  · have flipped : (a : ℚ) / ((-(n : ℤ) : ℤ) : ℚ) = ((-a : ℤ) : ℚ) / ((n : ℤ) : ℚ) := by
      push_cast
      rw [div_neg, neg_div]
    rw [flipped, positive, ← Int.neg_fdiv_neg a (-n), neg_neg]

/-- Rounding a quotient of integers toward zero is the division rounded toward zero. -/
theorem truncated_div_eq_tdiv (a b : ℤ) : truncated ((a : ℚ) / b) = a.tdiv b := by
  have natural (m n : ℕ) : truncated (((m : ℤ) : ℚ) / ((n : ℤ) : ℚ)) = (m : ℤ).tdiv n := by
    rw [truncated, if_pos (by positivity), Int.tdiv_eq_ediv_of_nonneg (Int.natCast_nonneg m),
      Int.cast_natCast n, Rat.floor_intCast_div_natCast]
  obtain ⟨m, rfl | rfl⟩ := Int.eq_nat_or_neg a <;> obtain ⟨n, rfl | rfl⟩ := Int.eq_nat_or_neg b
  · exact natural m n
  · rw [Int.cast_neg, div_neg, truncated_neg, natural, Int.tdiv_neg]
  · rw [Int.cast_neg, neg_div, truncated_neg, natural, Int.neg_tdiv]
  · rw [Int.cast_neg, Int.cast_neg, neg_div_neg_eq, natural, Int.neg_tdiv, Int.tdiv_neg, neg_neg]

/-! ## The representation of a rational number -/

namespace Real

/-- The rational number that an exact number denotes. -/
def rational? : Real → Option ℚ
  | word value => some value.toInt
  | wide value => some value.value
  | fraction value => some (value.numerator / value.denominator)
  | decimal _ => none

/-- The number that denotes a rational number: an integer if it is one, and otherwise the
fraction in lowest terms. -/
def ofRational (q : ℚ) : Real :=
  if whole : q.den = 1 then ofInt q.num
  else .fraction ⟨q.num, q.den, by have := q.den_pos; omega, q.reduced⟩

end Real

/-- The value of a machine integer that is given by its sign and its magnitude. -/
theorem Word.toInt_ofSign (negative : Bool) (magnitude : UInt64) :
    (ofSign negative magnitude).toInt =
      if negative then -(magnitude.toNat : ℤ) else magnitude.toNat := by
  unfold ofSign
  split
  · rename_i zero
    subst zero
    cases negative <;> rfl
  · rfl

/-- A machine integer is given by its value. -/
theorem Word.toInt_injective {left right : Word} (same : left.toInt = right.toInt) :
    left = right := by
  obtain ⟨negative, magnitude, canonical⟩ := left
  obtain ⟨negative', magnitude', canonical'⟩ := right
  simp only [Word.toInt] at same
  have magnitudes : magnitude = magnitude' := by
    rw [← UInt64.toNat_inj]
    split at same <;> split at same <;> omega
  subst magnitudes
  have positive (nonzero : magnitude ≠ 0) : 0 < magnitude.toNat :=
    Nat.pos_of_ne_zero fun zero => nonzero (UInt64.toNat_inj.mp zero)
  cases negative <;> cases negative'
  · rfl
  · have := positive (canonical' rfl)
    simp only [Bool.false_eq_true, if_false, if_true] at same
    omega
  · have := positive (canonical rfl)
    simp only [Bool.false_eq_true, if_false, if_true] at same
    omega
  · rfl

namespace Real

/-- The representation of an integer whose magnitude fits a word. -/
theorem ofInt_of_small {value : ℤ} (small : value.natAbs < UInt64.size) :
    ∃ word : Word, ofInt value = .word word ∧ word.toInt = value := by
  refine ⟨_, dif_neg (Nat.not_le_of_lt small), ?_⟩
  rw [Word.toInt_ofSign, UInt64.toNat_ofNat_of_lt' small]
  split
  · rename_i negative
    have below : value < 0 := of_decide_eq_true negative
    omega
  · rename_i negative
    have above : ¬ value < 0 := by simpa using negative
    omega

/-- A machine integer is the representation of its value. -/
theorem ofInt_toInt (word : Word) : ofInt word.toInt = .word word := by
  have small : word.toInt.natAbs < UInt64.size := by
    have bound := word.magnitude.toNat_lt_size
    unfold Word.toInt
    split <;> omega
  obtain ⟨same, representation, value⟩ := ofInt_of_small small
  rw [representation, Word.toInt_injective value]

/-- An integer of any size is the representation of its value. -/
theorem ofInt_value (wide : Wide) : ofInt wide.value = .wide wide := dif_pos wide.wide

/-- The representation of an integer as a rational number. -/
theorem ofRational_intCast (value : ℤ) : ofRational value = ofInt value := by
  rw [ofRational, dif_pos (Rat.den_intCast value), Rat.num_intCast]

/-- The representation of a fraction in lowest terms. -/
theorem ofRational_fraction (value : Fraction) :
    ofRational (value.numerator / value.denominator) = .fraction value := by
  have proper := value.proper
  have positive : (0 : ℤ) < value.denominator := by omega
  have reduced : value.numerator.natAbs.Coprime (value.denominator : ℤ).natAbs := value.reduced
  have above : ((value.numerator : ℚ) / (value.denominator : ℤ)).num = value.numerator :=
    Rat.num_div_eq_of_coprime positive reduced
  have below : (((value.numerator : ℚ) / (value.denominator : ℤ)).den : ℤ) = value.denominator :=
    Rat.den_div_eq_of_coprime positive reduced
  rw [Int.cast_natCast] at above below
  have below := Int.natCast_inj.mp below
  rw [ofRational, dif_neg (by omega)]
  congr 1
  obtain ⟨numerator, denominator, _, _⟩ := value
  simp only [Fraction.mk.injEq]
  exact ⟨above, below⟩

/-- An exact number denotes a rational number exactly if it is its representation. -/
theorem rational?_eq_some_iff (x : Real) (q : ℚ) : x.rational? = some q ↔ x = ofRational q := by
  constructor
  · intro denotes
    cases x with
    | word value =>
      obtain rfl := Option.some.inj denotes
      rw [ofRational_intCast, ofInt_toInt]
    | wide value =>
      obtain rfl := Option.some.inj denotes
      rw [ofRational_intCast, ofInt_value]
    | fraction value =>
      obtain rfl := Option.some.inj denotes
      exact (ofRational_fraction value).symm
    | decimal value => simp [rational?] at denotes
  · rintro rfl
    unfold ofRational
    split
    · rename_i whole
      have value : (q.num : ℚ) = q := Rat.coe_int_num_of_den_eq_one whole
      by_cases small : q.num.natAbs < UInt64.size
      · obtain ⟨word, representation, same⟩ := ofInt_of_small small
        rw [representation, rational?, same, value]
      · rw [ofInt, dif_pos (Nat.le_of_not_lt small), rational?, value]
    · exact congrArg some (Rat.num_div_den q)

/-- What represents a rational number denotes it. -/
theorem rational?_ofRational (q : ℚ) : (ofRational q).rational? = some q :=
  (rational?_eq_some_iff _ q).mpr rfl

/-- What represents an integer denotes it. -/
theorem rational?_ofInt (value : ℤ) : (ofInt value).rational? = some (value : ℚ) := by
  rw [← ofRational_intCast, rational?_ofRational]

/-- What represents a rational number: a machine integer if it is an integer that fits one, another
integer if it does not fit, and the fraction in lowest terms if it is no integer. -/
theorem ofRational_form (q : ℚ) :
    (q.den = 1 → q.num.natAbs < UInt64.size →
      ∃ word : Word, ofRational q = .word word ∧ word.toInt = q.num) ∧
    (q.den = 1 → UInt64.size ≤ q.num.natAbs →
      ∃ wide : Wide, ofRational q = .wide wide ∧ wide.value = q.num) ∧
    (q.den ≠ 1 → ∃ fraction : Fraction, ofRational q = .fraction fraction ∧
      fraction.numerator = q.num ∧ fraction.denominator = q.den) := by
  unfold ofRational
  refine ⟨fun whole small => ?_, fun whole large => ?_, fun proper => ?_⟩
  · rw [dif_pos whole]
    exact ofInt_of_small small
  · rw [dif_pos whole]
    exact ⟨_, dif_pos large, rfl⟩
  · rw [dif_neg proper]
    exact ⟨_, rfl, rfl, rfl⟩

/-- Coprime parts of which the lower one is positive are the fraction, or else the integer, that
their quotient is. -/
theorem ofRational_coprime {above : ℤ} {below : ℕ} (positive : 0 < below)
    (coprime : above.natAbs.gcd below = 1) :
    (match Fraction.ofReduced? above below with
      | some lowest => .ok (.fraction lowest)
      | none => .ok (ofInt above) : Outcome Real) = .ok (ofRational (above / below)) := by
  unfold Fraction.ofReduced?
  split_ifs with valid
  · exact congrArg Except.ok (ofRational_fraction ⟨above, below, valid.1, valid.2⟩).symm
  · obtain rfl : below = 1 := by
      by_contra other
      exact valid ⟨by omega, coprime⟩
    rw [Nat.cast_one, div_one, ofRational_intCast]

/-- The quotient of two integers is represented as what it denotes. -/
theorem ofQuotient_eq {numerator denominator : ℤ} (nonzero : denominator ≠ 0) :
    ofQuotient numerator denominator = .ok (ofRational (numerator / denominator)) := by
  have positive := Int.gcd_pos_of_ne_zero_right numerator nonzero
  have coprime := Int.gcd_ediv_gcd_ediv_gcd positive
  have upper := Int.ediv_mul_cancel (Int.gcd_dvd_left numerator denominator)
  have lower := Int.ediv_mul_cancel (Int.gcd_dvd_right numerator denominator)
  rw [ofQuotient, if_neg nonzero]
  dsimp only
  generalize numerator / (Int.gcd numerator denominator : ℤ) = above at *
  generalize denominator / (Int.gcd numerator denominator : ℤ) = below at *
  have quotient : (numerator : ℚ) / denominator = above / below := by
    have common : ((Int.gcd numerator denominator : ℤ) : ℚ) ≠ 0 := by exact_mod_cast positive.ne'
    calc (numerator : ℚ) / denominator
      _ = ((above * Int.gcd numerator denominator : ℤ) : ℚ) /
          ((below * Int.gcd numerator denominator : ℤ) : ℚ) := by rw [upper, lower]
      _ = above / below := by
        rw [Int.cast_mul, Int.cast_mul]
        exact mul_div_mul_right _ _ common
  have lowerNonzero : below ≠ 0 := by
    rintro rfl
    rw [zero_mul] at lower
    exact nonzero lower.symm
  have lowerPositive := Int.natAbs_pos.mpr lowerNonzero
  rw [quotient]
  by_cases negative : below < 0
  · have flipped : (above : ℚ) / below = ((-above : ℤ) : ℚ) / (below.natAbs : ℚ) := by
      rw [Nat.cast_natAbs, abs_of_neg negative, Int.cast_neg, Int.cast_neg, neg_div_neg_eq]
    have coprimeFlipped : (-above).natAbs.gcd below.natAbs = 1 := by
      rw [Int.natAbs_neg]
      exact coprime
    rw [flipped, if_pos negative]
    exact ofRational_coprime lowerPositive coprimeFlipped
  · have same : (below : ℚ) = (below.natAbs : ℚ) := by
      rw [Nat.cast_natAbs, abs_of_nonneg (Int.not_lt.mp negative)]
    rw [same, if_neg negative]
    exact ofRational_coprime lowerPositive coprime

end Real

end Calculator
