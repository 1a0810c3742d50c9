import Calculator.Number.Word
import Calculator.Proofs.Number.Comparison
import Calculator.Proofs.Number.Digits
import Calculator.Proofs.Number.Power
import Calculator.Proofs.Number.Tower
import Mathlib

/-!
# Arithmetic in a machine word

Operations on machine integers are attempts at an integer, and they fail only where the integer has
no room in a word. For sums and products this is what the operations ask for. A power is made of
squares and products, each of which might fail though the power has room; but a square is formed only
if it goes into the power, so that where one has no room, the power has none.
-/

namespace Calculator.Word

variable {x y : Word} {value : ℤ}

/-- Whether a machine integer is an integer, in the one form that it has: with a sign exactly if it is
below zero, and with its magnitude. -/
def Holds (word : Word) (value : ℤ) : Prop :=
  word.negative = decide (value < 0) ∧ word.magnitude.toNat = value.natAbs

/-- A machine integer is the integer that is its value. -/
theorem holds_iff {word : Word} : word.Holds value ↔ word.toInt = value := by
  constructor
  · rintro ⟨sign, magnitude⟩
    rw [toInt, sign, magnitude]
    by_cases negative : value < 0
    · rw [decide_eq_true negative, if_pos rfl]
      omega
    · rw [decide_eq_false negative, if_neg Bool.false_ne_true]
      omega
  · rintro rfl
    exact ⟨word.negative_eq, word.toNat_magnitude⟩

/-- A magnitude fits a word. -/
theorem natAbs_toInt_lt (word : Word) : word.toInt.natAbs < 2 ^ 64 := by
  rw [← toNat_magnitude]
  exact word.magnitude.toNat_lt

/-- Whether an attempt delivers an integer: it has the integer if its magnitude fits a word, and
nothing if it does not. -/
structure Delivers (attempt : Option Word) (value : ℤ) : Prop where
  fits (room : value.natAbs < 2 ^ 64) : ∃ result, attempt = some result ∧ result.Holds value
  overflows (room : 2 ^ 64 ≤ value.natAbs) : attempt = none

/-- An attempt that has nothing but the integer delivers it if it fails only for want of room. -/
theorem delivers_of_exact {attempt : Option Word}
    (exact : ∀ result, attempt = some result → result.toInt = value)
    (fails : attempt = none → 2 ^ 64 ≤ value.natAbs) : Delivers attempt value := by
  cases attempt with
  | none => exact ⟨fun room => absurd (fails rfl) (Nat.not_le.mpr room), fun _ => rfl⟩
  | some result =>
    have same : result.toInt = value := exact result rfl
    refine ⟨fun _ => ⟨result, rfl, holds_iff.mpr same⟩, fun overflow => ?_⟩
    exact absurd (same ▸ result.natAbs_toInt_lt) (Nat.not_lt.mpr overflow)

/-! ## Sums and products -/

/-- Only a sum of one sign can have no room. -/
theorem le_natAbs_of_add?_eq_none (overflow : x.add? y = none) :
    2 ^ 64 ≤ (x.toInt + y.toInt).natAbs := by
  unfold add? at overflow
  split_ifs at overflow with alike
  have sum : UInt64.size ≤ x.magnitude.toNat + y.magnitude.toNat := by
    unfold addMagnitudes? at overflow
    split_ifs at overflow with small
    · exact absurd overflow (by simp)
    · exact Nat.not_lt.mp small
  rw [toInt, toInt, ← eq_of_beq alike]
  change 2 ^ 64 ≤ _ at sum
  split <;> omega

/-- A product of magnitudes that has no room is too large. -/
theorem le_mul_of_multiplyMagnitudes?_eq_none {left right : UInt64}
    (overflow : multiplyMagnitudes? left right = none) : 2 ^ 64 ≤ left.toNat * right.toNat := by
  unfold multiplyMagnitudes? at overflow
  split_ifs at overflow with small
  exact Nat.not_lt.mp small

/-- Only a product that is too large can have no room. -/
theorem le_natAbs_of_multiply?_eq_none (overflow : x.multiply? y = none) :
    2 ^ 64 ≤ (x.toInt * y.toInt).natAbs := by
  rw [Int.natAbs_mul, ← toNat_magnitude, ← toNat_magnitude]
  exact le_mul_of_multiplyMagnitudes?_eq_none (Option.map_eq_none_iff.mp overflow)

/-! ## Powers -/

/-- Where a square or a product that a power is made of has no room, the power has none: a square is
formed only if it goes into the power, and no factor of the power is zero then. -/
theorem le_pow_of_raiseOnto_eq_none {result base : UInt64} {exponent : ℕ}
    (positive : base.toNat ≠ 0 → 0 < result.toNat)
    (overflow : raiseOnto multiplyMagnitudes? result base exponent = none) :
    2 ^ 64 ≤ result.toNat * base.toNat ^ exponent := by
  induction exponent using Nat.strong_induction_on generalizing result base with
  | _ exponent inductionHypothesis =>
    -- The squarings that follow, behind the product of this step.
    have squared {next : UInt64} (positive : base.toNat ≠ 0 → 0 < next.toNat)
        (fails : (if exponent / 2 = 0 then pure next else multiplyMagnitudes? base base >>=
          fun square => raiseOnto multiplyMagnitudes? next square (exponent / 2)) = none) :
        2 ^ 64 ≤ next.toNat * base.toNat ^ (2 * (exponent / 2)) := by
      split_ifs at fails with last
      cases square : multiplyMagnitudes? base base with
      | none =>
        have large := le_mul_of_multiplyMagnitudes?_eq_none square
        have some : base.toNat ≠ 0 := by
          intro zero
          rw [zero] at large
          exact absurd large (by decide)
        calc 2 ^ 64
          _ ≤ base.toNat ^ 2 := by rwa [pow_two]
          _ ≤ base.toNat ^ (2 * (exponent / 2)) :=
            Nat.pow_le_pow_right (Nat.pos_of_ne_zero some) (by omega)
          _ ≤ next.toNat * base.toNat ^ (2 * (exponent / 2)) :=
            Nat.le_mul_of_pos_left _ (positive some)
      | some double =>
        rw [square] at fails
        have value := toNat_multiplyMagnitudes square
        have large := inductionHypothesis (exponent / 2) (by omega)
          (fun some => positive fun zero => some (by rw [value, zero])) fails
        rwa [value, ← pow_two, ← pow_mul] at large
    have digits : 2 * (exponent / 2) + exponent % 2 = exponent := Nat.div_add_mod exponent 2
    rw [raiseOnto] at overflow
    split at overflow
    · cases overflow
    · rename_i unfinished
      dsimp only at overflow
      split at overflow
      · rename_i odd
        cases product : multiplyMagnitudes? result base with
        | none =>
          calc 2 ^ 64
            _ ≤ result.toNat * base.toNat := le_mul_of_multiplyMagnitudes?_eq_none product
            _ ≤ result.toNat * base.toNat ^ exponent :=
              Nat.mul_le_mul_left _ (Nat.le_self_pow unfinished _)
        | some next =>
          rw [product] at overflow
          have value := toNat_multiplyMagnitudes product
          have kept (some : base.toNat ≠ 0) : 0 < next.toNat :=
            value ▸ Nat.mul_pos (positive some) (Nat.pos_of_ne_zero some)
          have large := squared kept overflow
          rw [odd] at digits
          rwa [value, mul_assoc, ← pow_succ', digits] at large
      · have even : 2 * (exponent / 2) = exponent := by omega
        have large := squared positive overflow
        rwa [even] at large

/-- Only a power that is too large can have no room. -/
theorem le_natAbs_of_power?_eq_none {exponent : UInt64} (overflow : x.power? exponent = none) :
    2 ^ 64 ≤ (x.toInt ^ exponent.toNat).natAbs := by
  have large := le_pow_of_raiseOnto_eq_none (fun _ => by decide)
    (Option.map_eq_none_iff.mp overflow)
  rwa [UInt64.toNat_one, Nat.one_mul, toNat_magnitude, ← Int.natAbs_pow] at large

/-! ## Quotients and remainders -/

/-- An exact division has a quotient. -/
theorem exists_divide?_of_dvd (divides : y.toInt ∣ x.toInt) :
    ∃ quotient, x.divide? y = some quotient := by
  have rest : (x.remainder y).toInt = 0 := by
    rw [toInt_remainder, Int.tmod_eq_zero_of_dvd divides]
  have whole : x.magnitude % y.magnitude = 0 := by
    rw [remainder, toInt_ofSign] at rest
    rw [← UInt64.toNat_inj, UInt64.toNat_zero]
    split at rest <;> omega
  exact ⟨_, if_pos (beq_iff_eq.mpr whole)⟩

/-- A modulus always has room: where the divisor is added to a remainder, they have different
signs. -/
theorem modulo?_ne_none (x y : Word) : x.modulo? y ≠ none := by
  intro none
  simp only [modulo?] at none
  split_ifs at none with same
  rw [Bool.or_eq_true, not_or, isZero_iff, beq_iff_eq, negative_eq, negative_eq, decide_eq_decide]
    at same
  have large := le_natAbs_of_add?_eq_none none
  have short := (x.remainder y).natAbs_toInt_lt
  have shortToo := y.natAbs_toInt_lt
  rw [toInt_remainder] at same large short
  rcases lt_or_ge x.toInt 0 with negative | nonneg
  · have below := Int.tmod_nonneg y.toInt (Int.neg_nonneg_of_nonpos negative.le)
    rw [Int.neg_tmod] at below
    omega
  · have above := Int.tmod_nonneg y.toInt nonneg
    omega

/-- Operations on machine integers are exact and complete. A sum, a difference, a product and a power
are delivered: exactly where their magnitude fits a word, and as what they are. By a divisor other
than zero there is a quotient where the division leaves no remainder, and there always are the
remainders of the divisions rounded toward zero and rounded down. No result is a negative zero, and
the order is that of the values. -/
theorem operations_exact (x y : Word) (exponent : UInt64) :
    Delivers (x.add? y) (x.toInt + y.toInt) ∧
    Delivers (x.subtract? y) (x.toInt - y.toInt) ∧
    Delivers (x.multiply? y) (x.toInt * y.toInt) ∧
    Delivers (x.power? exponent) (x.toInt ^ exponent.toNat) ∧
    (y.toInt ≠ 0 →
      (y.toInt ∣ x.toInt → ∃ quotient, x.divide? y = some quotient ∧
        quotient.Holds (x.toInt / y.toInt)) ∧
      (¬y.toInt ∣ x.toInt → x.divide? y = none) ∧
      (x.remainder y).Holds (x.toInt.tmod y.toInt) ∧
      ∃ rest, x.modulo? y = some rest ∧ rest.Holds (x.toInt.fmod y.toInt)) ∧
    x.order y = compare x.toInt y.toInt := by
  have difference : x.toInt - y.toInt = x.toInt + y.negated.toInt := by
    rw [toInt_negated, sub_eq_add_neg]
  refine ⟨delivers_of_exact (fun _ => toInt_add) le_natAbs_of_add?_eq_none, ?_,
    delivers_of_exact (fun _ => toInt_multiply) le_natAbs_of_multiply?_eq_none,
    delivers_of_exact (fun _ => toInt_power) le_natAbs_of_power?_eq_none, fun _ => ?_,
    order_eq x y⟩
  · rw [difference]
    exact delivers_of_exact (fun _ => toInt_add) le_natAbs_of_add?_eq_none
  refine ⟨fun divides => ?_, fun undivided => ?_, holds_iff.mpr (toInt_remainder x y), ?_⟩
  · obtain ⟨quotient, found⟩ := exists_divide?_of_dvd divides
    refine ⟨quotient, found, holds_iff.mpr ?_⟩
    rw [(toInt_divide found).1, Int.tdiv_eq_ediv_of_dvd divides]
  · refine Option.eq_none_iff_forall_ne_some.mpr fun quotient found => ?_
    exact undivided (Int.dvd_of_tmod_eq_zero (toInt_divide found).2)
  · obtain ⟨rest, found⟩ := Option.ne_none_iff_exists'.mp (modulo?_ne_none x y)
    exact ⟨rest, found, holds_iff.mpr (toInt_modulo found)⟩

/-- The sixty-fourth power of two has no room, and the one before it has. Modulo two, minus seven is
one. -/
theorem operations_exact_limits :
    let seven := ofSign true 7
    let two := ofSign false 2
    Delivers (two.power? 64) (2 ^ 64) ∧ two.power? 64 = none ∧
      Delivers (two.power? 63) (2 ^ 63) ∧ two.toInt ≠ 0 ∧
      ∃ rest, seven.modulo? two = some rest ∧ rest.Holds 1 := by
  intro seven two
  have nonzero : two.toInt ≠ 0 := by decide
  obtain ⟨-, -, -, tooLarge, -, -⟩ := operations_exact two two 64
  obtain ⟨-, -, -, fits, -, -⟩ := operations_exact two two 63
  obtain ⟨-, -, -, -, divided, -⟩ := operations_exact seven two 0
  have one : seven.toInt.fmod two.toInt = 1 := by decide
  refine ⟨tooLarge, tooLarge.overflows (by decide), fits, nonzero, ?_⟩
  exact one ▸ (divided nonzero).2.2.2

end Calculator.Word
