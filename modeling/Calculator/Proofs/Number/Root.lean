import Calculator.Proofs.Number.Tower
import Mathlib

/-!
# Exact roots

Newton's iteration from above stops at the largest whole number whose power does not exceed the
given one. So the root of an integer is found exactly if there is one. The root of a rational number
is looked for in both of its parts, which misses none: in lowest terms the parts of a power are the
powers of the parts.
-/

namespace Calculator

/-! ## Whole numbers -/

/-- From an estimate that is not below the root, the iteration goes down to it. The estimate is kept
not below the root by each step, and a step that does not lower it has met the root. -/
theorem improveRoot_bounds {degree value estimate : ℕ}
    (above : value < (estimate + 1) ^ (degree + 1)) :
    improveRoot (degree + 1) value estimate ^ (degree + 1) ≤ value ∧
      value < (improveRoot (degree + 1) value estimate + 1) ^ (degree + 1) := by
  induction estimate using Nat.strong_induction_on with
  | _ estimate inductionHypothesis =>
    rw [improveRoot, Nat.add_sub_cancel]
    by_cases lowered :
        (degree * estimate + value / Nat.pow estimate degree) / (degree + 1) < estimate
    · simp only [lowered, if_true]
      apply inductionHypothesis _ lowered
      rw [Nat.add_comm (degree * estimate)]
      exact Nat.nthRoot.lt_pow_go_succ_aux (Nat.ne_zero_of_lt lowered)
    · simp only [lowered, if_false]
      constructor
      · have met : estimate * (degree + 1) ≤ degree * estimate + value / estimate ^ degree :=
          (Nat.le_div_iff_mul_le degree.succ_pos).mp (Nat.not_lt.mp lowered)
        have within : estimate ≤ value / estimate ^ degree := by linarith
        rw [Nat.pow_succ, Nat.mul_comm]
        exact Nat.mul_le_of_le_div _ _ _ within
      · exact above

/-- The iteration starts above the root, so what it finds is the root rounded down. -/
theorem floorRoot_eq_nthRoot {degree : ℕ} (positive : degree ≠ 0) (value : ℕ) :
    floorRoot degree value = Nat.nthRoot degree value := by
  obtain ⟨lower, rfl⟩ := Nat.exists_eq_succ_of_ne_zero positive
  have start : value < (twoTo (Nat.log2 value / (lower + 1) + 1) + 1) ^ (lower + 1) := by
    calc value
      _ < 2 ^ (Nat.log2 value + 1) := Nat.lt_log2_self
      _ ≤ 2 ^ ((Nat.log2 value / (lower + 1) + 1) * (lower + 1)) := by
        apply Nat.pow_le_pow_right (by norm_num)
        exact Nat.lt_mul_of_div_lt (Nat.lt_succ_self _) lower.succ_pos
      _ = twoTo (Nat.log2 value / (lower + 1) + 1) ^ (lower + 1) := Nat.pow_mul _ _ _
      _ ≤ (twoTo (Nat.log2 value / (lower + 1) + 1) + 1) ^ (lower + 1) :=
        Nat.pow_le_pow_left (Nat.le_succ _) _
  obtain ⟨below, above⟩ := improveRoot_bounds start
  exact (Nat.nthRoot_eq_of_le_of_lt below above).symm

/-- The root of an integer is found exactly if there is one that is not negative. -/
theorem exactRoot?_eq_some_iff {degree : ℕ} (positive : degree ≠ 0) (value root : ℤ) :
    exactRoot? value degree = some root ↔ 0 ≤ root ∧ root ^ degree = value := by
  constructor
  · intro found
    unfold exactRoot? at found
    dsimp only at found
    split_ifs at found with negative exact
    obtain rfl := Option.some.inj found
    have power : (floorRoot degree value.natAbs : ℤ) ^ degree = (value.natAbs : ℤ) := by
      exact_mod_cast exact
    exact ⟨Int.natCast_nonneg _, by omega⟩
  · rintro ⟨nonneg, rfl⟩
    obtain ⟨natural, rfl⟩ := Int.eq_ofNat_of_zero_le nonneg
    have found : floorRoot degree (natural ^ degree) = natural := by
      rw [floorRoot_eq_nthRoot positive, Nat.nthRoot_pow positive]
    have nonnegative : ¬ (natural : ℤ) ^ degree < 0 := not_lt.mpr (pow_nonneg nonneg degree)
    simp [exactRoot?, found, nonnegative, Int.natAbs_pow]

/-! ## Rational numbers -/

namespace Ratio

/-- A rational number as the ratio in lowest terms. -/
def ofRational (q : ℚ) : Ratio := ⟨q.num, q.den⟩

variable {degree : ℕ} {p r : ℚ}

/-- The root of a rational number has the roots of the two parts for its parts. -/
theorem exactRoots_of_root (positive : degree ≠ 0) (nonneg : 0 ≤ r) (root : r ^ degree = p) :
    exactRoot? p.num degree = some r.num ∧ exactRoot? p.den degree = some (r.den : ℤ) := by
  subst root
  constructor
  · rw [exactRoot?_eq_some_iff positive, Rat.num_pow]
    exact ⟨Rat.num_nonneg.mpr nonneg, rfl⟩
  · rw [exactRoot?_eq_some_iff positive, Rat.den_pow, Nat.cast_pow]
    exact ⟨Int.natCast_nonneg _, rfl⟩

/-- Where both parts have roots, their quotient is the root. -/
theorem root_of_exactRoots (positive : degree ≠ 0) {above below : ℤ}
    (upper : exactRoot? p.num degree = some above)
    (lower : exactRoot? p.den degree = some below) :
    0 ≤ (above / below : ℚ) ∧ (above / below : ℚ) ^ degree = p := by
  rw [exactRoot?_eq_some_iff positive] at upper lower
  constructor
  · exact div_nonneg (Int.cast_nonneg upper.1) (Int.cast_nonneg lower.1)
  · rw [div_pow, ← Int.cast_pow, ← Int.cast_pow, upper.2, lower.2, Int.cast_natCast,
      Rat.num_div_den]

/-- The square root of a rational number is found if there is one, and then it is what represents
the root. -/
theorem squareRoot?_eq_some_iff (p : ℚ) (x : Real) :
    (ofRational p).squareRoot? = some x ↔ ∃ r : ℚ, 0 ≤ r ∧ r ^ 2 = p ∧ x = .ofRational r := by
  constructor
  · intro found
    unfold squareRoot? at found
    split at found
    · rename_i above below upper lower
      obtain ⟨nonneg, root⟩ := root_of_exactRoots two_ne_zero upper lower
      have nonzero : below ≠ 0 := by
        rintro rfl
        have power := ((exactRoot?_eq_some_iff two_ne_zero _ _).mp lower).2
        have some := p.den_pos
        simp only [ofRational] at power
        omega
      rw [Real.ofQuotient_eq nonzero] at found
      exact ⟨_, nonneg, root, (Option.some.inj found).symm⟩
    · cases found
  · rintro ⟨r, nonneg, root, rfl⟩
    obtain ⟨upper, lower⟩ := exactRoots_of_root two_ne_zero nonneg root
    have nonzero : (r.den : ℤ) ≠ 0 := Int.natCast_ne_zero.mpr r.den_ne_zero
    simp only [squareRoot?, ofRational, upper, lower, Real.ofQuotient_eq nonzero,
      Int.cast_natCast, Rat.num_div_den]
    rfl

end Ratio

namespace Real

/-- An integer is its own ratio. -/
theorem ratio?_ofInt (value : ℤ) : (ofInt value).ratio? = some (.ofInt value) := by
  by_cases small : value.natAbs < UInt64.size
  · obtain ⟨word, representation, same⟩ := ofInt_of_small small
    rw [representation, ratio?, same]
  · rw [ofInt, dif_pos (Nat.le_of_not_lt small), ratio?]

/-- An exact number is given as the ratio in lowest terms. -/
theorem ratio?_eq {x : Real} {p : ℚ} (denotes : x.rational? = some p) :
    x.ratio? = some (.ofRational p) := by
  obtain rfl := (rational?_eq_some_iff x p).mp denotes
  unfold ofRational
  split
  · rename_i whole
    rw [ratio?_ofInt, Ratio.ofInt, Ratio.ofRational, whole, Nat.cast_one]
  · rfl

end Real

end Calculator
