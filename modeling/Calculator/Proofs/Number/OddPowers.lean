import Calculator.Proofs.Number.Working
import Mathlib

/-!
# Odd powers

The series of the logarithm and of the arc tangent add the odd powers of a small number over their
exponents, the second one with alternating signs. The powers shrink geometrically, and the exponents by
which they are divided stay odd where the word that counts them wraps, so that no term is larger than
its power. A term that counts bounds its power from below, which leaves room for its scale however many
terms there are; and a power that shrinks passes every bound, so that a term is negligible after about
as many terms as there are digits.
-/

namespace Calculator.Decimal

variable {work depth : ℕ} {square sum : Decimal} {ratio weight first bound : ℝ}

/-! ## Powers and terms -/

/-- Whether a square makes the powers shrink by a ratio, and a weight times a power covers all terms
that come after it. -/
structure Shrinking (depth : ℕ) (square : Decimal) (ratio weight : ℝ) : Prop where
  above : 10 ^ (-depth : ℤ) ≤ square.real
  below : 1001 / 1000 * square.real ≤ ratio
  scale_le : |square.scale.toInt| ≤ 2 ^ 58
  ratio_le : ratio ≤ 1
  weight_nonneg : 0 ≤ weight
  covers : (1001 / 1000 + weight) * ratio ≤ weight

/-- Whether a power and its exponent are such that a next term is formed without a wrapping scale and
without a division by zero. -/
structure Extensible (work depth : ℕ) (state : Decimal × UInt32) : Prop where
  odd : state.2.toNat % 2 = 1
  above : 10 ^ (-(work + depth : ℕ) : ℤ) ≤ |state.1.real|
  below : |state.1.real| ≤ 1
  scale_le : |state.1.scale.toInt| ≤ 2 ^ 59

section Terms

variable {state : Decimal × UInt32}

/-- The next exponent is odd, also if the word wraps. -/
theorem odd_nextExponent (square : Decimal) (extensible : Extensible work depth state) :
    (oddPowerTerm square work state).1.2.toNat % 2 = 1 := by
  have odd := extensible.odd
  change (state.2 + 2).toNat % 2 = 1
  rw [UInt32.toNat_add]
  change (state.2.toNat + 2) % 2 ^ 32 % 2 = 1
  omega

variable (shrinking : Shrinking depth square ratio weight) (shallow : depth ≤ 2 ^ 56)
include shrinking shallow

/-- The next power is close to the product with the square. -/
theorem close_power (precise : 2 ≤ work) (few : work ≤ 2 ^ 50)
    (extensible : Extensible work depth state) :
    Close (2 * grain work) (oddPowerTerm square work state).1.1.real (state.1.real * square.real) ∧
      |(oddPowerTerm square work state).1.1.scale.toInt| ≤ 2 ^ 59 ∧
      Mild (3 * (work + depth) + 3 * depth : ℕ) (state.1.real * square.real) := by
  have positive : 0 < square.real := (zpow_pos (by norm_num) _).trans_le shrinking.above
  have power := mild_of_le_one (work + depth) extensible.above extensible.below
  have factor : Mild (3 * depth) square.real := by
    refine mild_of_le_one depth ?_ ?_ <;> rw [abs_of_pos positive]
    · exact shrinking.above
    · linarith [shrinking.below, shrinking.ratio_le]
  have product : Mild (3 * (work + depth) + 3 * depth : ℕ) (state.1.real * square.real) :=
    (power.mul factor).mono (by push_cast; linarith)
  have scale := extensible.scale_le
  have scaleSquare := shrinking.scale_le
  obtain ⟨close, position⟩ := close_multiply_withDigits product (by omega) precise (by omega)
  exact ⟨close, position.trans (by push_cast; omega), product⟩

/-- The next term is close to the next power over its exponent, and has room in a machine word. -/
theorem close_term (precise : 2 ≤ work) (few : work ≤ 2 ^ 50)
    (extensible : Extensible work depth state) :
    Close (3 * grain (min work 100)) (oddPowerTerm square work state).2.real
        ((oddPowerTerm square work state).1.1.real / (oddPowerTerm square work state).1.2.toNat) ∧
      |(oddPowerTerm square work state).2.scale.toInt| ≤ 2 ^ 59 ∧
      (oddPowerTerm square work state).2.mantissa ≠ 0 ∧
      |(oddPowerTerm square work state).2.place| ≤ 2 ^ 60 := by
  obtain ⟨close, scale, sized⟩ := close_power shrinking shallow precise few extensible
  have odd := odd_nextExponent square extensible
  have word := (oddPowerTerm square work state).1.2.toNat_lt
  have form : (oddPowerTerm square work state).2 = ((oddPowerTerm square work state).1.1.divide
      (ofNat (oddPowerTerm square work state).1.2.toNat)).withDigits work := rfl
  have fine : grain work ≤ 1 / 10 ^ 1 := grain_le_pow precise
  have fineToo : grain (min work 100) ≤ 1 / 10 ^ 1 := grain_le_pow (by omega)
  rw [form]
  generalize (oddPowerTerm square work state).1.1 = power at *
  generalize (oddPowerTerm square work state).1.2.toNat = exponent at *
  have large : (exponent : ℝ) ≤ 2 ^ 32 := by exact_mod_cast word.le
  have quotient : Mild (3 * (work + depth) + 3 * depth + 1 + 2 ^ 32 : ℕ) (power.real / exponent) := by
    refine ((sized.of_close close).div (mild_natCast (by omega))).mono ?_
    push_cast
    linarith
  have digits : (ofNat exponent).digits ≤ 10 := digits_ofNat_le (by omega) (by omega)
  have plain : (ofNat exponent).scale.toInt = 0 := rfl
  have hundred : quotientDigits = 100 := rfl
  have nonzero : (ofNat exponent).mantissa ≠ 0 := Int.natCast_ne_zero.mpr (by omega)
  rw [← real_ofNat exponent] at quotient ⊢
  obtain ⟨rounded, position⟩ := close_divide_withDigits_min quotient nonzero
    (by rw [plain, abs_zero]; omega) precise (by omega)
  have kept := quotient.of_close rounded
  have size : Mild (3 * (work + depth) + 3 * depth + 2 + 2 ^ 32 : ℕ)
      ((power.divide (ofNat exponent)).withDigits work).real := kept.mono (by push_cast; linarith)
  have place := abs_place_le size
  exact ⟨rounded, position.trans (by push_cast; omega), (real_eq_zero_iff _).not.mp kept.1,
    place.trans (by push_cast; omega)⟩

/-- The next power is at most the ratio times the last one. -/
theorem abs_power_le (precise : 13 ≤ work) (few : work ≤ 2 ^ 50)
    (extensible : Extensible work depth state) :
    |(oddPowerTerm square work state).1.1.real| ≤ ratio * |state.1.real| := by
  obtain ⟨close, -⟩ := close_power shrinking shallow (by omega) few extensible
  have positive : 0 < square.real := (zpow_pos (by norm_num) _).trans_le shrinking.above
  have fine : grain work ≤ 1 / 10 ^ 11 := grain_le_pow (by omega)
  have near := close.abs_sub_le (by linarith)
  have split := abs_sub_abs_le_abs_sub (oddPowerTerm square work state).1.1.real
    (state.1.real * square.real)
  rw [abs_mul, abs_of_pos positive] at near split
  have power := abs_nonneg state.1.real
  calc |(oddPowerTerm square work state).1.1.real|
    _ ≤ (1 + 4 * grain work) * (|state.1.real| * square.real) := by linarith
    _ ≤ 1001 / 1000 * (|state.1.real| * square.real) := by
      gcongr
      linarith
    _ = 1001 / 1000 * square.real * |state.1.real| := by ring
    _ ≤ ratio * |state.1.real| := mul_le_mul_of_nonneg_right shrinking.below power

/-- The next term is hardly larger than the next power. -/
theorem abs_term_le (precise : 13 ≤ work) (few : work ≤ 2 ^ 50)
    (extensible : Extensible work depth state) :
    |(oddPowerTerm square work state).2.real| ≤
      1001 / 1000 * |(oddPowerTerm square work state).1.1.real| := by
  obtain ⟨close, -⟩ := close_term shrinking shallow (by omega) few extensible
  have odd := odd_nextExponent square extensible
  have fine : grain (min work 100) ≤ 1 / 10 ^ 11 := grain_le_pow (by omega)
  have near := close.abs_sub_le (by linarith)
  generalize (oddPowerTerm square work state).1.2.toNat = exponent at *
  have one_le : (1 : ℝ) ≤ exponent := Nat.one_le_cast.mpr (by omega)
  have split := abs_sub_abs_le_abs_sub (oddPowerTerm square work state).2.real
    ((oddPowerTerm square work state).1.1.real / exponent)
  have share : |(oddPowerTerm square work state).1.1.real / exponent| ≤
      |(oddPowerTerm square work state).1.1.real| := by
    rw [abs_div, Nat.abs_cast]
    exact div_le_self (abs_nonneg _) one_le
  calc |(oddPowerTerm square work state).2.real|
    _ ≤ (1 + 6 * grain (min work 100)) * |(oddPowerTerm square work state).1.1.real / exponent| := by
      linarith
    _ ≤ 1001 / 1000 * |(oddPowerTerm square work state).1.1.real| := by
      gcongr
      linarith

end Terms

/-! ## The next term -/

/-- A next term of a series and the power behind it: the power is smaller by the ratio than the last
one, the term hardly larger than the power, and both have room in a machine word. -/
structure NextTerm (ratio last : ℝ) (power : Decimal × UInt32) (term : Decimal) : Prop where
  odd : power.2.toNat % 2 = 1
  power_le : |power.1.real| ≤ ratio * |last|
  scale_power_le : |power.1.scale.toInt| ≤ 2 ^ 59
  term_le : |term.real| ≤ 1001 / 1000 * |power.1.real|
  scale_term_le : |term.scale.toInt| ≤ 2 ^ 59
  nonzero : term.mantissa ≠ 0
  place_le : |term.place| ≤ 2 ^ 60

/-- The term that follows in the series of the logarithm. -/
theorem nextTerm_oddPowerTerm (shrinking : Shrinking depth square ratio weight)
    (shallow : depth ≤ 2 ^ 56) (precise : 13 ≤ work) (few : work ≤ 2 ^ 50)
    {state : Decimal × UInt32} (extensible : Extensible work depth state) :
    NextTerm ratio state.1.real (oddPowerTerm square work state).1
      (oddPowerTerm square work state).2 := by
  obtain ⟨-, scaleTerm, nonzero, place⟩ := close_term shrinking shallow (by omega) few extensible
  exact ⟨odd_nextExponent square extensible, abs_power_le shrinking shallow precise few extensible,
    (close_power shrinking shallow (by omega) few extensible).2.1,
    abs_term_le shrinking shallow precise few extensible, scaleTerm, nonzero, place⟩

/-- The opposite of a term is one. -/
theorem NextTerm.negated {last : ℝ} {power : Decimal × UInt32} {term : Decimal}
    (following : NextTerm ratio last power term) : NextTerm ratio last power term.negated := by
  obtain ⟨odd, powerLe, scalePower, termLe, scaleTerm, nonzero, place⟩ := following
  refine ⟨odd, powerLe, scalePower, ?_, scaleTerm, Int.neg_ne_zero.mpr nonzero, ?_⟩
  · rwa [real_negated, abs_neg]
  · rwa [Decimal.place, digits, Decimal.negated, Int.natAbs_neg]

/-- The term that follows in the arc tangent series, whichever sign it has. -/
theorem nextTerm_arcTangentTerm (shrinking : Shrinking depth square ratio weight)
    (shallow : depth ≤ 2 ^ 56) (precise : 13 ≤ work) (few : work ≤ 2 ^ 50)
    (state : (Decimal × UInt32) × Bool) (extensible : Extensible work depth state.1) :
    NextTerm ratio state.1.1.real (arcTangentTerm square work state).1.1
      (arcTangentTerm square work state).2 := by
  obtain ⟨state, negative⟩ := state
  have following := nextTerm_oddPowerTerm shrinking shallow precise few extensible
  cases negative with
  | false => exact following
  | true => exact following.negated

/-- A term that counts bounds the power behind it from below. -/
theorem NextTerm.above {last : ℝ} {power : Decimal × UInt32} {term : Decimal}
    (following : NextTerm ratio last power term) (few : work ≤ 2 ^ 50) (nonzero : sum.mantissa ≠ 0)
    (near : |sum.place| ≤ 2 ^ 60) (placed : 3 ≤ sum.place + depth)
    (counts : isNegligible term sum work = false) :
    10 ^ (-(work + depth : ℕ) : ℤ) ≤ |power.1.real| := by
  have reaches : ¬ term.place + work + 1 < sum.place := by
    rw [← isNegligible_iff following.nonzero nonzero following.place_le near (by omega), counts]
    exact Bool.false_ne_true
  have term : (10 : ℝ) ^ (-(work + depth : ℕ) : ℤ) * 10 ≤ |term.real| := by
    rw [← zpow_add_one₀ (by norm_num)]
    refine le_trans (zpow_le_zpow_right₀ (by norm_num) ?_) (real_bounds following.nonzero).1
    push_cast
    omega
  have unit := zpow_pos (by norm_num : (0 : ℝ) < 10) (-(work + depth : ℕ) : ℤ)
  linarith [following.term_le]

/-! ## The summation -/

/-- What holds while the terms of a series are added to a first sum: the distance from the first sum and
a weight times the power do not exceed a bound. -/
structure PowerRun (work depth : ℕ) (first weight bound : ℝ) (power : Decimal × UInt32)
    (sum : Decimal) : Prop where
  extensible : Extensible work depth power
  near : |sum.real - first| + weight * |power.1.real| ≤ bound
  scale_sum_le : |sum.scale.toInt| ≤ 2 ^ 59

/-- Whether sums within a bound of a first sum are well above what a power may shrink to, and at most
one. -/
structure Steady (depth : ℕ) (first bound : ℝ) : Prop where
  large : 10 ^ (2 - depth : ℤ) + bound ≤ |first|
  small : |first| + bound ≤ 1

/-- Such sums are not zero and begin near enough to the point. -/
theorem Steady.place_bounds (steady : Steady depth first bound) (near : |sum.real - first| ≤ bound) :
    sum.mantissa ≠ 0 ∧ 3 ≤ sum.place + depth ∧ sum.place ≤ 1 := by
  have unit : (0 : ℝ) < 10 ^ (2 - depth : ℤ) := zpow_pos (by norm_num) _
  have low := (abs_sub_abs_le_abs_sub first sum.real).trans (abs_sub_comm sum.real first ▸ near)
  have high := (abs_sub_abs_le_abs_sub sum.real first).trans near
  have above : 10 ^ (2 - depth : ℤ) ≤ |sum.real| := by linarith [steady.large]
  have nonzero : sum.mantissa ≠ 0 :=
    (real_eq_zero_iff sum).not.mp (abs_pos.mp (unit.trans_le above))
  have left := lt_place_of_le_abs nonzero above
  have right : sum.place ≤ 1 := place_le_of_abs_lt nonzero (by
    rw [zpow_one]
    linarith [steady.small])
  exact ⟨nonzero, by omega, right⟩

/-- Every term that is not negligible keeps what holds of the summation. That it is not negligible
bounds the power from below, so that its scale has room however many terms there are. -/
theorem PowerRun.step (shrinking : Shrinking depth square ratio weight) (shallow : depth ≤ 2 ^ 56)
    (few : work ≤ 2 ^ 50) (steady : Steady depth first bound) {power following : Decimal × UInt32}
    {term : Decimal} (run : PowerRun work depth first weight bound power sum)
    (next : NextTerm ratio power.1.real following term)
    (counts : isNegligible term sum work = false) :
    PowerRun work depth first weight bound following (sum.add term) := by
  obtain ⟨extensible, near, scale⟩ := run
  have positive := shrinking.weight_nonneg
  have weighted := mul_nonneg positive (abs_nonneg power.1.real)
  obtain ⟨nonzero, placed, right⟩ := steady.place_bounds ((le_add_of_nonneg_right weighted).trans near)
  have above := next.above few nonzero (abs_le.mpr ⟨by omega, by omega⟩) placed counts
  have shrunk : |following.1.real| ≤ |power.1.real| :=
    next.power_le.trans (mul_le_of_le_one_left (abs_nonneg _) shrinking.ratio_le)
  refine ⟨⟨next.odd, above, shrunk.trans extensible.below, next.scale_power_le⟩, ?_,
    abs_scale_add_le scale next.scale_term_le⟩
  calc |(sum.add term).real - first| + weight * |following.1.real|
    _ = |sum.real - first + term.real| + weight * |following.1.real| := by
      rw [real_add, add_sub_right_comm]
    _ ≤ |sum.real - first| + (1001 / 1000 + weight) * |following.1.real| := by
      linarith [abs_add_le (sum.real - first) term.real, next.term_le]
    _ ≤ |sum.real - first| + (1001 / 1000 + weight) * (ratio * |power.1.real|) := by
      gcongr
      exact next.power_le
    _ ≤ |sum.real - first| + weight * |power.1.real| := by
      rw [← mul_assoc]
      gcongr
      exact shrinking.covers
    _ ≤ bound := near

/-! ## The end of a summation -/

/-- What holds after so many terms if the powers shrink to a tenth with every term. -/
structure FastRun (work depth : ℕ) (first weight bound : ℝ) (index : ℕ) (power : Decimal × UInt32)
    (sum : Decimal) : Prop where
  run : PowerRun work depth first weight bound power sum
  shrunk : |power.1.real| ≤ (1 / 10) ^ index * |first|

namespace FastRun

variable {index : ℕ} {power following : Decimal × UInt32} {term : Decimal}
  (next : NextTerm ratio power.1.real following term) (fast : ratio ≤ 1 / 10)
include next fast

/-- Every term that is not negligible shrinks the power once more. -/
theorem step (shrinking : Shrinking depth square ratio weight) (shallow : depth ≤ 2 ^ 56)
    (few : work ≤ 2 ^ 50) (steady : Steady depth first bound)
    (holds : FastRun work depth first weight bound index power sum)
    (counts : isNegligible term sum work = false) :
    FastRun work depth first weight bound (index + 1) following (sum.add term) := by
  obtain ⟨run, shrunk⟩ := holds
  refine ⟨run.step shrinking shallow few steady next counts, ?_⟩
  calc |following.1.real|
    _ ≤ ratio * |power.1.real| := next.power_le
    _ ≤ 1 / 10 * ((1 / 10) ^ index * |first|) := by gcongr
    _ = (1 / 10) ^ (index + 1) * |first| := by ring

/-- After about as many terms as there are digits the next one is negligible. -/
theorem last (nonneg : 0 ≤ weight) (shallow : depth ≤ 2 ^ 56) (few : work ≤ 2 ^ 50)
    (steady : Steady depth first bound) (apart : 2 * bound ≤ |first|)
    (holds : FastRun work depth first weight bound (work + 3) power sum) :
    isNegligible term sum work = true := by
  obtain ⟨run, shrunk⟩ := holds
  have weighted := mul_nonneg nonneg (abs_nonneg power.1.real)
  have near := (le_add_of_nonneg_right weighted).trans run.near
  obtain ⟨nonzero, placed, right⟩ := steady.place_bounds near
  have half : |first| / 2 ≤ |sum.real| := by
    have split := abs_sub_abs_le_abs_sub first sum.real
    rw [abs_sub_comm] at split
    linarith
  have unit : grain (work + 4) = (1 / 10) ^ (work + 3) := by
    have exponent : 1 - ((work + 4 : ℕ) : ℤ) = -((work + 3 : ℕ) : ℤ) := by omega
    rw [grain, exponent, zpow_neg, zpow_natCast, one_div, inv_pow]
  have tail : (0 : ℝ) < (1 / 10) ^ (work + 3) := by positivity
  refine isNegligible_of_abs_le next.nonzero nonzero next.place_le
    (abs_le.mpr ⟨by omega, by omega⟩) (by omega) ?_
  calc |term.real|
    _ ≤ 1001 / 1000 * |following.1.real| := next.term_le
    _ ≤ 1001 / 1000 * (1 / 10 * ((1 / 10) ^ (work + 3) * |first|)) := by
      gcongr
      exact next.power_le.trans (mul_le_mul fast shrunk (abs_nonneg _) (by norm_num))
    _ = (1 / 10) ^ (work + 3) * (1001 / 10000 * |first|) := by ring
    _ ≤ grain (work + 4) * |sum.real| := by
      rw [unit]
      gcongr
      linarith [abs_nonneg first]

end FastRun

/-- A summation whose powers shrink to a tenth with every term ends after about as many terms as there
are digits. -/
theorem exists_sum_of_shrinking {State : Type} {next : State → State × Decimal}
    (power : State → Decimal × UInt32)
    (following : ∀ state, Extensible work depth (power state) →
      NextTerm ratio (power state).1.real (power (next state).1) (next state).2)
    (shrinking : Shrinking depth square ratio weight) (fast : ratio ≤ 1 / 10)
    (shallow : depth ≤ 2 ^ 56) (few : work ≤ 2 ^ 50) (steady : Steady depth first bound)
    (apart : 2 * bound ≤ |first|) {state : State}
    (start : FastRun work depth first weight bound 0 (power state) sum) :
    ∃ total, SumsTo next work (work + 3) state sum total := by
  obtain ⟨terms, early, ⟨final, total⟩, -, -, ends⟩ := exists_ends (counts next work) (addNext next)
    (fun index current => FastRun work depth first weight bound index (power current.1) current.2)
    (work + 3)
    (fun _ holds goes => holds.step (following _ holds.run.extensible) fast shrinking shallow few
      steady (by simpa [counts] using goes))
    (fun holds => by
      simpa [counts] using holds.last (following _ holds.run.extensible) fast
        shrinking.weight_nonneg shallow few steady apart)
    (state, sum) start
  exact ⟨total, terms, early, final, ends⟩

/-- Whether the odd powers of a number can be summed: the number is small without being zero, and its
scale has room. -/
structure Expandable (x : Decimal) (reach : ℕ) : Prop where
  nonzero : x.mantissa ≠ 0
  small : |x.real| ≤ 1 / 5
  le_place : -reach ≤ x.place
  scale_le : |x.scale.toInt| ≤ 2 ^ 57

namespace Expandable

variable {x : Decimal} {reach : ℕ} (expandable : Expandable x reach)
include expandable

/-- The number is not below the power of ten at which its digits begin. -/
theorem above : 10 ^ (-(reach + 1 : ℕ) : ℤ) ≤ |x.real| := by
  have place := expandable.le_place
  refine le_trans (zpow_le_zpow_right₀ (by norm_num) ?_) (real_bounds expandable.nonzero).1
  push_cast
  omega

variable (precise : 13 ≤ work) (few : work ≤ 2 ^ 50) (close : reach ≤ 2 ^ 54)
include precise few close

/-- The square of the number makes the powers shrink. -/
theorem shrinking :
    Shrinking (2 * reach + 5) ((x.multiply x).withDigits work) (1 / 20) (1 / 15) := by
  have unit : (0 : ℝ) < 10 ^ (-(reach + 1 : ℕ) : ℤ) := zpow_pos (by norm_num) _
  have above := expandable.above
  have magnitude : |x.real * x.real| = |x.real| * |x.real| := abs_mul _ _
  have positive : 0 < x.real * x.real := by
    rw [← abs_mul_abs_self]
    exact mul_pos (unit.trans_le above) (unit.trans_le above)
  have lower : 10 ^ (-(2 * reach + 2 : ℕ) : ℤ) ≤ x.real * x.real := by
    have split : (10 : ℝ) ^ (-(2 * reach + 2 : ℕ) : ℤ) =
        10 ^ (-(reach + 1 : ℕ) : ℤ) * 10 ^ (-(reach + 1 : ℕ) : ℤ) := by
      rw [← zpow_add₀ (by norm_num)]
      congr 1
      push_cast
      ring
    rw [split, ← abs_mul_abs_self x.real]
    exact mul_le_mul above above unit.le (abs_nonneg _)
  have upper : x.real * x.real ≤ 1 / 25 := by
    rw [← abs_mul_abs_self]
    nlinarith [expandable.small, abs_nonneg x.real]
  have product : Mild (3 * (2 * reach + 2) : ℕ) (x.real * x.real) := by
    refine (mild_of_le_one (2 * reach + 2) ?_ ?_).mono (by push_cast; rfl) <;>
      rw [abs_of_pos positive]
    · exact lower
    · linarith
  have scale := expandable.scale_le
  obtain ⟨square, position⟩ := close_multiply_withDigits (x := x) (y := x) product (by omega)
    (by omega : 2 ≤ work) (by omega)
  have fine : grain work ≤ 1 / 10 ^ 11 := grain_le_pow (by omega)
  have near := square.abs_sub_le (by linarith)
  rw [abs_of_pos positive] at near
  obtain ⟨low, high⟩ := abs_le.mp near
  have part : 2 * (2 * grain work) * (x.real * x.real) ≤ 1 / 10 * (x.real * x.real) := by
    gcongr
    linarith
  refine ⟨?_, by nlinarith, position.trans (by push_cast; omega), by norm_num, by norm_num,
    by norm_num⟩
  calc (10 : ℝ) ^ (-(2 * reach + 5 : ℕ) : ℤ)
    _ ≤ 10 ^ (-1 + -(2 * reach + 2 : ℕ) : ℤ) :=
      zpow_le_zpow_right₀ (by norm_num) (by push_cast; omega)
    _ = 1 / 10 * 10 ^ (-(2 * reach + 2 : ℕ) : ℤ) := by
      rw [zpow_add₀ (by norm_num)]
      norm_num
    _ ≤ ((x.multiply x).withDigits work).real := by linarith

/-- The number itself is the first power and the first sum. -/
theorem start : FastRun work (2 * reach + 5) x.real (1 / 15) (|x.real| / 15) 0 (x, 1) x ∧
    Steady (2 * reach + 5) x.real (|x.real| / 15) := by
  have above := expandable.above
  have small := expandable.small
  have scale := expandable.scale_le
  have lower (exponent : ℤ) (below : exponent ≤ -(reach + 1 : ℕ)) : (10 : ℝ) ^ exponent ≤ |x.real| :=
    (zpow_le_zpow_right₀ (by norm_num) below).trans above
  have deep : (10 : ℝ) ^ (2 - (2 * reach + 5 : ℕ) : ℤ) ≤ 1 / 10 * |x.real| := by
    have split : (2 - (2 * reach + 5 : ℕ) : ℤ) = -1 + (-(2 * reach + 2 : ℕ) : ℤ) := by
      push_cast
      ring
    rw [split, zpow_add₀ (by norm_num)]
    have further := lower (-(2 * reach + 2 : ℕ)) (by push_cast; omega)
    norm_num at further ⊢
    linarith
  have magnitude := abs_nonneg x.real
  refine ⟨⟨⟨⟨rfl, lower _ (by push_cast; omega), by linarith, scale.trans (by norm_num)⟩, ?_,
    by omega⟩, by simp⟩, ?_, ?_⟩
  · rw [sub_self, abs_zero, zero_add, one_div_mul_eq_div]
  · linarith
  · linarith

/-- The series of the logarithm and of the arc tangent for the number end. -/
theorem sums :
    (∃ total, SumsTo (oddPowerTerm ((x.multiply x).withDigits work) work) work (work + 3) (x, 1) x
      total) ∧
    ∃ total, SumsTo (arcTangentTerm ((x.multiply x).withDigits work) work) work (work + 3)
      ((x, 1), true) x total := by
  have shrinking := expandable.shrinking precise few close
  obtain ⟨start, steady⟩ := expandable.start precise few close
  have shallow : 2 * reach + 5 ≤ 2 ^ 56 := by omega
  have apart : 2 * (|x.real| / 15) ≤ |x.real| := by linarith [abs_nonneg x.real]
  exact ⟨exists_sum_of_shrinking id
      (fun _ extensible => nextTerm_oddPowerTerm shrinking shallow precise few extensible)
      shrinking (by norm_num) shallow few steady apart start,
    exists_sum_of_shrinking Prod.fst
      (nextTerm_arcTangentTerm shrinking shallow precise few)
      shrinking (by norm_num) shallow few steady apart start⟩

end Expandable

end Calculator.Decimal
