import Calculator.Proofs.Number.HalfTurn
import Calculator.Proofs.Number.Logarithm
import Calculator.Proofs.Number.Projection
import Mathlib

/-!
# Argument reductions

The logarithm takes square roots until its argument is near one, and the arc tangent takes the
reciprocal of an argument beyond one and halves the angle until its tangent is small. Neither counts
its rounds. Every root halves the logarithm and every halving about halves the tangent, whatever is
lost by rounding, so that a few rounds are enough for all arguments and precisions; the series that
follow shrink fast and end after about as many terms as there are digits.

A square root of a number that is not evenly scaled is too large by the square root of ten. The first
root may be such a one, which costs one root more; if the working digits are such that every root is
one, the roots do not end.
-/

namespace Calculator.Decimal

variable {x m : Decimal} {work : ℕ}

/-! ## Roots -/

/-- The root of a number with one digit before the point is from one to ten, even if its scale is not
the right one. -/
theorem squareRoot_between (positive : 0 < m.mantissa) (plural : m.rational ≠ 1)
    (place : m.place = 1) :
    1 ≤ m.squareRoot.rational ∧ m.squareRoot.rational ≤ 10 ∧ m.squareRoot.scale.toInt = 99 := by
  obtain ⟨large, small⟩ := rounded_wholeRoot_bounds positive
  have rootScale : m.rootScale = 99 := by rw [rootScale, place]; rfl
  have word : (Int64.ofInt m.rootScale).toInt = 99 := by
    rw [toInt_rootScale (by rw [place]; norm_num), rootScale]
  have large : (10 : ℚ) ^ 99 ≤ (roundHalfEven m.wholeRoot 100).1 := by exact_mod_cast large
  have small : ((roundHalfEven m.wholeRoot 100).1 : ℚ) ≤ 10 ^ 100 := by exact_mod_cast small
  have value : m.squareRoot.rational = (roundHalfEven m.wholeRoot 100).1 * (10 ^ 99)⁻¹ := by
    rw [squareRoot_eq positive plural, rational, word, zpow_neg, Int.cast_natCast]
    rfl
  refine ⟨?_, ?_, by rw [squareRoot_eq positive plural]; exact word⟩ <;>
    rw [value, ← div_eq_mul_inv]
  · rwa [le_div_iff₀ (by positivity), one_mul]
  · rw [div_le_iff₀ (by positivity)]
    linarith

/-- Taking so many digits of a number from one to ten does not take it out of this range. -/
theorem withDigits_between (above : 1 ≤ x.rational) (below : x.rational ≤ 10)
    (lower : -2 ^ 63 ≤ work - x.place) (upper : work - x.place < 2 ^ 63) (coarse : x.place ≤ work) :
    1 ≤ (x.withDigits work).rational ∧ (x.withDigits work).rational ≤ 10 := by
  unfold place at lower upper coarse
  have exact : (x.withDigits work).rational = x.rounded work :=
    rational_withDigits (by omega) (by omega)
  have one : (x.digits : ℤ) - work - x.scale.toInt ≤ 0 := by omega
  have ten : (x.digits : ℤ) - work - x.scale.toInt ≤ 1 := by omega
  rw [exact]
  have low := (rounded_power one).1
  have high := (rounded_power ten).2.1
  rw [zpow_zero] at low
  rw [zpow_one] at high
  exact ⟨low above, high below⟩

/-- The first root is a number whose roots can be taken. -/
theorem rooted_firstRoot (positive : 0 < m.mantissa) (plural : m.rational ≠ 1) (place : m.place = 1)
    (precise : 2 ≤ work) (few : work ≤ 2 ^ 50) (suitable : work ≤ 210 ∨ Even work) :
    Rooted (nextRoot work m) := by
  obtain ⟨above, below, scale⟩ := squareRoot_between positive plural place
  obtain ⟨short, -⟩ := digits_squareRoot_le positive plural
  have written := m.squareRoot.one_le_digits
  have position : m.squareRoot.place = m.squareRoot.digits - 99 := by rw [Decimal.place, scale]
  obtain ⟨low, high⟩ : 1 ≤ (nextRoot work m).rational ∧ (nextRoot work m).rational ≤ 10 :=
    withDigits_between above below (by omega) (by omega) (by omega)
  have scaleToo := toInt_scale_withDigits (x := m.squareRoot) work (by omega) (by omega)
  refine ⟨?_, ?_, evenlyScaled_nextRoot positive plural (by omega) suitable, ?_⟩
  · rw [real]
    exact_mod_cast low
  · rw [real]
    exact_mod_cast high
  · rw [nextRoot, scaleToo]
    exact abs_le.mpr ⟨by omega, by omega⟩

/-- The roots of a number from one to ten end: after five if the scale is the right one, and else after
six. -/
theorem roots_end (above : 1 ≤ m.real) (below : m.real ≤ 10) (scale : |m.scale.toInt| ≤ 2 ^ 51)
    (place : m.place = 1 ∨ m.EvenlyScaled) (precise : 16 ≤ work) (few : work ≤ 2 ^ 50)
    (suitable : work ≤ 210 ∨ Even work) :
    ∃ roots near, Ends isFar (nextRoot work) m roots near ∧ roots ≤ 6 ∧
      (m.EvenlyScaled → roots ≤ 5) ∧ 1 ≤ near.real ∧ near.real ≤ 11 / 10 ∧
      |near.scale.toInt| ≤ 2 ^ 51 := by
  have ending {m : Decimal} (rooted : Rooted m) :
      ∃ roots ≤ 5, ∃ near, Ends isFar (nextRoot work) m roots near ∧ 1 ≤ near.real ∧
        near.real ≤ 11 / 10 ∧ |near.scale.toInt| ≤ 2 ^ 51 := by
    have logarithm := Real.log_le_log (by linarith [rooted.above]) rooted.below
    obtain ⟨roots, fewer, near, ends, ready, close, -⟩ := approachOne_ends 5 rooted precise few
      suitable (by linarith [log_ten_le, grain_pos (min work 99)])
    exact ⟨roots, fewer, near, ends, ready.above, close, ready.scale_le⟩
  by_cases even : m.EvenlyScaled
  · obtain ⟨roots, fewer, near, ends, done⟩ := ending ⟨above, below, even, scale⟩
    exact ⟨roots, near, ends, by omega, fun _ => fewer, done⟩
  · rcases le_or_gt m.real (11 / 10) with near | far
    · exact ⟨0, m, .done (isFar_of_le above near), by omega, fun _ => by omega, above, near, scale⟩
    · have positive : 0 < m.mantissa := m.real_pos_iff.mp (by linarith)
      have plural : m.rational ≠ 1 := fun single => by linarith [(real_eq_one_iff m).mpr single]
      obtain ⟨roots, fewer, near, ends, done⟩ := ending
        (rooted_firstRoot positive plural (place.resolve_right even) (by omega) few suitable)
      exact ⟨roots + 1, near, .again (isFar_of_lt far) ends, by omega,
        fun other => absurd other even, done⟩

/-! ## The series of the logarithm -/

/-- The quotient of which a number near one is twice the area tangent can be expanded. -/
theorem expandable_ratio (above : 1 < m.real) (below : m.real ≤ 11 / 10)
    (scale : |m.scale.toInt| ≤ 2 ^ 51) (precise : 13 ≤ work) (few : work ≤ 2 ^ 50) :
    Expandable (((m.subtract one).divide (m.add one)).withDigits work) (2 ^ 53 + 2) := by
  obtain ⟨close, position⟩ := close_ratio above below scale (by omega : 2 ≤ work) few
  have fine : grain (min work 100) ≤ 1 / 10 ^ 11 := grain_le_pow (by omega)
  have positive : 0 < (m.real - 1) / (m.real + 1) := div_pos (by linarith) (by linarith)
  have small : (m.real - 1) / (m.real + 1) ≤ 1 / 20 := by
    rw [div_le_iff₀ (by linarith)]
    linarith
  have mild := ((mild_ratio above below scale).of_close close).mono
    (show _ ≤ ((2 ^ 53 + 1 : ℕ) : ℝ) by push_cast; linarith)
  have size := close.abs_le (by linarith)
  have place := abs_le.mp (abs_place_le mild)
  rw [abs_of_pos positive] at size
  exact ⟨(real_eq_zero_iff _).not.mp mild.1, by linarith, by push_cast at place ⊢; omega,
    position.trans (by omega)⟩

/-- The quotient of which a number near one is twice the area tangent. -/
def ratio (work : ℕ) (m : Decimal) : Decimal := ((m.subtract one).divide (m.add one)).withDigits work

/-- Whether the series for a number ends after at most three terms more than there are digits, and with
which sum. -/
def LogarithmSums (m : Decimal) (work : ℕ) (total : Decimal) : Prop :=
  SumsTo (oddPowerTerm (((ratio work m).multiply (ratio work m)).withDigits work) work) work (work + 3)
    (ratio work m, 1) (ratio work m) total

/-- The series ends for every number from one to a tenth more. -/
theorem logarithm_sums (above : 1 ≤ m.real) (below : m.real ≤ 11 / 10)
    (scale : |m.scale.toInt| ≤ 2 ^ 51) (precise : 13 ≤ work) (few : work ≤ 2 ^ 50) :
    ∃ total, LogarithmSums m work total := by
  rcases above.eq_or_lt with single | more
  · have zero : (m.subtract one).mantissa = 0 := by
      rw [← real_eq_zero_iff, real_subtract, real_one, ← single, sub_self]
    have start : (ratio work m).mantissa = 0 := by
      rw [ratio, divide_of_zero zero]
      exact mantissa_withDigits_of_zero zero (by omega)
    exact ⟨_, 0, Nat.zero_le _, _, ends_of_zero start _ (by omega)⟩
  · exact ((expandable_ratio more below scale precise few).sums precise few (by norm_num)).1

/-- The sum is half of what is computed if so many terms are allowed. -/
theorem LogarithmSums.eq {total : Decimal} (sums : LogarithmSums m work total)
    (room : work + 3 ≤ seriesTerms) : logarithmNearOne m work = total.multiply (ofNat 2) :=
  congrArg (multiply · (ofNat 2)) (SumsTo.eq sums room)

/-- Whether the reduction of a number ends after at most so many roots, and the series for what is left
ends too; what is computed is then the sum of the series, doubled and then doubled for every root. -/
def LogarithmEnds (m : Decimal) (work most : ℕ) : Prop :=
  ∃ roots ≤ most, ∃ near, Ends isFar (nextRoot (work + 4)) m roots near ∧
    ∃ total, LogarithmSums near (work + 4) total ∧
      (work + 7 ≤ seriesTerms →
        reducedLogarithm m work = (total.multiply (ofNat 2)).multiply (ofNat (twoTo roots)))

/-- The reduction of a number from one to ten ends. -/
theorem logarithm_ends (above : 1 ≤ m.real) (below : m.real ≤ 10)
    (scale : |m.scale.toInt| ≤ 2 ^ 51) (place : m.place = 1 ∨ m.EvenlyScaled) (precise : 12 ≤ work)
    (few : work ≤ 2 ^ 49) (suitable : work + 4 ≤ 210 ∨ Even (work + 4)) :
    LogarithmEnds m work 6 ∧ (m.EvenlyScaled → LogarithmEnds m work 5) := by
  obtain ⟨roots, near, ends, most, fewer, above, below, room⟩ :=
    roots_end above below scale place (by omega : 16 ≤ work + 4) (by omega) suitable
  obtain ⟨total, sums⟩ := logarithm_sums above below room (by omega : 13 ≤ work + 4) (by omega)
  have result (enough : work + 7 ≤ seriesTerms) :
      reducedLogarithm m work = (total.multiply (ofNat 2)).multiply (ofNat (twoTo roots)) := by
    rw [reducedLogarithm, approachOne_of_ends ends (most.trans (by decide)), Nat.zero_add]
    exact congrArg (multiply · (ofNat (twoTo roots))) (sums.eq enough)
  exact ⟨⟨roots, most, near, ends, total, sums, result⟩,
    fun even => ⟨roots, fewer even, near, ends, total, sums, result⟩⟩

/-! ## Halvings -/

/-- Whether the tangent of an angle is so large that the angle is halved. -/
def isWide (x : Decimal) : Bool := (⟨2, 1⟩ : Decimal).isLess x.absolute

/-- The tangent of half of an angle, to so many digits. -/
def halfAngle (work : ℕ) (x : Decimal) : Decimal :=
  (x.divide (one.add (one.add (x.multiply x)).squareRoot)).withDigits work

/-- An angle is halved if its tangent is beyond a fifth. -/
theorem isWide_iff (x : Decimal) : isWide x = true ↔ 1 / 5 < |x.real| := by
  rw [isWide, isLess_iff, real_fifth, real_absolute]

/-- If the halvings end, they are the ones that are made as long as enough are allowed. -/
theorem halveAngle_of_ends {reduced : Decimal} {halvings steps : ℕ}
    (ends : Ends isWide (halfAngle work) x halvings reduced) (enough : halvings ≤ steps) (count : ℕ) :
    halveAngle work steps x count = (reduced, count + halvings) := by
  induction ends generalizing steps count with
  | @done x stopped =>
    cases steps with
    | zero => rfl
    | succ steps =>
      rw [isWide] at stopped
      rw [halveAngle, if_neg (Bool.eq_false_iff.mp stopped), Nat.add_zero]
  | @again x reduced halvings on rest inductionHypothesis =>
    obtain ⟨steps, rfl⟩ : ∃ fewer, steps = fewer + 1 := ⟨steps - 1, by omega⟩
    rw [isWide] at on
    rw [halveAngle, if_pos on, Nat.add_comm halvings, ← Nat.add_assoc]
    exact inductionHypothesis (by omega) (count + 1)

/-- What a tangent is divided by when its angle is halved is from two to eleven. -/
theorem divisor_between (within : |x.real| ≤ 1) (nonzero : x.mantissa ≠ 0)
    (scale : |x.scale.toInt| ≤ 2 ^ 57) :
    2 ≤ (one.add (one.add (x.multiply x)).squareRoot).real ∧
      (one.add (one.add (x.multiply x)).squareRoot).real ≤ 11 ∧
      |(one.add (one.add (x.multiply x)).squareRoot).scale.toInt| ≤ 99 := by
  obtain ⟨product, position⟩ := real_multiply (x := x) (y := x) (by omega)
  have positive : 0 < x.real * x.real :=
    mul_self_pos.mpr ((real_eq_zero_iff x).not.mpr nonzero)
  have small : x.real * x.real ≤ 1 := by
    rw [← abs_mul_abs_self]
    exact mul_le_one₀ within (abs_nonneg _) within
  have value : (one.add (x.multiply x)).real = 1 + x.real * x.real := by
    rw [real_add, real_one, product]
  have size : |(one.add (x.multiply x)).real| = 1 + x.real * x.real := by
    rw [value, abs_of_pos (by linarith)]
  have mantissa : 0 < (one.add (x.multiply x)).mantissa := (real_pos_iff _).mp (by linarith)
  have plural : (one.add (x.multiply x)).rational ≠ 1 := by
    rw [Ne, ← real_eq_one_iff, value]
    linarith
  have left : 0 < (one.add (x.multiply x)).place := by
    refine lt_place_of_le_abs mantissa.ne' ?_
    rw [size, zpow_zero]
    linarith
  have right : (one.add (x.multiply x)).place ≤ 1 := by
    refine place_le_of_abs_lt mantissa.ne' ?_
    rw [size, zpow_one]
    linarith
  obtain ⟨above, below, scaleRoot⟩ := squareRoot_between mantissa plural (by omega)
  have above : (1 : ℝ) ≤ (one.add (x.multiply x)).squareRoot.real := by
    rw [real]
    exact_mod_cast above
  have below : (one.add (x.multiply x)).squareRoot.real ≤ 10 := by
    rw [real]
    exact_mod_cast below
  rw [real_add, real_one]
  exact ⟨by linarith, by linarith, abs_scale_add_le (by decide) (by rw [scaleRoot]; decide)⟩

/-- The quotient of such a tangent and what it is divided by. -/
theorem abs_div_between {tangent divisor : ℝ} (wide : 1 / 5 < |tangent|) (above : 2 ≤ divisor)
    (below : divisor ≤ 11) :
    1 / 55 ≤ |tangent / divisor| ∧ |tangent / divisor| ≤ |tangent| / 2 := by
  have positive : 0 < divisor := by linarith
  rw [abs_div, abs_of_pos positive]
  constructor
  · rw [le_div_iff₀ positive]
    linarith
  · exact div_le_div_of_nonneg_left (abs_nonneg _) (by norm_num) above

/-- Halving an angle about halves its tangent, or makes it smaller still, and leaves room for its
scale. -/
theorem halfAngle_bounds (wide : 1 / 5 < |x.real|) (within : |x.real| ≤ 1)
    (scale : |x.scale.toInt| ≤ 2 ^ 57) (precise : 13 ≤ work) (few : work ≤ 2 ^ 50) :
    |(halfAngle work x).real| ≤ 11 / 20 * |x.real| ∧ 1 / 110 ≤ |(halfAngle work x).real| ∧
      |(halfAngle work x).scale.toInt| ≤ 2 ^ 57 := by
  have nonzero : x.mantissa ≠ 0 := (real_eq_zero_iff x).not.mp (abs_pos.mp (by linarith))
  obtain ⟨above, below, position⟩ := divisor_between within nonzero scale
  rw [halfAngle]
  generalize one.add (one.add (x.multiply x)).squareRoot = divisor at *
  have present : divisor.mantissa ≠ 0 := (real_eq_zero_iff _).not.mp (by linarith)
  have place : divisor.place ≤ 2 := by
    refine place_le_of_abs_lt present ?_
    rw [abs_of_pos (by linarith)]
    norm_num
    linarith
  have hundred : quotientDigits = 100 := rfl
  have fits : |x.scale.toInt| + |divisor.scale.toInt| + divisor.digits + quotientDigits < 2 ^ 63 := by
    have right := (abs_le.mp position).2
    unfold Decimal.place at place
    omega
  obtain ⟨low, high⟩ := abs_div_between wide above below
  have mild : Mild (6 : ℕ) (x.real / divisor.real) :=
    (mild_of_le_one 2 (by norm_num; linarith) (by linarith)).mono (by norm_num)
  obtain ⟨close, room⟩ :=
    close_divide_withDigits_min mild present fits (by omega : 2 ≤ work) (by omega)
  have fine : grain (min work 100) ≤ 1 / 10 ^ 11 := grain_le_pow (by omega)
  have lower := close.symm.abs_le (by linarith)
  have near := close.abs_sub_le (by linarith)
  have upper := abs_sub_abs_le_abs_sub ((x.divide divisor).withDigits work).real
    (x.real / divisor.real)
  have part : 2 * (3 * grain (min work 100)) * |x.real / divisor.real| ≤
      1 / 10 * |x.real / divisor.real| := by
    gcongr
    linarith
  exact ⟨by linarith, by linarith, room.trans (by push_cast; omega)⟩

/-- What holds after so many halvings. -/
structure Halved (reach index : ℕ) (x : Decimal) : Prop where
  nonzero : x.mantissa ≠ 0
  small : |x.real| ≤ (11 / 20) ^ index
  le_place : -reach ≤ x.place
  scale_le : |x.scale.toInt| ≤ 2 ^ 57

/-- What holds is kept by a halving. -/
theorem Halved.step {reach index : ℕ} (holds : Halved reach index x) (several : 2 ≤ reach)
    (precise : 13 ≤ work) (few : work ≤ 2 ^ 50) (wide : isWide x = true) :
    Halved reach (index + 1) (halfAngle work x) := by
  obtain ⟨nonzero, small, -, scale⟩ := holds
  rw [isWide_iff] at wide
  have within : |x.real| ≤ 1 := small.trans (pow_le_one₀ (by norm_num) (by norm_num))
  obtain ⟨halved, apart, room⟩ := halfAngle_bounds wide within scale precise few
  have present : (halfAngle work x).mantissa ≠ 0 :=
    (real_eq_zero_iff _).not.mp (abs_pos.mp (by linarith))
  have thousandth : (10 : ℝ) ^ (-3 : ℤ) ≤ |(halfAngle work x).real| := by
    norm_num
    linarith
  have place := lt_place_of_le_abs present thousandth
  refine ⟨present, ?_, by omega, room⟩
  calc |(halfAngle work x).real|
    _ ≤ 11 / 20 * |x.real| := halved
    _ ≤ 11 / 20 * (11 / 20) ^ index := by gcongr
    _ = (11 / 20) ^ (index + 1) := by ring

/-- The halvings of an angle whose tangent is at most one end after three at the latest, and what is left
can be expanded. -/
theorem halvings_end {reach : ℕ} (start : Halved reach 0 x) (several : 2 ≤ reach)
    (precise : 13 ≤ work) (few : work ≤ 2 ^ 50) :
    ∃ halvings ≤ 3, ∃ reduced, Ends isWide (halfAngle work) x halvings reduced ∧
      Expandable reduced reach := by
  have last {x : Decimal} (holds : Halved reach 3 x) : isWide x = false := by
    rw [Bool.eq_false_iff, ne_eq, isWide_iff, not_lt]
    exact holds.small.trans (by norm_num)
  obtain ⟨halvings, most, reduced, holds, stopped, ends⟩ := exists_ends isWide (halfAngle work)
    (Halved reach) 3 (fun _ holds wide => holds.step several precise few wide) last x start
  rw [Bool.eq_false_iff, ne_eq, isWide_iff, not_lt] at stopped
  exact ⟨halvings, most, reduced, ends, holds.nonzero, stopped, holds.le_place, holds.scale_le⟩

/-! ## Reciprocals -/

/-- The reciprocal that is taken of a tangent beyond one. -/
def reciprocal (work : ℕ) (x : Decimal) : Decimal := (one.divide x).withDigits work

/-- A decimal is beyond one if its magnitude is. -/
theorem isOver_iff (x : Decimal) : one.isLess x.absolute = true ↔ 1 < |x.real| := by
  rw [isLess_iff, real_one, real_absolute]

/-- The quotient of one and a number beyond one is rounded to no more than one. -/
theorem abs_divide_le_one (beyond : 1 ≤ |x.rational|) (lower : -2 ^ 63 ≤ -x.scale.toInt)
    (upper : x.digits + quotientDigits - x.scale.toInt < 2 ^ 63) :
    |(one.divide x).rational| ≤ 1 := by
  have nonzero : x.mantissa ≠ 0 := (rational_eq_zero_iff x).not.mp (abs_pos.mp (by linarith))
  have plain : one.scale.toInt = 0 := rfl
  have unit : one.rational = 1 := rational_one
  have small : |one.rational / x.rational| ≤ 1 := by
    rw [unit, abs_div, abs_one]
    exact div_le_one_of_le₀ beyond (abs_nonneg _)
  obtain ⟨low, high⟩ := abs_le.mp small
  rcases rational_divide_of_fits (x := one) (y := x) (by omega) (by omega) nonzero with exact | rounds
  · rwa [exact]
  · have short : Short ((1 : ℤ) : ℚ) := short_intCast (by norm_num)
    have opposite := short.neg
    rw [Int.cast_one] at short opposite
    exact abs_le.mpr ⟨rounds.ge_of_ge opposite low, rounds.le_of_le short high⟩

/-- Taking so many digits of a number does not make it larger than one. -/
theorem abs_withDigits_le_one (within : |x.rational| ≤ 1) (lower : -2 ^ 63 ≤ work - x.place)
    (upper : work - x.place < 2 ^ 63) (coarse : x.place ≤ work) :
    |(x.withDigits work).rational| ≤ 1 := by
  unfold place at lower upper coarse
  have exact : (x.withDigits work).rational = x.rounded work :=
    rational_withDigits (by omega) (by omega)
  have unit : (x.digits : ℤ) - work - x.scale.toInt ≤ 0 := by omega
  obtain ⟨low, high⟩ := abs_le.mp within
  obtain ⟨-, below, above, -⟩ := rounded_power unit
  rw [zpow_zero] at below above
  rw [exact]
  exact abs_le.mpr ⟨above low, below high⟩

/-- The size of the reciprocal of a number beyond one. -/
theorem mild_reciprocal {reach : ℕ} (beyond : 1 < |x.real|) (place : x.place ≤ reach) :
    Mild (3 * reach : ℕ) (one.real / x.real) := by
  have nonzero : x.mantissa ≠ 0 := (real_eq_zero_iff x).not.mp (abs_pos.mp (by linarith))
  have magnitude : |one.real / x.real| = |x.real|⁻¹ := by
    rw [real_one, abs_div, abs_one, one_div]
  refine (mild_of_le_one reach ?_ ?_).mono (by push_cast; rfl) <;> rw [magnitude]
  · rw [zpow_neg]
    refine inv_anti₀ (by linarith) ((real_bounds nonzero).2.le.trans ?_)
    exact zpow_le_zpow_right₀ (by norm_num) place
  · exact inv_le_one_of_one_le₀ beyond.le

/-- The reciprocal of a number beyond one is not beyond one, also after it is rounded. -/
theorem abs_reciprocal_le_one {reach : ℕ} (beyond : 1 < |x.real|)
    (fits : |one.scale.toInt| + |x.scale.toInt| + x.digits + quotientDigits < 2 ^ 63)
    (place : x.place ≤ reach) (near : reach ≤ 2 ^ 52) (precise : 2 ≤ work) (few : work ≤ 2 ^ 50) :
    |(reciprocal work x).real| ≤ 1 := by
  have nonzero : x.mantissa ≠ 0 := (real_eq_zero_iff x).not.mp (abs_pos.mp (by linarith))
  have unit : grain 100 ≤ 1 / 10 ^ 0 := grain_le_pow (by norm_num)
  have sized : Mild ((3 * reach + 1 : ℕ) : ℝ) (one.divide x).real :=
    ((mild_reciprocal beyond place).of_close (close_divide nonzero fits)).mono
      (by push_cast; linarith)
  have large : 1 ≤ |x.rational| := by
    rw [real] at beyond
    exact_mod_cast beyond.le
  have plain : |one.scale.toInt| = 0 := rfl
  obtain ⟨low, high⟩ := abs_le.mp (le_refl |x.scale.toInt|)
  have small : |(one.divide x).rational| ≤ 1 := abs_divide_le_one large (by omega) (by omega)
  have coarse : (one.divide x).place ≤ 1 := by
    refine place_le_of_abs_lt ((real_eq_zero_iff _).not.mp sized.1) ?_
    rw [real, zpow_one]
    have below : |(one.divide x).rational| < 10 := by linarith
    exact_mod_cast below
  obtain ⟨far, -⟩ := abs_le.mp (abs_place_le sized)
  have within : |(reciprocal work x).rational| ≤ 1 :=
    abs_withDigits_le_one small (by omega) (by omega) (by omega)
  rw [real]
  exact_mod_cast within

/-- The reciprocal of a number beyond one can be halved. -/
theorem halved_reciprocal {reach : ℕ} (beyond : 1 < |x.real|) (stored : x.digits ≤ 2 ^ 50)
    (place : |x.place| ≤ reach) (near : reach ≤ 2 ^ 52) (precise : 2 ≤ work) (few : work ≤ 2 ^ 50) :
    Halved (3 * reach + 2) 0 (reciprocal work x) := by
  have nonzero : x.mantissa ≠ 0 := (real_eq_zero_iff x).not.mp (abs_pos.mp (by linarith))
  obtain ⟨low, high⟩ := abs_le.mp place
  have scale : |x.scale.toInt| ≤ 2 ^ 53 := by
    unfold Decimal.place at low high
    exact abs_le.mpr ⟨by omega, by omega⟩
  have hundred : quotientDigits = 100 := rfl
  have fits : |one.scale.toInt| + |x.scale.toInt| + x.digits + quotientDigits < 2 ^ 63 := by
    have plain : |one.scale.toInt| = 0 := rfl
    omega
  obtain ⟨close, room⟩ := close_divide_withDigits_min (mild_reciprocal beyond high) nonzero fits
    precise (by omega)
  have fine : grain (min work 100) ≤ 1 / 10 ^ 1 := grain_le_pow (by omega)
  have sized : Mild ((3 * reach + 1 : ℕ) : ℝ) (reciprocal work x).real :=
    ((mild_reciprocal beyond high).of_close close).mono (by push_cast; linarith)
  refine ⟨(real_eq_zero_iff _).not.mp sized.1, ?_, ?_, room.trans (by omega)⟩
  · rw [pow_zero]
    exact abs_reciprocal_le_one beyond fits high near precise few
  · have last := (abs_le.mp (abs_place_le sized)).1
    push_cast at last ⊢
    omega

/-! ## The series of the arc tangent -/

/-- Whether the arc tangent series for a number ends after at most three terms more than there are digits,
and with which sum. -/
def ArcTangentSums (x : Decimal) (work : ℕ) (total : Decimal) : Prop :=
  SumsTo (arcTangentTerm ((x.multiply x).withDigits work) work) work (work + 3) ((x, 1), true) x total

/-- The sum is what is computed if so many terms are allowed. -/
theorem ArcTangentSums.eq {total : Decimal} (sums : ArcTangentSums x work total)
    (room : work + 3 ≤ seriesTerms) : arcTangentSeries x work = total :=
  SumsTo.eq sums room

/-- Whether the two series for half a turn end; what is computed is then made of their sums. -/
def HalfTurnEnds (digits : ℕ) : Prop :=
  ∃ large small, ArcTangentSums ⟨2, 1⟩ (digits + 6) large ∧
    ArcTangentSums ((one.divide (ofNat 239)).withDigits (digits + 6)) (digits + 6) small ∧
    (digits + 9 ≤ seriesTerms → halfTurn digits =
      ((large.multiply (ofNat 16)).subtract (small.multiply (ofNat 4))).withDigits digits)

/-- The series for half a turn end. -/
theorem halfTurn_ends {digits : ℕ} (precise : 7 ≤ digits) (few : digits ≤ 2 ^ 49) :
    HalfTurnEnds digits := by
  have first : Expandable ⟨2, 1⟩ 2 :=
    ⟨by decide, by rw [real_fifth, abs_of_pos (by norm_num)], by decide +kernel, by decide⟩
  obtain ⟨near, scale⟩ := small_close (by omega : 13 ≤ digits + 6) (by omega)
  obtain ⟨low, high⟩ := abs_le.mp near
  have positive : 0 < ((one.divide (ofNat 239)).withDigits (digits + 6)).real := by
    norm_num at low
    linarith
  have nonzero := (real_eq_zero_iff _).not.mp positive.ne'
  have place : -3 < ((one.divide (ofNat 239)).withDigits (digits + 6)).place := by
    refine lt_place_of_le_abs nonzero ?_
    rw [abs_of_pos positive]
    norm_num at low ⊢
    linarith
  have second : Expandable ((one.divide (ofNat 239)).withDigits (digits + 6)) 2 := by
    refine ⟨nonzero, ?_, by push_cast; omega, scale⟩
    rw [abs_of_pos positive]
    norm_num at high
    linarith
  obtain ⟨large, largeSums⟩ := (first.sums (by omega : 13 ≤ digits + 6) (by omega) (by norm_num)).2
  obtain ⟨small, smallSums⟩ := (second.sums (by omega : 13 ≤ digits + 6) (by omega) (by norm_num)).2
  refine ⟨large, small, largeSums, smallSums, fun room => ?_⟩
  rw [halfTurn, ArcTangentSums.eq largeSums room, ArcTangentSums.eq smallSums room]

/-- Whether the halvings for a number end after at most three, and the series for what is left ends too;
what is computed is then the sum of the series, doubled for every halving. -/
def TangentEnds (x : Decimal) (digits : ℕ) : Prop :=
  ∃ halvings ≤ 3, ∃ reduced, Ends isWide (halfAngle (digits + 6)) x halvings reduced ∧
    ∃ total, ArcTangentSums reduced (digits + 6) total ∧
      (digits + 9 ≤ seriesTerms → arcTangentWithin x digits =
        (total.multiply (ofNat (twoTo halvings))).withDigits digits)

/-- The halvings for a number that can be halved end, and so does the series. -/
theorem tangent_ends {reach digits : ℕ} (start : Halved reach 0 x) (several : 2 ≤ reach)
    (close : reach ≤ 2 ^ 54) (precise : 7 ≤ digits) (few : digits ≤ 2 ^ 49) : TangentEnds x digits := by
  obtain ⟨halvings, most, reduced, ends, expandable⟩ :=
    halvings_end start several (by omega : 13 ≤ digits + 6) (by omega)
  obtain ⟨total, sums⟩ := (expandable.sums (by omega : 13 ≤ digits + 6) (by omega) close).2
  refine ⟨halvings, most, reduced, ends, total, sums, fun room => ?_⟩
  have present : ¬ x.isZero = true := by simpa [isZero] using start.nonzero
  rw [arcTangentWithin, if_neg present]
  dsimp only
  rw [halveAngle_of_ends ends (most.trans (by decide)), Nat.zero_add, ArcTangentSums.eq sums room]

/-- No reciprocal is taken of a number that is not beyond one. -/
theorem arcTangentOver_within (within : one.isLess x.absolute = false) (reciprocals digits : ℕ) :
    arcTangentOver reciprocals x digits = arcTangentWithin x digits := by
  cases reciprocals with
  | zero => rfl
  | succ reciprocals => rw [arcTangentOver, if_neg (Bool.eq_false_iff.mp within)]

/-! ## All arguments -/

/-- Whether the computation of the logarithm ends: at most six roots are taken of the significand, at
most five if its scale is the right one and of ten, and the series that follow end. -/
structure LogarithmReduces (x : Decimal) (digits : ℕ) : Prop where
  answers : ∃ result, naturalLogarithm x digits = .ok result
  six : LogarithmEnds x.significand (digits + 6) 6
  five : x.EvenlyScaled → LogarithmEnds x.significand (digits + 6) 5
  ten : LogarithmEnds (ofNat 10) (digits + 6) 5

/-- Whether the computation of the arc tangent ends: no reciprocal is taken of the reciprocal of a number
beyond one, so that one is as good as any number of them; the angle of a number not beyond one is halved
at most three times, and the series end. -/
structure ArcTangentReduces (x : Decimal) (digits : ℕ) : Prop where
  within : one.isLess x.absolute = false → x.mantissa ≠ 0 → TangentEnds x digits
  beyond : one.isLess x.absolute = true →
    one.isLess (reciprocal (digits + 6) x).absolute = false ∧
      TangentEnds (reciprocal (digits + 6) x) (digits + 6) ∧ HalfTurnEnds (digits + 6)
  once : ∀ reciprocals, arcTangentOver (reciprocals + 1) x digits = arcTangentOver 1 x digits

/-- The computation of the logarithm of a positive number ends, if the working digits are such that roots
of them come with the right scale. -/
theorem logarithm_reduces {digits : ℕ} (positive : 0 < x.mantissa) (stored : x.digits ≤ 2 ^ 50)
    (precise : 7 ≤ digits) (few : digits ≤ 2 ^ 48) (suitable : digits ≤ 200 ∨ Even digits) :
    x.LogarithmReduces digits := by
  have suitable : digits + 6 + 4 ≤ 210 ∨ Even (digits + 6 + 4) := by
    refine suitable.imp (by omega) fun even => ?_
    rw [Nat.even_iff] at even ⊢
    omega
  obtain ⟨above, below, place, scale⟩ := significand_bounds positive stored
  obtain ⟨six, five⟩ := logarithm_ends above below scale (.inl place) (by omega : 12 ≤ digits + 6)
    (by omega) suitable
  have ten := (logarithm_ends rooted_ten.above rooted_ten.below rooted_ten.scale_le
    (.inr rooted_ten.even) (by omega : 12 ≤ digits + 6) (by omega) suitable).2 rooted_ten.even
  refine ⟨?_, six, five, ten⟩
  rw [naturalLogarithm, if_neg (by simpa [isPositive] using positive)]
  split_ifs
  · exact ⟨_, rfl⟩
  · exact ⟨_, rfl⟩

/-- The computation of the arc tangent ends. -/
theorem arcTangent_reduces {digits : ℕ} (stored : x.digits ≤ 2 ^ 50) (place : |x.place| ≤ 2 ^ 52)
    (precise : 7 ≤ digits) (few : digits ≤ 2 ^ 48) : x.ArcTangentReduces digits := by
  have reaches : |x.place| ≤ ((2 ^ 52 : ℕ) : ℤ) := by exact_mod_cast place
  have inverse (beyond : one.isLess x.absolute = true) :
      Halved (3 * 2 ^ 52 + 2) 0 (reciprocal (digits + 6) x) :=
    halved_reciprocal ((isOver_iff x).mp beyond) stored reaches le_rfl (by omega) (by omega)
  have single (beyond : one.isLess x.absolute = true) :
      one.isLess (reciprocal (digits + 6) x).absolute = false := by
    rw [Bool.eq_false_iff, ne_eq, isOver_iff, not_lt]
    exact (inverse beyond).small.trans_eq (pow_zero _)
  refine ⟨fun within nonzero => ?_, fun beyond => ⟨single beyond, ?_, ?_⟩, fun reciprocals => ?_⟩
  · rw [Bool.eq_false_iff, ne_eq, isOver_iff, not_lt] at within
    obtain ⟨low, high⟩ := abs_le.mp place
    have scale : |x.scale.toInt| ≤ 2 ^ 57 := by
      unfold Decimal.place at low high
      exact abs_le.mpr ⟨by omega, by omega⟩
    have start : Halved (2 ^ 52) 0 x :=
      ⟨nonzero, within.trans_eq (pow_zero _).symm, by exact_mod_cast low, scale⟩
    exact tangent_ends start (by norm_num) (by norm_num) precise (by omega)
  · exact tangent_ends (inverse beyond) (by norm_num) (by norm_num) (by omega) (by omega)
  · exact halfTurn_ends (by omega) (by omega)
  · cases goal : one.isLess x.absolute with
    | false => rw [arcTangentOver_within goal, arcTangentOver_within goal]
    | true =>
      have inner := arcTangentOver_within (single goal)
      unfold reciprocal at inner
      rw [arcTangentOver, arcTangentOver]
      dsimp only
      rw [inner, inner]

/-- A loop that goes on from a state to the same state does not end. -/
theorem not_ends_of_fixed {State : Type} {goes : State → Bool} {round : State → State}
    {state final : State} {rounds : ℕ} (on : goes state = true) (fixed : round state = state) :
    ¬ Ends goes round state rounds final := by
  induction rounds with
  | zero =>
    intro ends
    cases ends with
    | done stopped => exact Bool.eq_false_iff.mp stopped on
  | succ rounds inductionHypothesis =>
    intro ends
    cases ends with
    | again _ rest =>
      rw [fixed] at rest
      exact inductionHypothesis rest

end Calculator.Decimal
