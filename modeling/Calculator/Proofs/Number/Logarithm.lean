import Calculator.Proofs.Number.AreaTangent
import Calculator.Proofs.Number.SquareRoot
import Mathlib

/-!
# The logarithm of decimals

A positive decimal is split into a mantissa from one to ten and a power of ten. Square roots bring the
mantissa, and ten itself, to the place where the series converges quickly; every root halves the
logarithm, and what the roundings add to it halves as well. The two logarithms are close to the exact
ones, so their sum is close to the logarithm from one upward, where both are not negative. Below one
they cancel, and what is left of the sum is only as close as the larger of the two was.
-/

namespace Calculator.Decimal

variable {x y m : Decimal}

/-! ## Roots -/

/-- A number from one to ten whose roots can be taken. -/
structure Rooted (m : Decimal) : Prop where
  above : 1 ≤ m.real
  below : m.real ≤ 10
  even : m.EvenlyScaled
  scale_le : |m.scale.toInt| ≤ 2 ^ 51

namespace Rooted

/-- The mantissa is positive. -/
theorem mantissa_pos (rooted : Rooted m) : 0 < m.mantissa :=
  m.real_pos_iff.mp (by linarith [rooted.above])

/-- The number has one digit before the point, or it is ten. -/
theorem place_bounds (rooted : Rooted m) : 1 ≤ m.place ∧ m.place ≤ 2 := by
  have above := rooted.above
  have below := rooted.below
  have nonzero := rooted.mantissa_pos.ne'
  have size : |m.real| = m.real := abs_of_pos (by linarith)
  have left := lt_place_of_le_abs nonzero (show (10 : ℝ) ^ (0 : ℤ) ≤ |m.real| by
    rw [size, zpow_zero]
    exact above)
  have right := place_le_of_abs_lt nonzero (show |m.real| < 10 ^ (2 : ℤ) by
    rw [size]
    norm_num
    linarith)
  omega

/-- The root of the number is not large. -/
theorem mild_sqrt (rooted : Rooted m) : Mild 3 √m.real := by
  have low : 1 ≤ √m.real := Real.one_le_sqrt.mpr rooted.above
  have high : √m.real ≤ 4 := Real.sqrt_le_iff.mpr ⟨by norm_num, by linarith [rooted.below]⟩
  refine ⟨by linarith, ?_⟩
  rw [abs_of_nonneg (Real.log_nonneg low)]
  linarith [Real.log_le_sub_one_of_pos (show 0 < √m.real by linarith)]

end Rooted

section Roots

variable {work : ℕ}

/-- Whether a number is further from one than a tenth. -/
theorem tenth_isLess_iff (m : Decimal) :
    (⟨1, 1⟩ : Decimal).isLess (m.subtract one).absolute = true ↔ 1 / 10 < |m.real - 1| := by
  have tenth : (⟨1, 1⟩ : Decimal).real = 1 / 10 := by
    have scale : (1 : Int64).toInt = 1 := rfl
    rw [real, rational, scale]
    norm_num
  rw [isLess_iff, tenth, real_absolute, real_subtract, real_one]

/-- Whether a number is so far from one that its root is taken. -/
def isFar (m : Decimal) : Bool := (⟨1, 1⟩ : Decimal).isLess (m.subtract one).absolute

/-- The root that is taken, to so many digits. -/
def nextRoot (work : ℕ) (m : Decimal) : Decimal := m.squareRoot.withDigits work

/-- If the roots end, they are the ones that are taken as long as enough are allowed. -/
theorem approachOne_of_ends {near : Decimal} {roots steps : ℕ}
    (ends : Ends isFar (nextRoot work) m roots near) (enough : roots ≤ steps) (count : ℕ) :
    approachOne work steps m count = (near, count + roots) := by
  induction ends generalizing steps count with
  | @done m stopped =>
    cases steps with
    | zero => rfl
    | succ steps =>
      rw [isFar] at stopped
      rw [approachOne, if_neg (Bool.eq_false_iff.mp stopped), Nat.add_zero]
  | @again m near roots on rest inductionHypothesis =>
    obtain ⟨steps, rfl⟩ : ∃ fewer, steps = fewer + 1 := ⟨steps - 1, by omega⟩
    rw [isFar] at on
    rw [approachOne, if_pos on, Nat.add_comm roots, ← Nat.add_assoc]
    exact inductionHypothesis (by omega) (count + 1)

/-- No root of a number up to a tenth above one is taken. -/
theorem isFar_of_le (above : 1 ≤ m.real) (near : m.real ≤ 11 / 10) : isFar m = false := by
  rw [isFar, Bool.eq_false_iff, ne_eq, tenth_isLess_iff, abs_of_nonneg (by linarith)]
  linarith

/-- The root of a larger number is taken. -/
theorem isFar_of_lt (far : 11 / 10 < m.real) : isFar m = true := by
  rw [isFar, tenth_isLess_iff, abs_of_nonneg (by linarith)]
  linarith

/-- The root of a number other than one has an even scale when it is taken to a suitable number of
digits: to no more than the square root asks for, or to an even number. -/
theorem evenlyScaled_nextRoot (positive : 0 < m.mantissa) (plural : m.rational ≠ 1)
    (several : 0 < work) (suitable : work ≤ 210 ∨ Even work) : (nextRoot work m).EvenlyScaled := by
  obtain ⟨short, nonzero⟩ := digits_squareRoot_le positive plural
  rcases Nat.lt_or_ge work 210 with few | many
  · have written := digits_withDigits_le (x := m.squareRoot) several
    exact .inl (by rw [nextRoot]; omega)
  · have exact : (nextRoot work m).digits = work :=
      digits_withDigits_of_le nonzero (short.trans (by omega))
    rw [EvenlyScaled, exact]
    exact suitable

/-- A root halves the logarithm and is a number whose roots can be taken. -/
theorem rooted_nextRoot (rooted : Rooted m) (far : 11 / 10 < m.real) (precise : 16 ≤ work)
    (few : work ≤ 2 ^ 50) (suitable : work ≤ 210 ∨ Even work) :
    Rooted (nextRoot work m) ∧ 26 / 25 ≤ (nextRoot work m).real ∧
      |Real.log (nextRoot work m).real - Real.log m.real / 2| ≤ 3 * grain (min work 99) := by
  have below := rooted.below
  have fine := grain_pos (min work 99)
  have tiny := grain_le_pow (show 15 < min work 99 by omega)
  have coarse : grain work ≤ grain (min work 99) := grain_le (min_le_left work 99)
  have finer : grain 99 ≤ grain (min work 99) := grain_le (min_le_right work 99)
  have low : 26 / 25 + 1 / 100 * (1 / 2) ≤ √m.real :=
    Real.le_sqrt_of_sq_le (by norm_num; linarith)
  have high : √m.real ≤ 4 := Real.sqrt_le_iff.mpr ⟨by norm_num, by linarith⟩
  obtain ⟨left, right⟩ := rooted.place_bounds
  have root := close_squareRoot rooted.mantissa_pos rooted.even (abs_le.mpr ⟨by omega, by omega⟩)
  have mild : Mild (4 : ℕ) m.squareRoot.real :=
    (rooted.mild_sqrt.of_close root).mono (by push_cast; linarith)
  obtain ⟨rounded, position⟩ := close_withDigits mild (show 2 ≤ work by omega) (by omega)
  have close : Close (3 * grain (min work 99)) (nextRoot work m).real √m.real :=
    (rounded.trans root).mono (by linarith)
  have plural : m.rational ≠ 1 := fun single => by linarith [(real_eq_one_iff m).mpr single]
  have even := evenlyScaled_nextRoot rooted.mantissa_pos plural (by omega) suitable
  have moved := close.abs_sub_le (by linarith)
  rw [abs_of_pos (by linarith : 0 < √m.real)] at moved
  have bound : 2 * (3 * grain (min work 99)) * √m.real ≤ 1 / 1000 := by nlinarith
  obtain ⟨left, right⟩ := abs_le.mp (moved.trans bound)
  refine ⟨⟨by linarith, by linarith, even, position.trans (by push_cast; omega)⟩, by linarith, ?_⟩
  rw [← Real.log_sqrt (by linarith)]
  exact close.abs_log_sub_le (by linarith)

/-- The errors of the roots halve with every root that is still taken. -/
theorem abs_sub_halved_le {a b c unit : ℝ} {roots : ℕ}
    (apart : |a - b / 2 ^ roots| ≤ 6 * unit * (1 - (1 / 2) ^ roots))
    (halved : |b - c / 2| ≤ 3 * unit) :
    |a - c / 2 ^ (roots + 1)| ≤ 6 * unit * (1 - (1 / 2) ^ (roots + 1)) := by
  have power : (0 : ℝ) < 2 ^ roots := by positivity
  have rounding : |(b - c / 2) / 2 ^ roots| ≤ 3 * unit * (1 / 2) ^ roots := by
    rw [abs_div, abs_of_pos power, one_div, inv_pow, ← div_eq_mul_inv]
    exact div_le_div_of_nonneg_right halved power.le
  calc |a - c / 2 ^ (roots + 1)|
    _ = |(a - b / 2 ^ roots) + (b - c / 2) / 2 ^ roots| := by
      congr 1
      rw [pow_succ]
      ring
    _ ≤ 6 * unit * (1 - (1 / 2) ^ roots) + 3 * unit * (1 / 2) ^ roots :=
      (abs_add_le _ _).trans (add_le_add apart rounding)
    _ = 6 * unit * (1 - (1 / 2) ^ (roots + 1)) := by ring

/-- After so many roots the number is within a tenth of one; unless no root is taken, it stays away
from one. -/
theorem approachOne_ends (bound : ℕ) (rooted : Rooted m) (precise : 16 ≤ work) (few : work ≤ 2 ^ 50)
    (suitable : work ≤ 210 ∨ Even work)
    (within : Real.log m.real - 6 * grain (min work 99) ≤ 2 ^ bound * (3 / 40)) :
    ∃ roots ≤ bound, ∃ near : Decimal, Ends isFar (nextRoot work) m roots near ∧
      Rooted near ∧ near.real ≤ 11 / 10 ∧
      |Real.log near.real - Real.log m.real / 2 ^ roots| ≤
        6 * grain (min work 99) * (1 - (1 / 2) ^ roots) ∧
      (roots = 0 ∧ near = m ∨ 26 / 25 ≤ near.real) := by
  have tiny := grain_le_pow (show 15 < min work 99 by omega)
  induction bound generalizing m with
  | zero =>
    rcases le_or_gt m.real (11 / 10) with near | far
    · exact ⟨0, le_rfl, m, .done (isFar_of_le rooted.above near), rooted, near, by norm_num,
        .inl ⟨rfl, rfl⟩⟩
    · have logarithm := Real.one_sub_inv_le_log_of_pos (show 0 < m.real by linarith)
      have inverse : m.real⁻¹ ≤ 10 / 11 := by
        rw [inv_le_comm₀ (by linarith) (by norm_num)]
        linarith
      linarith
  | succ bound inductionHypothesis =>
    rcases le_or_gt m.real (11 / 10) with near | far
    · exact ⟨0, Nat.zero_le _, m, .done (isFar_of_le rooted.above near), rooted, near, by norm_num,
        .inl ⟨rfl, rfl⟩⟩
    obtain ⟨next, away, halved⟩ := rooted_nextRoot rooted far precise few suitable
    obtain ⟨low, high⟩ := abs_le.mp halved
    obtain ⟨roots, fewer, near, ends, ready, close, apart, distant⟩ :=
      inductionHypothesis next (by rw [pow_succ] at within; linarith)
    refine ⟨roots + 1, by omega, near, .again (isFar_of_lt far) ends, ready, close,
      abs_sub_halved_le apart halved, .inr ?_⟩
    rcases distant with ⟨-, rfl⟩ | distant
    · exact away
    · exact distant

end Roots

/-! ## The parts of the logarithm -/

/-- The roots and the series give what is close to the logarithm. -/
theorem close_reducedLogarithm (rooted : Rooted m) {work : ℕ} (precise : 16 ≤ work)
    (few : work ≤ 56) :
    Close (600 * grain (work + 4)) (reducedLogarithm m work).real (Real.log m.real) ∧
      |(reducedLogarithm m work).scale.toInt| ≤ 2 ^ 59 := by
  have fine := grain_pos (work + 4)
  have tiny := grain_le_pow (show 19 < work + 4 by omega)
  have logarithm := Real.log_le_log (by linarith [rooted.above]) rooted.below
  obtain ⟨roots, fewer, near, ends, ready, close, apart, distant⟩ :=
    approachOne_ends 5 rooted (by omega : 16 ≤ work + 4) (by omega) (.inl (by omega))
      (by linarith [log_ten_le, grain_pos (min (work + 4) 99)])
  rw [min_eq_left (by omega)] at apart
  obtain ⟨series, scale⟩ :=
    close_logarithmNearOne ready.above close ready.scale_le (by omega : 20 ≤ work + 4) (by omega)
  have plain : |(ofNat (twoTo roots)).scale.toInt| = 0 := rfl
  obtain ⟨product, position⟩ := real_multiply (x := logarithmNearOne near (work + 4))
    (y := ofNat (twoTo roots)) (by rw [plain]; omega)
  have form : reducedLogarithm m work =
      (logarithmNearOne near (work + 4)).multiply (ofNat (twoTo roots)) := by
    rw [reducedLogarithm, approachOne_of_ends ends (fewer.trans (by decide)), Nat.zero_add]
  -- Where a root is taken the logarithm is well above what the roots are off by.
  have halved : Close (320 * grain (work + 4)) (Real.log near.real) (Real.log m.real / 2 ^ roots) := by
    rcases distant with ⟨rfl, -⟩ | distant
    · rw [pow_zero (1 / 2 : ℝ), sub_self, mul_zero] at apart
      rw [sub_eq_zero.mp (abs_nonpos_iff.mp apart)]
      exact (Close.refl _).mono (by linarith)
    · have inverse : near.real⁻¹ ≤ 25 / 26 := by
        rw [inv_le_comm₀ (by linarith) (by norm_num)]
        linarith
      have large := Real.one_sub_inv_le_log_of_pos (show 0 < near.real by linarith)
      have power : (0 : ℝ) ≤ (1 / 2) ^ roots := by positivity
      have bound : |Real.log near.real - Real.log m.real / 2 ^ roots| ≤ 6 * grain (work + 4) :=
        apart.trans (by nlinarith)
      obtain ⟨left, right⟩ := abs_le.mp bound
      have positive : 3 / 80 ≤ Real.log m.real / 2 ^ roots := by linarith
      refine (close_of_abs_sub_le (s := 160 * grain (work + 4)) (by linarith) (by linarith) ?_).mono
        (by linarith)
      rw [abs_of_pos (by linarith : 0 < Real.log m.real / 2 ^ roots)]
      exact bound.trans (by nlinarith)
  have power : ((twoTo roots : ℕ) : ℝ) = 2 ^ roots := by exact_mod_cast rfl
  have whole := (series.trans halved).mul (Close.refl ((twoTo roots : ℕ) : ℝ))
  rw [power, div_mul_cancel₀ _ (by positivity)] at whole
  rw [form, product, real_ofNat, power]
  exact ⟨whole.mono (by linarith), by rw [plain] at position; omega⟩

/-- The mantissa of a decimal with its first digit before the point. -/
def significand (x : Decimal) : Decimal := ⟨x.mantissa, x.scale + x.exponent⟩

/-- The significand has all digits but the first behind the point, also where the exponent wraps. -/
theorem toInt_scale_significand (nonzero : x.mantissa ≠ 0) (stored : x.digits ≤ 2 ^ 50) :
    x.significand.scale.toInt = x.digits - 1 := by
  have written := x.one_le_digits
  have word : (Int64.ofNat x.digits).toInt = x.digits := Int64.toInt_ofNat_of_lt (by omega)
  have single : (1 : Int64).toInt = 1 := rfl
  rw [significand, exponent, if_neg (by simpa [isZero] using nonzero), Int64.add_comm,
    Int64.sub_add_cancel, toInt_sub_of_fits (by omega) (by omega), word, single]

/-- The significand of a positive number is from one to ten. -/
theorem significand_bounds (positive : 0 < x.mantissa) (stored : x.digits ≤ 2 ^ 50) :
    1 ≤ x.significand.real ∧ x.significand.real ≤ 10 ∧ x.significand.place = 1 ∧
      |x.significand.scale.toInt| ≤ 2 ^ 51 := by
  have written := x.one_le_digits
  have scale := toInt_scale_significand positive.ne' stored
  have digits : x.significand.digits = x.digits := rfl
  have place : x.significand.place = 1 := by
    rw [Decimal.place, digits, scale]
    ring
  have value : 0 < x.significand.real := x.significand.real_pos_iff.mpr positive
  have bounds := real_bounds (x := x.significand) positive.ne'
  rw [place, abs_of_pos value] at bounds
  norm_num at bounds
  exact ⟨bounds.1, bounds.2.le, place, by rw [scale]; exact abs_le.mpr ⟨by omega, by omega⟩⟩

/-- Whether the logarithm of a decimal finds room in machine words: its digits can be stored and its
exponent is one, and the first root that is taken is one that comes with the right scale. -/
structure Manageable (x : Decimal) : Prop where
  stored : x.digits ≤ 2 ^ 50
  exponent_lt : x.place ≤ 2 ^ 63
  even : x.EvenlyScaled

/-- The mantissa of a number, from one to ten, and the power of ten that it belongs to. -/
theorem rooted_mantissa (positive : 0 < x.mantissa) (manageable : x.Manageable) :
    Rooted ⟨x.mantissa, x.scale + x.exponent⟩ ∧
      x.real = (⟨x.mantissa, x.scale + x.exponent⟩ : Decimal).real * 10 ^ (x.place - 1) ∧
      x.exponent.toInt = x.place - 1 := by
  obtain ⟨stored, within, even⟩ := manageable
  have low := x.scale.le_toInt
  have high := x.scale.toInt_lt
  have written := x.one_le_digits
  have exponent : x.exponent.toInt = x.place - 1 := by
    unfold place at within ⊢
    rw [toInt_exponent_of_fits positive.ne' (by omega) (by omega)]
    ring
  obtain ⟨above, below, -, room⟩ := significand_bounds positive stored
  refine ⟨⟨above, below, even, room⟩, ?_, exponent⟩
  have scale : (x.scale + x.exponent).toInt = x.digits - 1 :=
    toInt_scale_significand positive.ne' stored
  have shifted : (10 : ℝ) ^ (-x.scale.toInt) = 10 ^ (-(x.digits - 1 : ℤ)) * 10 ^ (x.place - 1) := by
    rw [← zpow_add₀ (by norm_num), Decimal.place]
    congr 1
    ring
  rw [real, rational, real, rational, scale, Rat.cast_mul, Rat.cast_mul, Rat.cast_zpow,
    Rat.cast_zpow, Rat.cast_ofNat, Rat.cast_intCast, shifted, mul_assoc]

/-- What the logarithm of a number is computed as, before it is taken to the digits of the result: the
logarithm of a mantissa and so many times that of ten, each of them close to the exact one. -/
structure Parts (x result : Decimal) (bound : ℝ) : Prop where
  split : ∃ leading ten exact : ℝ, result.real = leading + (x.place - 1 : ℤ) * ten ∧
    Close bound leading exact ∧ Close bound ten (Real.log 10) ∧ 0 ≤ exact ∧ exact ≤ Real.log 10 ∧
    Real.log x.real = exact + (x.place - 1 : ℤ) * Real.log 10
  scale_le : |result.scale.toInt| ≤ 2 ^ 59

/-- Ten is a number whose roots can be taken. -/
theorem rooted_ten : Rooted (ofNat 10) where
  above := by norm_num
  below := by norm_num
  even := .inl ((digits_ofNat_le (by norm_num) (by norm_num : 10 < 10 ^ 2)).trans (by norm_num))
  scale_le := by decide

/-- The logarithm is computed in two parts. -/
theorem naturalLogarithm_parts (positive : 0 < x.mantissa) (apart : x.rational ≠ 1)
    (manageable : x.Manageable) {digits : ℕ} (several : 10 ≤ digits) (few : digits ≤ 50) :
    ∃ result : Decimal, naturalLogarithm x digits = .ok (result.withDigits digits) ∧
      Parts x result (600 * grain (digits + 10)) := by
  obtain ⟨rooted, value, exponent⟩ := rooted_mantissa positive manageable
  obtain ⟨closeTen, scaleTen⟩ :=
    close_reducedLogarithm rooted_ten (by omega : 16 ≤ digits + 6) (by omega)
  obtain ⟨close, scale⟩ := close_reducedLogarithm rooted (by omega : 16 ≤ digits + 6) (by omega)
  rw [real_ofNat, Nat.cast_ofNat] at closeTen
  have lower := Real.log_nonneg rooted.above
  have upper := Real.log_le_log (by linarith [rooted.above]) rooted.below
  have whole : Real.log x.real =
      Real.log (⟨x.mantissa, x.scale + x.exponent⟩ : Decimal).real +
        (x.place - 1 : ℤ) * Real.log 10 := by
    rw [value, Real.log_mul (by linarith [rooted.above]) (zpow_pos (by norm_num) _).ne', Real.log_zpow]
  have unfolded : naturalLogarithm x digits = .ok ((if x.exponent = 0 then
        reducedLogarithm ⟨x.mantissa, x.scale + x.exponent⟩ (digits + 6)
      else (reducedLogarithm ⟨x.mantissa, x.scale + x.exponent⟩ (digits + 6)).add
        ((reducedLogarithm (ofNat 10) (digits + 6)).multiply (ofInt x.exponent.toInt))).withDigits
          digits) := by
    rw [naturalLogarithm, if_neg (by simpa [isPositive] using positive),
      if_neg ((isOne_iff x).not.mpr apart)]
  generalize reducedLogarithm ⟨x.mantissa, x.scale + x.exponent⟩ (digits + 6) = leading at *
  generalize reducedLogarithm (ofNat 10) (digits + 6) = tens at *
  refine ⟨_, unfolded, ⟨⟨leading.real, tens.real, _, ?_, close, closeTen, lower, upper, whole⟩, ?_⟩⟩
  · split_ifs with none
    · rw [← exponent, none]
      simp
    · have plain : |(ofInt x.exponent.toInt).scale.toInt| = 0 := rfl
      rw [real_add, (real_multiply (by rw [plain]; omega)).1, real_ofInt, exponent, mul_comm]
  · split_ifs with none
    · exact scale
    · have plain : |(ofInt x.exponent.toInt).scale.toInt| = 0 := rfl
      have bound := (real_multiply (x := tens) (y := ofInt x.exponent.toInt)
        (by rw [plain]; omega)).2
      exact abs_scale_add_le scale (bound.trans (by rw [plain]; omega))

namespace Parts

variable {result : Decimal} {bound : ℝ}

/-- From one upward nothing cancels. -/
theorem close (parts : Parts x result bound) (positive : 0 < x.mantissa) (above : 1 ≤ x.real) :
    Close bound result.real (Real.log x.real) := by
  obtain ⟨leading, ten, exact, form, close, closeTen, nonneg, -, whole⟩ := parts.split
  have place : 0 < x.place := by
    refine lt_place_of_le_abs positive.ne' ?_
    rw [zpow_zero, abs_of_pos (by linarith)]
    exact above
  have power : (0 : ℝ) ≤ (x.place - 1 : ℤ) := Int.cast_nonneg (by omega)
  rw [form, whole]
  refine close.add ?_ nonneg (mul_nonneg power (by linarith [one_le_log_ten]))
  exact ((Close.refl _).mul closeTen).mono (zero_add _).le

/-- Below one the sum is off by so much of what the parts are. -/
theorem abs_sub_le (parts : Parts x result bound) (positive : 0 < x.mantissa) (below : x.real < 1)
    (small : bound ≤ 1) :
    |result.real - Real.log x.real| ≤ 2 * bound * (|Real.log x.real| + 5) := by
  obtain ⟨leading, ten, exact, form, close, closeTen, nonneg, within, whole⟩ := parts.split
  have value := x.real_pos_iff.mpr positive
  have place : x.place ≤ 0 := by
    refine place_le_of_abs_lt positive.ne' ?_
    rw [zpow_zero, abs_of_pos value]
    exact below
  have nonpos : ((x.place - 1 : ℤ) : ℝ) ≤ 0 := Int.cast_nonpos.mpr (by omega)
  have unit := one_le_log_ten
  have sharp := log_ten_le
  have near := close.abs_sub_le small
  have nearTen := closeTen.abs_sub_le small
  rw [abs_of_nonneg nonneg] at near
  rw [abs_of_nonneg (show 0 ≤ Real.log 10 by linarith)] at nearTen
  have bounded := close.bound_nonneg
  have negative := Real.log_neg value below
  generalize ((x.place - 1 : ℤ) : ℝ) = power at *
  calc |result.real - Real.log x.real|
    _ = |(leading - exact) + power * (ten - Real.log 10)| := by
      rw [form, whole]
      congr 1
      ring
    _ ≤ 2 * bound * exact + -power * (2 * bound * Real.log 10) := by
      refine (abs_add_le _ _).trans (add_le_add near ?_)
      rw [abs_mul, abs_of_nonpos nonpos]
      exact mul_le_mul_of_nonneg_left nearTen (by linarith)
    _ = 2 * bound * (|Real.log x.real| + 2 * exact) := by
      rw [abs_of_neg negative, whole]
      ring
    _ ≤ 2 * bound * (|Real.log x.real| + 5) := by
      gcongr
      linarith

/-- The sum is not larger than the exponent can make it. -/
theorem abs_real_le (parts : Parts x result bound) (small : bound ≤ 1 / 2)
    (manageable : x.Manageable) : |result.real| ≤ 10 ^ (20 : ℤ) := by
  obtain ⟨leading, ten, exact, form, close, closeTen, nonneg, within, -⟩ := parts.split
  have sharp := log_ten_le
  have scale := x.scale.toInt_lt
  have exponent : |((x.place - 1 : ℤ) : ℝ)| ≤ 2 ^ 63 := by
    have bounds : |x.place - 1| ≤ 2 ^ 63 := by
      have upper := manageable.exponent_lt
      have written := x.one_le_digits
      refine abs_le.mpr ⟨?_, by omega⟩
      unfold place
      omega
    exact_mod_cast bounds
  have first := close.abs_le small
  have second := closeTen.abs_le small
  rw [abs_of_nonneg nonneg] at first
  rw [abs_of_nonneg (show 0 ≤ Real.log 10 by linarith [one_le_log_ten])] at second
  rw [form]
  refine (abs_add_le _ _).trans ?_
  rw [abs_mul]
  have product : |((x.place - 1 : ℤ) : ℝ)| * |ten| ≤ 2 ^ 63 * (24 / 5) :=
    mul_le_mul exponent (by linarith) (abs_nonneg _) (by norm_num)
  have room : (12 / 5 + 2 ^ 63 * (24 / 5) + 12 / 5 : ℝ) ≤ 10 ^ (20 : ℤ) := by norm_num
  linarith

/-- The sum has room in a machine word. -/
theorem abs_place_le (parts : Parts x result bound) (small : bound ≤ 1 / 2)
    (manageable : x.Manageable) : |result.place| ≤ 2 ^ 60 := by
  obtain ⟨low, high⟩ := abs_le.mp parts.scale_le
  rcases eq_or_ne result.mantissa 0 with zero | nonzero
  · have single := digits_of_zero zero
    exact abs_le.mpr (by unfold place; constructor <;> omega)
  · have upper := place_le_of_abs_lt nonzero ((parts.abs_real_le small manageable).trans_lt
      (zpow_lt_zpow_right₀ (by norm_num) (by norm_num : (20 : ℤ) < 21)))
    have written := result.one_le_digits
    refine abs_le.mpr ⟨?_, by omega⟩
    unfold place
    omega

end Parts

end Calculator.Decimal
