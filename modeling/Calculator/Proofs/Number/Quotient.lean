import Calculator.Proofs.Number.Denotation
import Calculator.Proofs.Number.Sign
import Mathlib

/-!
# Decimal quotients

A division produces digits until it is exact or the quotient has a hundred of them, and rounds the
last digit to the nearest. What it gives is therefore no further from the quotient than half a unit
of that digit, and on the same side as the quotient of every number that fewer digits write.
-/

namespace Calculator

/-! ## Rounding to a hundred digits -/

/-- Whether fewer than a hundred digits write a number. -/
def Short (g : ℚ) : Prop := ∃ multiple place : ℤ, |multiple| < 10 ^ 99 ∧ g = multiple * 10 ^ place

/-- Whether a number is another one rounded to a hundred digits or more: a multiple of a power of
ten, of a hundred digits at least, that is not further away than half of the power. -/
def Rounds (q r : ℚ) : Prop :=
  ∃ multiple place : ℤ, r = multiple * 10 ^ place ∧ 10 ^ 99 ≤ |multiple| ∧
    |r - q| ≤ 10 ^ place / 2

/-- The opposite is written with as many digits. -/
theorem Short.neg {g : ℚ} (short : Short g) : Short (-g) := by
  obtain ⟨multiple, place, few, rfl⟩ := short
  exact ⟨-multiple, place, by rwa [abs_neg], by rw [Int.cast_neg, neg_mul]⟩

/-- An integer of fewer than a hundred digits. -/
theorem short_intCast {n : ℤ} (few : |n| < 10 ^ 99) : Short n :=
  ⟨n, 0, few, by rw [zpow_zero, mul_one]⟩

namespace Rounds

variable {q r g : ℚ}

/-- Rounding does not depend on the sign, nor on the place of the point. -/
theorem scale (rounds : Rounds q r) {sign : ℤ} (unit : |sign| = 1) (shift : ℤ) :
    Rounds (sign * q * 10 ^ shift) (sign * r * 10 ^ shift) := by
  obtain ⟨multiple, place, rfl, many, near⟩ := rounds
  have power := ten_zpow_pos shift
  have unitToo : |(sign : ℚ)| = 1 := by exact_mod_cast unit
  refine ⟨sign * multiple, place + shift, ?_, by rwa [abs_mul, unit, one_mul], ?_⟩
  · rw [Int.cast_mul, ← ten_zpow_mul, mul_assoc, mul_assoc, mul_assoc]
  · rw [← sub_mul, ← mul_sub, abs_mul, abs_mul, unitToo, one_mul, abs_of_pos power, ← ten_zpow_mul,
      ← div_mul_eq_mul_div]
    exact mul_le_mul_of_nonneg_right near power.le

/-- Rounding treats both signs alike. -/
theorem neg (rounds : Rounds q r) : Rounds (-q) (-r) := by
  simpa using rounds.scale (show |(-1 : ℤ)| = 1 by norm_num) 0

/-- The difference is a small part of the rounded number. -/
theorem error_le (rounds : Rounds q r) : |r - q| ≤ |r| / (2 * 10 ^ 99) := by
  obtain ⟨multiple, place, form, many, near⟩ := rounds
  have power := ten_zpow_pos place
  have digits : (10 : ℚ) ^ 99 ≤ |(multiple : ℚ)| := by exact_mod_cast many
  have large : (10 : ℚ) ^ 99 * 10 ^ place ≤ |r| := by
    rw [form, abs_mul, abs_of_pos power]
    exact mul_le_mul_of_nonneg_right digits power.le
  rw [le_div_iff₀ (by positivity)]
  linarith

/-- The error is below half of the hundredth digit of a number that is not below the rounded one. -/
theorem error_le_of_abs_lt (rounds : Rounds q r) {exponent : ℤ} (below : |r| < 10 ^ exponent) :
    |r - q| ≤ 10 ^ (exponent - 100) / 2 := by
  obtain ⟨multiple, place, form, many, near⟩ := rounds
  have digits : (10 : ℚ) ^ (99 : ℤ) ≤ |(multiple : ℚ)| := by exact_mod_cast many
  have powers : (10 : ℚ) ^ (99 + place) < 10 ^ exponent := by
    refine lt_of_le_of_lt ?_ below
    rw [form, abs_mul, abs_of_pos (ten_zpow_pos place), ← ten_zpow_mul]
    exact mul_le_mul_of_nonneg_right digits (ten_zpow_pos place).le
  have exponents := (zpow_lt_zpow_iff_right₀ (by norm_num : (1 : ℚ) < 10)).mp powers
  refine near.trans (div_le_div_of_nonneg_right (ten_zpow_le ?_) zero_le_two)
  omega

/-- Rounding passes no number that fewer digits write. -/
theorem ge_of_ge (rounds : Rounds q r) (short : Short g) (below : g ≤ q) : g ≤ r := by
  obtain ⟨multiple, place, form, many, near⟩ := rounds
  obtain ⟨short, position, few, rfl⟩ := short
  have power := ten_zpow_pos place
  obtain ⟨near, -⟩ := abs_le.mp near
  rcases le_or_gt place position with coarse | fine
  · -- Both are multiples of the unit of the last digit.
    obtain ⟨other, common⟩ := exists_multiple short coarse
    rw [common] at below ⊢
    rw [form] at near ⊢
    refine mul_le_mul_of_nonneg_right (Int.cast_le.mpr ?_) power.le
    have gap : ((other : ℚ) - multiple) * 10 ^ place < 1 * 10 ^ place := by linarith
    have integers : other - multiple < 1 := by exact_mod_cast lt_of_mul_lt_mul_right gap power.le
    omega
  · -- The number with few digits is smaller than any of a hundred digits at this place.
    have small : |(short : ℚ) * 10 ^ position| < 10 ^ 98 * 10 ^ place := by
      rw [abs_mul, abs_of_pos (ten_zpow_pos position)]
      have digits : |(short : ℚ)| < 10 ^ 99 := by exact_mod_cast few
      calc |(short : ℚ)| * 10 ^ position
        _ < 10 ^ 99 * 10 ^ position := mul_lt_mul_of_pos_right digits (ten_zpow_pos position)
        _ ≤ 10 ^ 99 * 10 ^ (place - 1) :=
          mul_le_mul_of_nonneg_left (ten_zpow_le (by omega)) (by positivity)
        _ = 10 ^ 98 * 10 ^ place := by
          rw [zpow_sub_one₀ (by norm_num)]
          ring
    obtain ⟨smallBelow, smallAbove⟩ := abs_lt.mp small
    have digits : (10 : ℚ) ^ 99 ≤ |(multiple : ℚ)| := by exact_mod_cast many
    rcases le_or_gt 0 (multiple : ℚ) with nonneg | negative
    · rw [abs_of_nonneg nonneg] at digits
      have large := mul_le_mul_of_nonneg_right digits power.le
      rw [form]
      linarith
    · rw [abs_of_neg negative] at digits
      have large := mul_le_mul_of_nonneg_right digits power.le
      rw [form] at near
      linarith

/-- Rounding passes no number that fewer digits write, from the other side. -/
theorem le_of_le (rounds : Rounds q r) (short : Short g) (above : q ≤ g) : r ≤ g :=
  neg_le_neg_iff.mp (rounds.neg.ge_of_ge short.neg (neg_le_neg above))

end Rounds

namespace Decimal

/-! ## Long division -/

/-- Dropping zeros takes powers of ten off, at most as many as allowed. -/
theorem dropZeros_spec (limit number : ℕ) :
    number = (dropZeros limit number).1 * 10 ^ (dropZeros limit number).2 ∧
      (dropZeros limit number).2 ≤ limit := by
  induction limit generalizing number with
  | zero => exact ⟨(Nat.mul_one _).symm, le_rfl⟩
  | succ limit inductionHypothesis =>
    obtain ⟨factor, within⟩ := inductionHypothesis (number / 10)
    rw [dropZeros]
    split_ifs with last
    · refine ⟨?_, Nat.succ_le_succ within⟩
      dsimp only
      rw [Nat.pow_succ, ← Nat.mul_assoc, ← factor]
      omega
    · exact ⟨(Nat.mul_one _).symm, Nat.zero_le _⟩

/-- No more zeros are missing than the divisor has digits. -/
theorem missingZeros_le (dividend divisor : ℕ) :
    missingZeros dividend divisor ≤ Digits.count divisor := by
  obtain ⟨further, counted⟩ := Digits.count_succ dividend
  obtain ⟨furtherToo, countedToo⟩ := Digits.count_succ divisor
  unfold missingZeros
  dsimp only
  split <;> omega

/-- A quotient that is carried on to a hundred digits has them. -/
theorem digits_extended {lifted divisor : ℕ} (divides : 0 < divisor) (large : divisor ≤ lifted) :
    10 ^ 99 ≤ lifted * 10 ^ (quotientDigits - Digits.count (lifted / divisor)) / divisor := by
  obtain ⟨lower, -⟩ := Digits.count_bounds (lifted / divisor) (Nat.div_pos large divides)
  have hundred : quotientDigits = 100 := rfl
  rw [Nat.le_div_iff_mul_le divides]
  calc 10 ^ 99 * divisor
    _ ≤ 10 ^ (Digits.count (lifted / divisor) - 1 +
        (quotientDigits - Digits.count (lifted / divisor))) * divisor :=
      Nat.mul_le_mul_right _ (Nat.pow_le_pow_right (by decide) (by omega))
    _ = 10 ^ (Digits.count (lifted / divisor) - 1) *
        10 ^ (quotientDigits - Digits.count (lifted / divisor)) * divisor := by rw [Nat.pow_add]
    _ ≤ lifted / divisor * 10 ^ (quotientDigits - Digits.count (lifted / divisor)) * divisor :=
      Nat.mul_le_mul_right _ (Nat.mul_le_mul_right _ lower)
    _ = lifted / divisor * divisor * 10 ^ (quotientDigits - Digits.count (lifted / divisor)) :=
      Nat.mul_right_comm _ _ _
    _ ≤ lifted * 10 ^ (quotientDigits - Digits.count (lifted / divisor)) :=
      Nat.mul_le_mul_right _ (Nat.div_mul_le_self _ _)

/-- The next digit is five or more if what is left is at least half of the divisor. -/
theorem next_digit_iff {rest divisor : ℕ} (divides : 0 < divisor) :
    5 ≤ 10 * rest / divisor ↔ divisor ≤ 2 * rest := by
  rw [Nat.le_div_iff_mul_le divides]
  omega

/-- Long division is exact, or gives a hundred digits or more of which the last one is rounded to
the nearest. -/
theorem divideMagnitudes_spec {dividend divisor quotient places : ℕ} (some : 0 < dividend)
    (divides : 0 < divisor) (divided : divideMagnitudes dividend divisor = (quotient, places)) :
    places ≤ Digits.count divisor + quotientDigits ∧
      (quotient * divisor = dividend * 10 ^ places ∨
        10 ^ 99 ≤ quotient ∧
          2 * (quotient * divisor) ≤ 2 * (dividend * 10 ^ places) + divisor ∧
          2 * (dividend * 10 ^ places) ≤ 2 * (quotient * divisor) + divisor) := by
  have few := missingZeros_le dividend divisor
  have large := le_missingZeros some divides
  unfold divideMagnitudes at divided
  dsimp only at divided
  generalize missingZeros dividend divisor = zeros at few large divided
  have digits := digits_extended divides large
  generalize further : quotientDigits - Digits.count (dividend * tenTo zeros / divisor) = extra
    at digits divided
  have powers : dividend * tenTo zeros * tenTo extra = dividend * 10 ^ (zeros + extra) := by
    rw [Nat.mul_assoc, Nat.pow_add]
    rfl
  rw [show dividend * tenTo zeros * 10 ^ extra = dividend * tenTo zeros * tenTo extra from rfl]
    at digits
  rw [powers] at digits divided
  have division := Nat.div_add_mod (dividend * 10 ^ (zeros + extra)) divisor
  have below := Nat.mod_lt (dividend * 10 ^ (zeros + extra)) divides
  rw [Nat.mul_comm] at division
  simp only [next_digit_iff divides] at divided
  split_ifs at divided with whole exact up
  · obtain ⟨rfl, rfl⟩ := Prod.mk.inj divided
    exact ⟨by omega, .inl (Nat.div_mul_cancel (Nat.dvd_of_mod_eq_zero whole))⟩
  · obtain ⟨rfl, rfl⟩ := Prod.mk.inj divided
    obtain ⟨factor, within⟩ :=
      dropZeros_spec extra (dividend * 10 ^ (zeros + extra) / divisor)
    refine ⟨by omega, .inl ?_⟩
    generalize dropZeros extra (dividend * 10 ^ (zeros + extra) / divisor) = answer at factor within
    have exponent : zeros + extra = zeros + (extra - answer.2) + answer.2 := by omega
    rw [exact, factor] at division
    refine Nat.eq_of_mul_eq_mul_right (Nat.pow_pos (by decide : 0 < 10) (n := answer.2)) ?_
    rw [Nat.mul_assoc dividend, ← Nat.pow_add, ← exponent, ← division, Nat.add_zero,
      Nat.mul_right_comm]
  · obtain ⟨rfl, rfl⟩ := Prod.mk.inj divided
    refine ⟨by omega, .inr ⟨by omega, ?_, ?_⟩⟩ <;> rw [Nat.add_mul _ 1 divisor, Nat.one_mul] <;> omega
  · obtain ⟨rfl, rfl⟩ := Prod.mk.inj divided
    exact ⟨by omega, .inr ⟨digits, by omega, by omega⟩⟩

/-- The quotient of two positive numbers that long division gives, as a rational number. -/
theorem divideMagnitudes_rational {dividend divisor quotient places : ℕ} (some : 0 < dividend)
    (divides : 0 < divisor) (divided : divideMagnitudes dividend divisor = (quotient, places)) :
    (quotient : ℚ) = dividend / divisor * 10 ^ (places : ℤ) ∨
      Rounds (dividend / divisor * 10 ^ (places : ℤ)) quotient := by
  have positive : (0 : ℚ) < divisor := Nat.cast_pos.mpr divides
  rw [zpow_natCast, div_mul_eq_mul_div]
  obtain ⟨-, exact | ⟨many, upper, lower⟩⟩ := divideMagnitudes_spec some divides divided
  · left
    rw [eq_div_iff positive.ne']
    exact_mod_cast exact
  · refine .inr ⟨quotient, 0, by rw [zpow_zero, mul_one, Int.cast_natCast], ?_, ?_⟩
    · rw [Nat.abs_cast]
      exact_mod_cast many
    have upper : 2 * ((quotient : ℚ) * divisor) ≤ 2 * (dividend * 10 ^ places) + divisor := by
      exact_mod_cast upper
    have lower : 2 * ((dividend : ℚ) * 10 ^ places) ≤ 2 * (quotient * divisor) + divisor := by
      exact_mod_cast lower
    rw [zpow_zero, sub_div' positive.ne', abs_div, abs_of_pos positive, div_le_iff₀ positive, abs_le]
    constructor <;> linarith

/-- A dividend with the zeros that are missing exceeds the divisor by no more powers of ten than it had
digits. -/
theorem lifted_lt {dividend divisor : ℕ} (some : 0 < dividend) (divides : 0 < divisor) :
    dividend * 10 ^ missingZeros dividend divisor < divisor * 10 ^ Digits.count dividend := by
  have upper := (Digits.count_bounds dividend some).2
  have lower := (Digits.count_bounds divisor divides).1
  obtain ⟨further, counted⟩ := Digits.count_succ dividend
  unfold missingZeros
  dsimp only
  split_ifs with short
  · calc dividend * 10 ^ (Digits.count divisor - Digits.count dividend + 1)
      _ = dividend * 10 ^ (Digits.count divisor - Digits.count dividend) * 10 ^ 1 := by
        rw [Nat.pow_succ, Nat.pow_one, Nat.mul_assoc]
      _ < divisor * 10 ^ 1 := Nat.mul_lt_mul_of_pos_right short (by decide)
      _ ≤ divisor * 10 ^ Digits.count dividend :=
        Nat.mul_le_mul_left _ (Nat.pow_le_pow_right (by decide) (by omega))
  · calc dividend * 10 ^ (Digits.count divisor - Digits.count dividend)
      _ < 10 ^ Digits.count dividend * 10 ^ (Digits.count divisor - Digits.count dividend) :=
        Nat.mul_lt_mul_of_pos_right upper (Nat.pow_pos (by decide))
      _ ≤ 10 ^ Digits.count dividend * 10 ^ (Digits.count divisor - 1) :=
        Nat.mul_le_mul_left _ (Nat.pow_le_pow_right (by decide) (by omega))
      _ ≤ 10 ^ Digits.count dividend * divisor := Nat.mul_le_mul_left _ lower
      _ = divisor * 10 ^ Digits.count dividend := Nat.mul_comm _ _

/-- Long division gives no more digits than the dividend has, or a hundred, apart from one that rounding
may carry to. -/
theorem divideMagnitudes_le {dividend divisor : ℕ} (some : 0 < dividend) (divides : 0 < divisor) :
    (divideMagnitudes dividend divisor).1 ≤ 10 ^ max (Digits.count dividend) 100 := by
  have lifted : dividend * tenTo (missingZeros dividend divisor) < divisor * 10 ^ Digits.count dividend :=
    lifted_lt some divides
  have large := le_missingZeros some divides
  have hundred : quotientDigits = 100 := rfl
  unfold divideMagnitudes
  dsimp only
  generalize dividend * tenTo (missingZeros dividend divisor) = number at lifted large ⊢
  have positive : 0 < number / divisor := Nat.div_pos large divides
  have whole : number / divisor < 10 ^ Digits.count dividend := Nat.div_lt_of_lt_mul lifted
  have few := (Digits.count_le_iff _ _ positive).mpr whole
  have widest : 10 ^ Digits.count dividend ≤ 10 ^ max (Digits.count dividend) 100 :=
    Nat.pow_le_pow_right (by decide) (le_max_left _ _)
  have extended : number * tenTo (quotientDigits - Digits.count (number / divisor)) / divisor <
      10 ^ max (Digits.count dividend) 100 := by
    refine Nat.div_lt_of_lt_mul ?_
    calc number * 10 ^ (quotientDigits - Digits.count (number / divisor))
      _ < divisor * 10 ^ Digits.count (number / divisor) *
          10 ^ (quotientDigits - Digits.count (number / divisor)) := by
        refine Nat.mul_lt_mul_of_pos_right ?_ (Nat.pow_pos (by decide))
        rw [Nat.mul_comm]
        exact (Nat.div_lt_iff_lt_mul divides).mp (Digits.count_bounds _ positive).2
      _ = divisor * 10 ^ (Digits.count (number / divisor) +
          (quotientDigits - Digits.count (number / divisor))) := by rw [Nat.mul_assoc, Nat.pow_add]
      _ ≤ divisor * 10 ^ max (Digits.count dividend) 100 :=
        Nat.mul_le_mul_left _ (Nat.pow_le_pow_right (by decide) (by omega))
  split_ifs with integral exact up
  · exact whole.le.trans widest
  · obtain ⟨factor, -⟩ := dropZeros_spec (quotientDigits - Digits.count (number / divisor))
      (number * tenTo (quotientDigits - Digits.count (number / divisor)) / divisor)
    exact (Nat.le_mul_of_pos_right _ (Nat.pow_pos (by decide))).trans (factor ▸ extended.le)
  · exact extended
  · exact extended.le

/-! ## Division -/

variable {x y : Decimal}

/-- An integer as its sign and its magnitude, as a rational number. -/
theorem cast_eq_sign_mul (n : ℤ) : (n : ℚ) = n.sign * n.natAbs := by
  rw [← Int.cast_natCast n.natAbs, ← Int.cast_mul, Int.sign_mul_natAbs]

/-- A quotient of integers as the signs and the quotient of the magnitudes. -/
theorem cast_div_eq_sign_mul (a b : ℤ) :
    (a / b : ℚ) = ((a.sign * b.sign : ℤ) : ℚ) * (a.natAbs / b.natAbs) := by
  rw [cast_eq_sign_mul a, cast_eq_sign_mul b, mul_div_mul_comm, Int.cast_mul]
  rcases b.sign_trichotomy with positive | zero | negative
  · rw [positive, Int.cast_one, div_one, mul_one]
  · rw [zero, Int.cast_zero, div_zero, mul_zero]
  · rw [negative, Int.cast_neg, Int.cast_one, div_neg, div_one, mul_neg, mul_one]

/-- Division gives the quotient, or what that is rounded to, if the scale does not wrap. -/
theorem rational_divide_of_fits (lower : -2 ^ 63 ≤ x.scale.toInt - y.scale.toInt)
    (upper : x.scale.toInt - y.scale.toInt + (y.digits + quotientDigits) < 2 ^ 63)
    (nonzero : y.mantissa ≠ 0) :
    (x.divide y).rational = x.rational / y.rational ∨
      Rounds (x.rational / y.rational) (x.divide y).rational := by
  have scale := toInt_sub_of_fits (a := x.scale) (b := y.scale) (by omega) (by omega)
  have ratio : x.rational / y.rational =
      (x.mantissa / y.mantissa : ℚ) * 10 ^ (-(x.scale.toInt - y.scale.toInt)) := by
    rw [rational, rational, mul_div_mul_comm, ← zpow_sub₀ (by norm_num)]
    congr 2
    omega
  unfold divide
  dsimp only
  split_ifs with plain same
  · left
    rcases Bool.or_eq_true_iff.mp plain with zero | single
    · have none : x.rational = 0 := (rational_eq_zero_iff x).mpr (by simpa [isZero] using zero)
      rw [none, zero_div]
    · rw [(isOne_iff y).mp single, div_one]
  · left
    rw [ratio, same, div_self (Int.cast_ne_zero.mpr nonzero), rational, scale, Int.cast_one]
  · have some : x.mantissa ≠ 0 := by
      rintro zero
      simp [isZero, zero] at plain
    generalize divided : divideMagnitudes x.mantissa.natAbs y.mantissa.natAbs = answer
    obtain ⟨quotient, places⟩ := answer
    have within := (divideMagnitudes_spec (Int.natAbs_pos.mpr some) (Int.natAbs_pos.mpr nonzero)
      divided).1
    rw [show Digits.count y.mantissa.natAbs = y.digits from rfl] at within
    have place : (x.scale - y.scale + Int64.ofNat places).toInt =
        x.scale.toInt - y.scale.toInt + places := by
      rw [toInt_add_ofNat_of_fits (by omega), scale]
    have sign : |x.mantissa.sign * y.mantissa.sign| = 1 := by
      rw [abs_mul, Int.abs_sign_of_ne_zero some, Int.abs_sign_of_ne_zero nonzero, one_mul]
    have form : (⟨x.mantissa.sign * y.mantissa.sign * quotient,
        x.scale - y.scale + Int64.ofNat places⟩ : Decimal).rational =
        ((x.mantissa.sign * y.mantissa.sign * quotient : ℤ) : ℚ) *
          10 ^ (-(x.scale.toInt - y.scale.toInt + places)) := by
      rw [rational, place]
    have split : x.rational / y.rational = ((x.mantissa.sign * y.mantissa.sign : ℤ) : ℚ) *
        (x.mantissa.natAbs / y.mantissa.natAbs * 10 ^ (places : ℤ)) *
          10 ^ (-(x.scale.toInt - y.scale.toInt + places)) := by
      rw [ratio, cast_div_eq_sign_mul, neg_add, ← ten_zpow_mul, zpow_neg _ (places : ℤ)]
      field_simp
    rw [form, split, Int.cast_mul _ (quotient : ℤ), Int.cast_natCast]
    rcases divideMagnitudes_rational (Int.natAbs_pos.mpr some) (Int.natAbs_pos.mpr nonzero) divided
      with exact | rounds
    · left
      rw [exact]
    · exact .inr (rounds.scale sign _)

/-- A quotient has no more digits than the dividend, or a hundred, and one that rounding may carry to. -/
theorem digits_divide_le (x : Decimal) (nonzero : y.mantissa ≠ 0) :
    (x.divide y).digits ≤ max x.digits 100 + 1 := by
  unfold divide
  dsimp only
  split_ifs with plain same
  · omega
  · have single : Digits.count 1 = 1 := by simp [Digits.count]
    change Digits.count 1 ≤ _
    omega
  · have some : x.mantissa ≠ 0 := by
      rintro zero
      simp [isZero, zero] at plain
    have left := Int.natAbs_pos.mpr some
    have right := Int.natAbs_pos.mpr nonzero
    have limited := divideMagnitudes_le left right
    have positive := divideMagnitudes_pos left right
    generalize divideMagnitudes x.mantissa.natAbs y.mantissa.natAbs = answer at *
    obtain ⟨quotient, places⟩ := answer
    have magnitude : (x.mantissa.sign * y.mantissa.sign * (quotient : ℤ)).natAbs = quotient := by
      rw [Int.natAbs_mul, Int.natAbs_mul, Int.natAbs_sign_of_ne_zero some,
        Int.natAbs_sign_of_ne_zero nonzero, Int.natAbs_natCast, Nat.mul_one, Nat.one_mul]
    rw [digits, magnitude]
    exact (Digits.count_le_iff _ _ positive).mpr
      (limited.trans_lt (Nat.pow_lt_pow_right (by decide) (Nat.lt_succ_self _)))

/-- Division gives the quotient of moderate numbers, or what that is rounded to. -/
theorem rational_divide (lower : -2 ^ 56 ≤ x.scale.toInt) (upper : x.scale.toInt ≤ 2 ^ 56)
    (divisor : y.Moderate (2 ^ 56)) (nonzero : y.mantissa ≠ 0) :
    (x.divide y).rational = x.rational / y.rational ∨
      Rounds (x.rational / y.rational) (x.divide y).rational := by
  obtain ⟨few, lowerToo, upperToo⟩ := divisor
  have hundred : quotientDigits = 100 := rfl
  exact rational_divide_of_fits (by omega) (by omega) nonzero

/-- A quotient of moderate numbers is moderate. -/
theorem moderate_divide (dividend : x.Moderate (2 ^ 56)) (divisor : y.Moderate (2 ^ 56))
    (nonzero : y.mantissa ≠ 0) : (x.divide y).Moderate (2 ^ 58) := by
  obtain ⟨fewLeft, lower, upper⟩ := dividend
  obtain ⟨fewRight, lowerToo, upperToo⟩ := divisor
  have scale := toInt_sub_of_fits (a := x.scale) (b := y.scale) (by omega) (by omega)
  have digits := digits_divide_le x nonzero
  suffices place : -2 ^ 58 ≤ (x.divide y).scale.toInt ∧ (x.divide y).scale.toInt ≤ 2 ^ 58 from
    ⟨by omega, place.1, place.2⟩
  unfold divide
  dsimp only
  split_ifs with plain same
  · omega
  · dsimp only
    omega
  · have some : x.mantissa ≠ 0 := by
      rintro zero
      simp [isZero, zero] at plain
    generalize divided : divideMagnitudes x.mantissa.natAbs y.mantissa.natAbs = answer
    obtain ⟨quotient, places⟩ := answer
    have within := (divideMagnitudes_spec (Int.natAbs_pos.mpr some) (Int.natAbs_pos.mpr nonzero)
      divided).1
    have hundred : quotientDigits = 100 := rfl
    rw [show Digits.count y.mantissa.natAbs = y.digits from rfl] at within
    dsimp only
    rw [toInt_add_ofNat_of_fits (by omega), scale]
    omega

end Decimal

end Calculator
