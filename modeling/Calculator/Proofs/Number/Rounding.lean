import Calculator.Number.Real
import Mathlib

/-!
# Rounding to a tier

Rounding a decimal to a number of digits gives a form from which nothing is left to drop: it
has at most so many digits, and the last one is not zero. Rounding such a form again changes
nothing, also where the scale wraps.
-/

namespace Calculator

namespace Digits

/-- Every number has at least one digit. -/
theorem count_succ (number : Nat) : ∃ further, count number = further + 1 := by
  refine ⟨count number - 1, ?_⟩
  rw [count]
  split
  · rfl
  · split <;> omega

/-- The number of digits is the least one whose power of ten exceeds the number. -/
theorem count_bounds (number : Nat) (positive : 0 < number) :
    10 ^ (count number - 1) ≤ number ∧ number < 10 ^ count number := by
  induction number using count.induct with
  | case1 number small =>
    rw [count, if_pos small]
    exact ⟨positive, small⟩
  | case2 number large short inductionHypothesis =>
    obtain ⟨lower, upper⟩ := inductionHypothesis (by omega)
    obtain ⟨digits, counted⟩ := count_succ (number / 10)
    rw [count, if_neg large, if_pos short, counted]
    rw [counted] at lower upper
    rw [Nat.add_sub_cancel, Nat.le_div_iff_mul_le (by decide), ← Nat.pow_succ] at lower
    rw [Nat.div_lt_iff_lt_mul (by decide), ← Nat.pow_succ] at upper
    rw [Nat.add_sub_cancel_left, Nat.add_comm 1]
    exact ⟨lower, upper⟩
  | case3 number large long inductionHypothesis =>
    obtain ⟨lower, upper⟩ := inductionHypothesis (by omega)
    obtain ⟨digits, counted⟩ := count_succ (number / 10000000000000000)
    have block : 10000000000000000 = 10 ^ 16 := by decide
    rw [count, if_neg large, if_neg long, counted]
    rw [counted] at lower upper
    rw [Nat.add_sub_cancel, Nat.le_div_iff_mul_le (by decide), block, ← Nat.pow_add] at lower
    rw [Nat.div_lt_iff_lt_mul (by decide), block, ← Nat.pow_add] at upper
    rw [← Nat.add_assoc, Nat.add_sub_cancel, Nat.add_comm 16, Nat.add_right_comm]
    exact ⟨lower, upper⟩

/-- A positive number has at most so many digits exactly if it is below that power of ten. -/
theorem count_le_iff (number limit : Nat) (positive : 0 < number) :
    count number ≤ limit ↔ number < 10 ^ limit := by
  obtain ⟨lower, upper⟩ := count_bounds number positive
  constructor
  · intro short
    exact Nat.lt_of_lt_of_le upper (Nat.pow_le_pow_right (by decide) short)
  · intro below
    have strict : count number - 1 < limit :=
      (Nat.pow_lt_pow_iff_right (by decide)).mp (Nat.lt_of_le_of_lt lower below)
    omega

end Digits

namespace Decimal

/-- Dropping zeros from a number below a power of ten finds the one form that does not end in a
zero, if that many zeros may be dropped. -/
theorem dropZeros_factor (limit rest zeros : Nat) (last : rest % 10 ≠ 0) (within : zeros ≤ limit) :
    dropZeros limit (rest * 10 ^ zeros) = (rest, zeros) := by
  induction zeros generalizing limit with
  | zero => cases limit <;> simp [dropZeros, last]
  | succ zeros inductionHypothesis =>
    obtain ⟨limit, rfl⟩ : ∃ previous, limit = previous + 1 := ⟨limit - 1, by omega⟩
    have factor : rest * 10 ^ (zeros + 1) = rest * 10 ^ zeros * 10 := by
      rw [Nat.pow_succ, Nat.mul_assoc]
    rw [dropZeros, factor, if_pos (Nat.mul_mod_left _ 10), Nat.mul_div_cancel _ (by decide),
      inductionHypothesis limit (by omega)]

/-- Every positive number is a power of ten times a number that does not end in a zero. -/
theorem exists_factor (number : Nat) (positive : 0 < number) :
    ∃ rest zeros, number = rest * 10 ^ zeros ∧ rest % 10 ≠ 0 := by
  induction number using Nat.strong_induction_on with
  | h number inductionHypothesis =>
    by_cases last : number % 10 = 0
    · obtain ⟨rest, zeros, factor, nonzero⟩ :=
        inductionHypothesis (number / 10) (by omega) (by omega)
      refine ⟨rest, zeros + 1, ?_, nonzero⟩
      rw [Nat.pow_succ, ← Nat.mul_assoc, ← factor]
      omega
    · exact ⟨number, 0, by simp, last⟩

/-- A number without its trailing zeros is not larger, nor is the power of ten of the zeros. -/
theorem factor_bounds {number rest zeros : Nat} (factor : number = rest * 10 ^ zeros)
    (positive : 0 < rest) : rest ≤ number ∧ 10 ^ zeros ≤ number := by
  rw [factor]
  exact ⟨Nat.le_mul_of_pos_right _ (Nat.pow_pos (by decide)), Nat.le_mul_of_pos_left _ positive⟩

/-- A magnitude with the sign of another number is that magnitude. -/
theorem natAbs_sign_mul {mantissa : Int} (nonzero : mantissa ≠ 0) (rest : Nat) :
    (mantissa.sign * (rest : Int)).natAbs = rest := by
  rw [Int.natAbs_mul, Int.natAbs_sign_of_ne_zero nonzero, Int.natAbs_natCast, Nat.one_mul]

/-- Zeros at the end of a mantissa make it larger and keep its sign. -/
theorem mantissa_tenTo (mantissa : Int) (zeros : Nat) :
    (mantissa * tenTo zeros).natAbs = mantissa.natAbs * 10 ^ zeros ∧
      (mantissa * tenTo zeros).sign = mantissa.sign := by
  have power : 0 < tenTo zeros := Nat.pow_pos (by decide)
  constructor
  · rw [Int.natAbs_mul, Int.natAbs_natCast]
    rfl
  · rw [Int.sign_mul, Int.sign_eq_one_of_pos (by omega : (0 : Int) < tenTo _), Int.mul_one]

/-- The form without trailing zeros of a mantissa that is given with its zeros. -/
theorem normalized_factor (x : Decimal) (rest zeros : Nat)
    (factor : x.mantissa.natAbs = rest * 10 ^ zeros) (last : rest % 10 ≠ 0) :
    x.normalized = ⟨x.mantissa.sign * rest, x.scale - Int64.ofNat zeros⟩ := by
  have positive : 0 < rest := by omega
  have nonzero : x.isZero = false := by
    have product : 0 < rest * 10 ^ zeros := Nat.mul_pos positive (Nat.pow_pos (by decide))
    simp only [isZero, beq_eq_false_iff_ne]
    omega
  have enough : zeros ≤ x.digits := by
    have single := (factor_bounds factor positive).2
    have below := (Digits.count_bounds x.mantissa.natAbs
      (Nat.lt_of_lt_of_le (Nat.pow_pos (by decide)) single)).2
    exact Nat.le_of_lt ((Nat.pow_lt_pow_iff_right (by decide)).mp (Nat.lt_of_le_of_lt single below))
  simp only [normalized, nonzero, Bool.false_eq_true, if_false]
  rw [factor, dropZeros_factor x.digits rest zeros last enough]

/-- Whether a decimal is what rounding to a number of digits gives: zero with the scale zero, or
a mantissa of at most so many digits that does not end in a zero. -/
def Settled (count : Nat) (x : Decimal) : Prop :=
  x = zero ∨ x.mantissa.natAbs % 10 ≠ 0 ∧ x.mantissa.natAbs < 10 ^ count

/-- Cutting the excess digits of a mantissa and rounding keeps its sign, does not make it larger
and gives a power of ten at most. -/
theorem cut_bounds (mantissa : Int) (unit count : Nat) (several : 10 ≤ unit)
    (covered : unit ≤ mantissa.natAbs) (below : mantissa.natAbs < 10 ^ count * unit) :
    let cut := if (unit : Int) ≤ 2 * mantissa.tmod unit then mantissa.tdiv unit + 1
      else mantissa.tdiv unit
    cut.sign = mantissa.sign ∧ cut.natAbs ≤ mantissa.natAbs ∧ cut.natAbs ≤ 10 ^ count := by
  have quotient : mantissa.natAbs / unit < 10 ^ count :=
    (Nat.div_lt_iff_lt_mul (by omega)).mpr below
  have positive : 0 < mantissa.natAbs / unit := Nat.div_pos covered (by omega)
  have smaller : mantissa.natAbs / unit < mantissa.natAbs :=
    Nat.div_lt_self (by omega) (by omega)
  rcases Int.lt_or_gt_of_ne (show mantissa ≠ 0 by omega) with negative | above
  · obtain ⟨magnitude, rfl⟩ : ∃ magnitude : Nat, mantissa = -magnitude :=
      ⟨mantissa.natAbs, by omega⟩
    rw [Int.natAbs_neg, Int.natAbs_natCast] at quotient positive smaller
    have rest : 0 ≤ ((magnitude : Int) % unit) := Int.emod_nonneg _ (by omega)
    have truncated : ((-(magnitude : Int)).tdiv unit) = -((magnitude / unit : Nat) : Int) := by
      rw [Int.neg_tdiv, ← Int.ofNat_tdiv]
    have remainder : ((-(magnitude : Int)).tmod unit) = -((magnitude : Int) % unit) := by
      rw [Int.neg_tmod, Int.tmod_eq_emod_of_nonneg (by omega)]
    simp only
    rw [truncated, remainder, if_neg (by omega), Int.sign_eq_neg_one_of_neg negative,
      Int.sign_eq_neg_one_of_neg (by omega)]
    omega
  · obtain ⟨magnitude, rfl⟩ : ∃ magnitude : Nat, mantissa = magnitude :=
      ⟨mantissa.natAbs, by omega⟩
    rw [Int.natAbs_natCast] at quotient positive smaller
    simp only
    rw [← Int.ofNat_tdiv, Int.sign_eq_one_of_pos above]
    split
    · rw [Int.sign_eq_one_of_pos (by omega)]
      omega
    · rw [Int.sign_eq_one_of_pos (by omega)]
      omega

/-- Whether a decimal comes of another one by dropping digits, at most as many as there are, so
that what is left is settled, of the same sign and not longer. -/
def Shortened (count : Nat) (x y : Decimal) : Prop :=
  ∃ rest dropped : Nat, y = ⟨x.mantissa.sign * rest, x.scale - Int64.ofNat dropped⟩ ∧
    rest % 10 ≠ 0 ∧ rest < 10 ^ count ∧ rest ≤ x.mantissa.natAbs ∧ dropped ≤ x.digits

/-- Cutting the excess digits of a decimal. -/
theorem withDigits_of_lt {x : Decimal} {count : Nat} (nonzero : x.mantissa ≠ 0)
    (counted : 0 < count) (excessive : count < x.digits) :
    ∃ cut : Int, x.withDigits count = ⟨cut, x.scale - Int64.ofNat (x.digits - count)⟩ ∧
      cut.sign = x.mantissa.sign ∧ cut.natAbs ≤ x.mantissa.natAbs ∧ cut.natAbs ≤ 10 ^ count := by
  have positive : 0 < x.mantissa.natAbs := by omega
  obtain ⟨lower, upper⟩ := Digits.count_bounds x.mantissa.natAbs positive
  rw [withDigits, if_pos excessive]
  refine ⟨_, rfl, ?_⟩
  have covered : tenTo (x.digits - count) ≤ x.mantissa.natAbs :=
    Nat.le_trans (Nat.pow_le_pow_right (by decide) (by simp only [digits]; omega)) lower
  have several : 10 ≤ tenTo (x.digits - count) :=
    Nat.le_self_pow (by omega) 10
  have below : x.mantissa.natAbs < 10 ^ count * tenTo (x.digits - count) := by
    rw [tenTo, Nat.pow_eq, ← Nat.pow_add, Nat.add_sub_cancel' (Nat.le_of_lt excessive)]
    exact upper
  exact cut_bounds x.mantissa _ count several covered below

/-- Rounding a decimal with excess digits cuts these off, and the zeros that then are at the
end. -/
theorem shortened_of_lt {x : Decimal} {count : Nat} (nonzero : x.mantissa ≠ 0) (counted : 0 < count)
    (excessive : count < x.digits) : Shortened count x (x.withDigits count).normalized := by
  obtain ⟨cut, form, sign, smaller, limited⟩ := withDigits_of_lt nonzero counted excessive
  have kept : 0 < cut.natAbs := by
    have signed : x.mantissa.sign ≠ 0 := by simpa [Int.sign_eq_zero_iff_zero] using nonzero
    rw [← sign] at signed
    have apart : cut ≠ 0 := by simpa [Int.sign_eq_zero_iff_zero] using signed
    omega
  obtain ⟨rest, zeros, factor, last⟩ := exists_factor cut.natAbs kept
  obtain ⟨notLonger, single⟩ := factor_bounds factor (by omega)
  have fewer : zeros ≤ count :=
    (Nat.pow_le_pow_iff_right (by decide)).mp (Nat.le_trans single limited)
  rw [form]
  refine ⟨rest, x.digits - count + zeros, ?_, last, ?_, by omega, by omega⟩
  · rw [normalized_factor _ rest zeros factor last, sign, Int64.ofNat_add, Int64.sub_sub]
  · refine Nat.lt_of_le_of_ne (by omega) ?_
    rintro rfl
    exact last (Nat.mod_eq_zero_of_dvd (dvd_pow_self 10 (by omega)))

/-- Rounding a decimal without excess digits fills zeros in, and drops these and its own. -/
theorem normalized_withDigits {x : Decimal} {count rest zeros : Nat} (enough : x.digits ≤ count)
    (factor : x.mantissa.natAbs = rest * 10 ^ zeros) (last : rest % 10 ≠ 0) :
    (x.withDigits count).normalized =
      ⟨x.mantissa.sign * rest, x.scale - Int64.ofNat zeros⟩ := by
  obtain ⟨padded, sign⟩ := mantissa_tenTo x.mantissa (count - x.digits)
  rw [factor, Nat.mul_assoc, ← Nat.pow_add] at padded
  rw [withDigits, if_neg (Nat.not_lt.mpr enough), normalized_factor _ rest _ padded last, sign,
    Int64.ofNat_add, Int64.add_comm (Int64.ofNat zeros), ← Int64.sub_sub, Int64.add_sub_cancel]

/-- Rounding a decimal without excess digits only drops zeros. -/
theorem shortened_of_le {x : Decimal} {count : Nat} (nonzero : x.mantissa ≠ 0)
    (enough : x.digits ≤ count) : Shortened count x (x.withDigits count).normalized := by
  have positive : 0 < x.mantissa.natAbs := by omega
  have upper := (Digits.count_bounds x.mantissa.natAbs positive).2
  obtain ⟨rest, zeros, factor, last⟩ := exists_factor x.mantissa.natAbs positive
  obtain ⟨notLonger, single⟩ := factor_bounds factor (by omega)
  refine ⟨rest, zeros, normalized_withDigits enough factor last, last, ?_, notLonger, ?_⟩
  · exact Nat.lt_of_le_of_lt notLonger
      (Nat.lt_of_lt_of_le upper (Nat.pow_le_pow_right (by decide) enough))
  · exact Nat.le_of_lt ((Nat.pow_lt_pow_iff_right (by decide)).mp (Nat.lt_of_le_of_lt single upper))

/-- What rounding does to a value that is not zero. -/
theorem rounded_shape (x : Decimal) (count : Nat) (nonzero : x.mantissa ≠ 0)
    (counted : 0 < count) : Shortened count x (x.withDigits count).normalized := by
  rcases Nat.lt_or_ge count x.digits with excessive | enough
  · exact shortened_of_lt nonzero counted excessive
  · exact shortened_of_le nonzero enough

/-- A settled decimal is rounded to itself. -/
theorem rounded_of_settled (x : Decimal) (count : Nat) (nonzero : x.mantissa ≠ 0)
    (settled : x.Settled count) : (x.withDigits count).normalized = x := by
  obtain rfl | ⟨last, below⟩ := settled
  · exact absurd rfl nonzero
  · have short : x.digits ≤ count := (Digits.count_le_iff _ count (by omega)).mpr below
    have single : x.mantissa.natAbs = x.mantissa.natAbs * 10 ^ 0 := by rw [Nat.pow_zero, Nat.mul_one]
    rw [normalized_withDigits short single last, Int.sign_mul_natAbs]
    cases x
    simp

end Decimal

namespace Rounded

/-- A decimal of a tier that rounding gives. -/
def IsMade (rounded : Rounded) : Prop := ∃ value, rounded = make value rounded.precision

/-- Rounding settles every value. -/
theorem make_settled (value : Decimal) (precision : Precision) :
    (make value precision).value.Settled precision.digits := by
  rw [make]
  by_cases zero : value.mantissa = 0
  · have isZero : value.isZero = true := by simpa [Decimal.isZero] using zero
    rw [if_pos isZero]
    exact .inl rfl
  · have isZero : ¬ value.isZero = true := by simpa [Decimal.isZero] using zero
    have counted : 0 < precision.digits := by cases precision <;> decide
    obtain ⟨rest, dropped, form, last, below, -, -⟩ :=
      Decimal.rounded_shape value precision.digits zero counted
    rw [if_neg isZero, form]
    have magnitude := Decimal.natAbs_sign_mul zero rest
    refine .inr ⟨?_, ?_⟩
    · simpa only [magnitude] using last
    · simpa only [magnitude] using below

/-- Rounding a settled value changes nothing. -/
theorem make_of_settled (value : Decimal) (precision : Precision)
    (settled : value.Settled precision.digits) :
    make value precision = ⟨value, precision⟩ := by
  rw [make]
  by_cases zero : value.mantissa = 0
  · obtain rfl | ⟨last, -⟩ := settled
    · rfl
    · exact absurd (by simp [zero]) last
  · have isZero : ¬ value.isZero = true := by simpa [Decimal.isZero] using zero
    rw [if_neg isZero, Decimal.rounded_of_settled value _ zero settled]

/-- Rounding is idempotent, so a decimal that rounding gives is rounded to itself. -/
theorem make_of_isMade {rounded : Rounded} (made : rounded.IsMade) :
    make rounded.value rounded.precision = rounded := by
  obtain ⟨value, form⟩ := made
  have settled := make_settled value rounded.precision
  rw [← form] at settled
  exact make_of_settled rounded.value rounded.precision settled

end Rounded

end Calculator
