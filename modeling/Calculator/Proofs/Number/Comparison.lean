import Calculator.Arithmetic
import Calculator.Proofs.Number.Made
import Calculator.Proofs.Number.Quotient
import Calculator.Proofs.Number.Tower
import Mathlib

/-!
# Comparisons

Real numbers are compared on one of three routes: machine integers by sign and magnitude, exact
numbers as ratios, and all others as decimals. Each route gives the order of the rational numbers
that are denoted, and so do the routes together, with one exception: a fraction that is compared with
a decimal is rounded to a hundred digits before, so that the two may count as equal if they agree in
so many digits.
-/

namespace Calculator

variable {x y : Real}

/-! ## Exact numbers -/

/-- Machine words are in the order of their values. -/
theorem compare_magnitude (a b : UInt64) : compare a b = compare (a.toNat : ℤ) b.toNat := by
  change compareOfLessAndEq a b = _
  unfold compareOfLessAndEq
  rcases lt_trichotomy (a.toNat : ℤ) b.toNat with less | same | greater
  · rw [compare_lt_iff_lt.mpr less, if_pos (UInt64.lt_iff_toNat_lt.mpr (Int.ofNat_lt.mp less))]
  · have alike := UInt64.toNat_inj.mp (Int.natCast_inj.mp same)
    rw [compare_eq_iff_eq.mpr same, if_neg (alike ▸ UInt64.lt_irrefl a), if_pos alike]
  · have above := UInt64.lt_iff_toNat_lt.mpr (Int.ofNat_lt.mp greater)
    rw [compare_gt_iff_gt.mpr greater, if_neg (UInt64.lt_asymm above), if_neg]
    rintro rfl
    exact UInt64.lt_irrefl a above

/-- Machine integers are in the order of their values. -/
theorem Word.order_eq (x y : Word) : x.order y = compare x.toInt y.toInt := by
  unfold order
  split <;> rename_i left right
  · have nonneg : 0 ≤ x.toInt := not_lt.mp fun below => by simp [x.negative_iff.mpr below] at left
    exact (compare_gt_iff_gt.mpr ((y.negative_iff.mp right).trans_le nonneg)).symm
  · have nonneg : 0 ≤ y.toInt := not_lt.mp fun below => by simp [y.negative_iff.mpr below] at right
    exact (compare_lt_iff_lt.mpr ((x.negative_iff.mp left).trans_le nonneg)).symm
  · rw [compare_magnitude, toInt, toInt, left, right]
    rfl
  · rw [compare_magnitude, toInt, toInt, left, right, if_pos rfl, if_pos rfl,
      compare_map_anti (f := fun n : ℤ => -n) fun _ _ => neg_lt_neg]

/-- Ratios with positive denominators are in the order of what they denote. -/
theorem Ratio.order_eq {x y : Ratio} (left : 0 < x.denominator) (right : 0 < y.denominator) :
    x.order y = compare x.rational y.rational := by
  have leftCast : (0 : ℚ) < x.denominator := Int.cast_pos.mpr left
  have rightCast : (0 : ℚ) < y.denominator := Int.cast_pos.mpr right
  have above : x.rational * (x.denominator * y.denominator) =
      ((x.numerator * y.denominator : ℤ) : ℚ) := by
    rw [rational, ← mul_assoc, div_mul_cancel₀ _ leftCast.ne', Int.cast_mul]
  have below : y.rational * (x.denominator * y.denominator) =
      ((y.numerator * x.denominator : ℤ) : ℚ) := by
    rw [rational, mul_comm (x.denominator : ℚ), ← mul_assoc, div_mul_cancel₀ _ rightCast.ne',
      Int.cast_mul]
  rw [order, ← compare_map (strictMono_mul_right_of_pos (mul_pos leftCast rightCast)), above, below,
    compare_map Int.cast_strictMono]

namespace Real

/-- An exact number is a ratio with a positive denominator. -/
theorem ratio?_positive {p : ℚ} (denotes : x.rational? = some p) :
    ∃ ratio, x.ratio? = some ratio ∧ 0 < ratio.denominator ∧ ratio.rational = p := by
  obtain ⟨ratio, found, -, same⟩ := ratio?_value denotes
  refine ⟨ratio, found, ?_, same⟩
  cases x with
  | word value =>
    obtain rfl := Option.some.inj found
    exact one_pos
  | wide value =>
    obtain rfl := Option.some.inj found
    exact one_pos
  | fraction value =>
    obtain rfl := Option.some.inj found
    have proper := value.proper
    change (0 : ℤ) < value.denominator
    omega
  | decimal value => cases found

/-- Exact numbers are in the order of what they denote, whatever their kinds. -/
theorem order_exact {p q : ℚ} (left : x.rational? = some p) (right : y.rational? = some q) :
    x.order y = compare p q := by
  obtain ⟨a, found, positive, value⟩ := ratio?_positive left
  obtain ⟨b, found', positive', value'⟩ := ratio?_positive right
  have ratios : a.order b = compare p q := by rw [← value, ← value', Ratio.order_eq positive positive']
  cases x <;> cases y
  case word.word a b =>
    obtain rfl := Option.some.inj left
    obtain rfl := Option.some.inj right
    exact (a.order_eq b).trans (compare_map Int.cast_strictMono _ _).symm
  all_goals
    dsimp only [order]
    rw [found, found']
    exact ratios

/-! ## Decimals and exact numbers -/

/-- The rational number that a number denotes, of whatever kind it is. -/
def denoted : Real → ℚ
  | word value => value.toInt
  | wide value => value.value
  | fraction value => value.numerator / value.denominator
  | decimal value => value.value.rational

/-- An exact number denotes what it denotes as one. -/
theorem denoted_of_rational? {p : ℚ} (denotes : x.rational? = some p) : x.denoted = p := by
  cases x with
  | decimal value => cases denotes
  | _ => exact Option.some.inj denotes

/-- Whether a number is no fraction, or one with a denominator for whose digits there is room in a
scale. -/
def Sized : Real → Prop
  | fraction value => Digits.count value.denominator ≤ 2 ^ 56
  | _ => True

/-- As a decimal a number denotes the same, unless it is a fraction; a fraction is rounded if it is
no decimal of so many digits. -/
theorem rational_toDecimal (sized : x.Sized) :
    x.toDecimal.rational = x.denoted ∨
      (∃ value, x = .fraction value) ∧ Rounds x.denoted x.toDecimal.rational := by
  cases x with
  | word value => exact .inl (Decimal.rational_ofInt _)
  | wide value => exact .inl (Decimal.rational_ofInt _)
  | decimal value => exact .inl rfl
  | fraction value =>
    have proper := value.proper
    have zero : ((0 : Int64)).toInt = 0 := rfl
    have divisor : (Decimal.ofNat value.denominator).Moderate (2 ^ 56) :=
      ⟨by exact_mod_cast sized, by rw [Decimal.ofNat, zero]; decide, by rw [Decimal.ofNat, zero]; decide⟩
    have nonzero : (Decimal.ofNat value.denominator).mantissa ≠ 0 :=
      Int.natCast_ne_zero.mpr (by omega)
    have divided := Decimal.rational_divide (x := .ofInt value.numerator)
      (by rw [Decimal.ofInt, zero]; decide) (by rw [Decimal.ofInt, zero]; decide) divisor nonzero
    rw [Decimal.rational_ofInt, Decimal.rational_ofNat] at divided
    exact divided.imp_right fun rounds => ⟨⟨value, rfl⟩, rounds⟩

/-- A decimal that is made is written with fewer digits than a quotient has. -/
theorem short_of_isMade {value : Rounded} (made : (decimal value).IsMade) :
    Short value.value.rational := by
  have digits : value.precision.digits ≤ 99 := by cases value.precision <;> decide
  have few := ((Rounded.isMade_iff value).mp made).natAbs_lt digits
  refine ⟨_, _, ?_, rfl⟩
  rw [Int.abs_eq_natAbs]
  exact_mod_cast few

/-- Whether a number that another one is rounded to a hundred digits for may come to be equal to it:
the two are different, but by less than the last of these digits. -/
def Near (q g : ℚ) : Prop := q ≠ g ∧ |g - q| ≤ |g| / (2 * 10 ^ 99)

/-- A number that is rounded is still in the same order to a number that fewer digits write, unless it
comes to be equal to it. -/
theorem compare_rounds {q r g : ℚ} (rounds : Rounds q r) (short : Short g) :
    compare r g = compare q g ∨ compare r g = .eq ∧ Near q g := by
  rcases lt_trichotomy q g with less | same | greater
  · rcases (rounds.le_of_le short less.le).lt_or_eq with below | met
    · left
      rw [compare_lt_iff_lt.mpr below, compare_lt_iff_lt.mpr less]
    · exact .inr ⟨compare_eq_iff_eq.mpr met, less.ne, met ▸ rounds.error_le⟩
  · have met : r = g := le_antisymm (rounds.le_of_le short same.le) (rounds.ge_of_ge short same.ge)
    left
    rw [met, same]
  · rcases (rounds.ge_of_ge short greater.le).lt_or_eq with above | met
    · left
      rw [compare_gt_iff_gt.mpr above, compare_gt_iff_gt.mpr greater]
    · exact .inr ⟨compare_eq_iff_eq.mpr met.symm, greater.ne', met ▸ rounds.error_le⟩

/-- Whether two numbers are a fraction and a decimal that are different, but only behind their first
hundred digits. -/
def Blurred (x y : Real) : Prop :=
  (∃ f d, x = .fraction f ∧ y = .decimal d ∧ Near x.denoted y.denoted) ∨
    ∃ d f, x = .decimal d ∧ y = .fraction f ∧ Near y.denoted x.denoted

/-- Numbers that are not both exact are compared as decimals. -/
theorem order_toDecimal (inexact : (∃ value, x = .decimal value) ∨ ∃ value, y = .decimal value) :
    x.order y = compare x.toDecimal.rational y.toDecimal.rational := by
  obtain ⟨value, rfl⟩ | ⟨value, rfl⟩ := inexact
  · cases y <;> exact Decimal.order_eq _ _
  · cases x <;> exact Decimal.order_eq _ _

/-- Exchanging two numbers turns their order around. -/
theorem order_swap (x y : Real) : y.order x = (x.order y).swap := by
  rcases x.exact_or_decimal with ⟨p, left⟩ | inexact
  · rcases y.exact_or_decimal with ⟨q, right⟩ | inexact
    · rw [order_exact left right, order_exact right left]
      exact Std.OrientedOrd.eq_swap
    · rw [order_toDecimal (.inr inexact), order_toDecimal (.inl inexact)]
      exact Std.OrientedOrd.eq_swap
  · rw [order_toDecimal (.inl inexact), order_toDecimal (.inr inexact)]
    exact Std.OrientedOrd.eq_swap

/-- An exact number and a decimal are in the order of what they denote, unless they are blurred. -/
theorem order_mixed {d : Rounded} (made : (decimal d).IsMade) (sized : x.Sized) :
    x.order (.decimal d) = compare x.denoted (decimal d).denoted ∨
      x.order (.decimal d) = .eq ∧ (∃ f, x = .fraction f) ∧ Near x.denoted (decimal d).denoted := by
  rw [order_toDecimal (.inr ⟨d, rfl⟩)]
  rcases rational_toDecimal sized with exact | ⟨fraction, rounds⟩
  · left
    rw [exact]
    rfl
  · exact (compare_rounds rounds (short_of_isMade made)).imp_right
      fun ⟨met, near⟩ => ⟨met, fraction, near⟩

/-- Numbers are in the order of what they denote; only those that are blurred may also count as
equal. -/
theorem order_denoted (madeX : x.IsMade) (madeY : y.IsMade) (sizedX : x.Sized) (sizedY : y.Sized) :
    x.order y = compare x.denoted y.denoted ∨ x.order y = .eq ∧ Blurred x y := by
  rcases x.exact_or_decimal with ⟨p, left⟩ | ⟨d, rfl⟩
  · rcases y.exact_or_decimal with ⟨q, right⟩ | ⟨d, rfl⟩
    · rw [order_exact left right, denoted_of_rational? left, denoted_of_rational? right]
      exact .inl rfl
    · exact (order_mixed madeY sizedX).imp_right
        fun ⟨met, ⟨f, form⟩, near⟩ => ⟨met, .inl ⟨f, d, form, rfl, near⟩⟩
  · rw [order_swap y, Std.OrientedOrd.eq_swap (a := Real.denoted _)]
    rcases order_mixed madeX sizedY with same | ⟨met, ⟨f, form⟩, near⟩
    · rw [same]
      exact .inl rfl
    · rw [met]
      exact .inr ⟨rfl, .inr ⟨d, f, rfl, form, near⟩⟩

end Real

/-! ## Commands -/

/-- What a command that compares asks of the order of its operands. -/
def Command.asks? : Command → Option (Ordering → Bool)
  | .same => some fun order => order == .eq
  | .notEqual => some fun order => order != .eq
  | .less => some fun order => order == .lt
  | .lessOrEqual => some fun order => order != .gt
  | .greater => some fun order => order == .gt
  | .greaterOrEqual => some fun order => order != .lt
  | _ => none

namespace Arithmetic

/-- A command that compares two real numbers answers what it asks of their order. -/
theorem binary_comparison {command : Command} {asked : Ordering → Bool}
    (known : command.asks? = some asked) (x y : Real) (settings : Preferences) :
    binary command (.real x) (.real y) settings = .ok (.ofBool (asked (x.order y))) := by
  cases command <;> simp only [Command.asks?, Option.some.injEq, reduceCtorEq] at known
  all_goals
    subst known
    rfl

/-- Two real numbers always have an order. It is the order of the rational numbers that they denote,
unless they are a fraction and a decimal that agree in their first hundred digits: these may count as
equal instead. Exchanging the numbers turns the order around, and the commands that compare them
answer by it. -/
theorem order_rational (madeX : x.IsMade) (madeY : y.IsMade) (sizedX : x.Sized)
    (sizedY : y.Sized) :
    ∃ order, Arithmetic.order (.real x) (.real y) = .ok order ∧
      (order = compare x.denoted y.denoted ∨ order = .eq ∧ x.Blurred y) ∧
      Arithmetic.order (.real y) (.real x) = .ok order.swap ∧
      ∀ command asked, command.asks? = some asked → ∀ settings,
        binary command (.real x) (.real y) settings = .ok (.ofBool (asked order)) :=
  ⟨x.order y, rfl, Real.order_denoted madeX madeY sizedX sizedY,
    congrArg Except.ok (Real.order_swap x y),
    fun _ _ known settings => binary_comparison known x y settings⟩

/-- A third is above what it is rounded to at seven digits, and the commands know it. -/
theorem order_rational_third :
    let third : Real := .fraction ⟨1, 3, by decide, by decide⟩
    let rounded : Real := .decimal ⟨⟨3333333, 7⟩, .decimal32⟩
    Arithmetic.order (.real third) (.real rounded) = .ok .gt ∧
      Arithmetic.order (.real rounded) (.real third) = .ok .lt ∧
      binary .same (.real third) (.real rounded) {} = .ok (.ofBool false) := by
  intro third rounded
  have made : rounded.IsMade := (Rounded.isMade_iff _).mpr (.inr ⟨by decide, by decide⟩)
  have sized : third.Sized := ((Digits.count_le_iff 3 1 (by decide)).mpr (by decide)).trans (by decide)
  have left : third.denoted = 1 / 3 := by simp [third, Real.denoted]
  have right : rounded.denoted = 3333333 / 10 ^ 7 := by
    have scale : (7 : Int64).toInt = 7 := rfl
    simp [rounded, Real.denoted, Decimal.rational, scale, div_eq_mul_inv]
  obtain ⟨order, found, value, swapped, answers⟩ :=
    order_rational (x := third) (y := rounded) trivial made sized trivial
  have greater : order = .gt := by
    rcases value with value | ⟨-, blurred⟩
    · rw [value, left, right, compare_gt_iff_gt]
      norm_num
    · exfalso
      rcases blurred with ⟨_, _, -, -, -, near⟩ | ⟨_, _, form, -⟩
      · rw [left, right] at near
        norm_num [abs_le] at near
      · simp [third] at form
  subst greater
  exact ⟨found, swapped, answers .same _ rfl {}⟩

/-- A fraction a little above one counts as equal to the decimal one, although it is above the integer
one, to which the decimal is equal. -/
theorem order_blurred :
    let above : Real := .fraction ⟨10 ^ 120 + 1, 10 ^ 120, by norm_num, by norm_num⟩
    let one : Real := .decimal ⟨.one, .decimal64⟩
    one.IsMade ∧ one.denoted < above.denoted ∧
      Arithmetic.order (.real above) (.real one) = .ok .eq ∧
      Arithmetic.order (.real one) (.real (.ofInt 1)) = .ok .eq ∧
      Arithmetic.order (.real above) (.real (.ofInt 1)) = .ok .gt := by
  intro above one
  have unit : one.denoted = 1 := Decimal.rational_one
  have value : above.denoted = (10 ^ 120 + 1) / 10 ^ 120 := by
    simp only [above, Real.denoted]
    norm_num
  -- A hundred digits of the quotient show nothing of the difference.
  have division : Decimal.divideMagnitudes (10 ^ 120 + 1) (10 ^ 120) = (10 ^ 99, 99) := by
    simp [Decimal.divideMagnitudes, Decimal.missingZeros, tenTo, Decimal.quotientDigits,
      Digits.count]
  have rounded : above.toDecimal.rational = 1 := by
    have general : ((Decimal.ofInt (10 ^ 120 + 1)).isZero || (Decimal.ofNat (10 ^ 120)).isOne) =
        false := by
      rw [Bool.or_eq_false_iff, ← Bool.not_eq_true (Decimal.isOne _), Decimal.isOne_iff,
        Decimal.rational_ofNat]
      exact ⟨rfl, by norm_num⟩
    have quotient : above.toDecimal = ⟨10 ^ 99, 99⟩ := by
      have apart : (Decimal.ofInt (10 ^ 120 + 1)).mantissa ≠ (Decimal.ofNat (10 ^ 120)).mantissa := by
        simp [Decimal.ofInt, Decimal.ofNat]
      have digits : Decimal.divideMagnitudes (Decimal.ofInt (10 ^ 120 + 1)).mantissa.natAbs
          (Decimal.ofNat (10 ^ 120)).mantissa.natAbs = (10 ^ 99, 99) := division
      simp only [above, Real.toDecimal, Decimal.divide, general, Bool.false_eq_true, if_false,
        if_neg apart, digits]
      rfl
    have scale : (99 : Int64).toInt = 99 := rfl
    rw [quotient, Decimal.rational, scale]
    norm_num
  refine ⟨(Rounded.isMade_iff _).mpr (.inr ⟨by decide, by decide⟩), ?_, ?_, ?_, ?_⟩
  · rw [value, unit]
    norm_num
  · refine congrArg Except.ok ?_
    rw [Real.order_toDecimal (.inr ⟨_, rfl⟩), rounded, compare_eq_iff_eq]
    exact unit.symm
  · refine congrArg Except.ok ?_
    rw [Real.order_toDecimal (.inl ⟨_, rfl⟩), compare_eq_iff_eq]
    exact unit.trans (Decimal.rational_ofInt 1).symm
  · refine congrArg Except.ok ?_
    rw [Real.order_exact rfl (Real.rational?_ofInt 1), compare_gt_iff_gt]
    norm_num

end Arithmetic

end Calculator
