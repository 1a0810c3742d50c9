import Calculator.Proofs.Number.Digits
import Calculator.Proofs.Number.Power
import Calculator.Proofs.Number.Root
import Mathlib

/-!
# Exact exponents

A power with an integer exponent is tried on machine integers, on integers of any size and on ratios,
and each of them has its own limits. What comes of all three together depends on the base and the
exponent alone: the exact power while its parts are of bearable size, and for one and minus one with
every exponent that is not negative. A power with another exact exponent is one of a root, if the
base has that root.
-/

namespace Calculator

/-! ## Sizes -/

/-- A number has as many binary digits as the power of two above it says. -/
theorem Digits.binaryCount_le_iff (number limit : ℕ) :
    binaryCount number ≤ limit ↔ number < 2 ^ limit := by
  unfold binaryCount
  by_cases zero : number = 0
  · simp [zero]
  · rw [if_neg zero, Nat.add_one_le_iff, Nat.log2_lt zero]

/-- The binary digits of the longer part of a rational number in lowest terms. -/
def bitLength (q : ℚ) : ℕ := max (Digits.binaryCount q.num.natAbs) (Digits.binaryCount q.den)

/-- The sign of a number does not count. -/
theorem bitLength_neg (q : ℚ) : bitLength (-q) = bitLength q := by
  simp [bitLength]

/-- A number without its sign is as long as the number. -/
theorem bitLength_abs (q : ℚ) : bitLength |q| = bitLength q := by
  rcases abs_choice q with same | opposite
  · rw [same]
  · rw [opposite, bitLength_neg]

/-- The inverse has the same parts. -/
theorem bitLength_inv {q : ℚ} (nonzero : q ≠ 0) : bitLength q⁻¹ = bitLength q := by
  have upper : q⁻¹.num.natAbs = q.den := by
    simp [Rat.num_inv, Int.natAbs_mul, Int.natAbs_sign_of_ne_zero, nonzero]
  rw [bitLength, upper, Rat.den_inv_of_ne_zero nonzero, bitLength, max_comm]

/-- An integer other than zero is longer than its denominator. -/
theorem bitLength_intCast {value : ℤ} (nonzero : value ≠ 0) :
    bitLength value = Digits.binaryCount value.natAbs := by
  have one : Digits.binaryCount 1 = 1 := rfl
  have some : ¬ Digits.binaryCount value.natAbs ≤ 0 := by
    rw [Digits.binaryCount_le_iff]
    omega
  rw [bitLength, Rat.num_intCast, Rat.den_intCast, one]
  omega

/-- The numbers one and minus one are one digit long. -/
theorem bitLength_unit {q : ℚ} (unit : |q| = 1) : bitLength q = 1 := by
  rw [← bitLength_abs, unit]
  rfl

/-- Powers of a number that is one digit long fit while the exponent does. -/
theorem powerFits_single {bits exponent : ℕ} (single : bits = 1) (bounded : exponent ≤ powerBits) :
    powerFits bits exponent = true := by
  have small : exponent < UInt32.size := bounded.trans_lt (by decide)
  simp [powerFits, single, bounded, small]

/-- What fits with an exponent fits with a smaller one. -/
theorem powerFits_mono {bits lower upper : ℕ} (fits : powerFits bits upper = true)
    (ordered : lower ≤ upper) : powerFits bits lower = true := by
  simp only [powerFits, Bool.and_eq_true, decide_eq_true_eq] at fits ⊢
  constructor
  · omega
  · exact (Nat.mul_le_mul_left bits ordered).trans fits.2

/-! ## Ratios -/

namespace Ratio

variable {p r e : ℚ}

/-- Powers of zero are known by the sign of the exponent. -/
theorem power_zero (e : ℚ) :
    power (ofRational 0) (ofRational e) =
      if e = 0 then .error .undefinedOperation
      else if e < 0 then .error .divideByZero
      else .ok (some (.ofInt 0)) := by
  simp [power, ofRational]

/-- The quotient of powers of the parts is the power, upside down if the exponent is negative. -/
theorem ofQuotient_powers (nonzero : r ≠ 0) (exponent : ℤ) :
    (if exponent < 0 then
      Real.ofQuotient (exactPower r.den exponent.natAbs) (exactPower r.num exponent.natAbs)
    else Real.ofQuotient (exactPower r.num exponent.natAbs) (exactPower r.den exponent.natAbs)) =
      .ok (.ofRational (r ^ exponent)) := by
  have above : r.num ^ exponent.natAbs ≠ 0 := pow_ne_zero _ (Rat.num_ne_zero.mpr nonzero)
  have below : (r.den : ℤ) ^ exponent.natAbs ≠ 0 :=
    pow_ne_zero _ (Int.natCast_ne_zero.mpr r.den_ne_zero)
  have power : ((r.num ^ exponent.natAbs : ℤ) : ℚ) / (((r.den : ℤ) ^ exponent.natAbs : ℤ) : ℚ) =
      r ^ exponent.natAbs := by
    push_cast
    rw [← div_pow, Rat.num_div_den]
  rw [exactPower_eq, exactPower_eq]
  by_cases negative : exponent < 0
  · have value : exponent = -(exponent.natAbs : ℤ) := by omega
    rw [if_pos negative, Real.ofQuotient_eq above, ← inv_div, power, ← zpow_natCast, ← zpow_neg,
      ← value]
  · have value : exponent = (exponent.natAbs : ℤ) := by omega
    rw [if_neg negative, Real.ofQuotient_eq below, power, ← zpow_natCast, ← value]

/-- The roots of the two parts of a number that an exponent with a denominator asks for. -/
def roots? (p : ℚ) (degree : ℤ) : Option (ℤ × ℤ) :=
  if degree = 1 then some (p.num, p.den)
  else if degree < 0 || (largestDegree : ℤ) < degree then none
  else
    match exactRoot? p.num degree.natAbs, exactRoot? p.den degree.natAbs with
    | some above, some below => some (above, below)
    | _, _ => none

/-- A power is one of the roots of both parts, if the base has them. -/
theorem power_of_roots (nonzero : p ≠ 0) (e : ℚ) :
    power (ofRational p) (ofRational e) =
      match roots? p e.den with
      | none => .ok none
      | some (above, below) =>
        if powerFits (max (Digits.binaryCount above.natAbs) (Digits.binaryCount below.natAbs))
            e.num.natAbs then
          (if e.num < 0 then
            Real.ofQuotient (exactPower below e.num.natAbs) (exactPower above e.num.natAbs)
          else Real.ofQuotient (exactPower above e.num.natAbs) (exactPower below e.num.natAbs)).map
            some
        else .error .outOfMemory :=
  if_neg (Rat.num_ne_zero.mpr nonzero)

/-- A number is its own first root. -/
theorem roots?_one (p : ℚ) : roots? p 1 = some (p.num, (p.den : ℤ)) := if_pos rfl

/-- Where the number has the root that is asked for, its parts are found. -/
theorem roots?_of_root {degree : ℕ} (positive : degree ≠ 0) (small : degree ≤ largestDegree)
    (nonneg : 0 ≤ r) (root : r ^ degree = p) : roots? p degree = some (r.num, (r.den : ℤ)) := by
  by_cases whole : degree = 1
  · rw [whole, pow_one] at root
    rw [whole, root, Nat.cast_one, roots?_one]
  · obtain ⟨upper, lower⟩ := exactRoots_of_root positive nonneg root
    have inside : ¬ (largestDegree : ℤ) < degree := by omega
    simp [roots?, whole, inside, upper, lower]

/-- Where the number lacks the root that is asked for, none are found. -/
theorem roots?_of_no_root {degree : ℕ} (proper : 1 < degree)
    (none : ∀ r : ℚ, 0 ≤ r → r ^ degree ≠ p) : roots? p degree = .none := by
  unfold roots?
  rw [if_neg (by omega), Int.natAbs_natCast]
  by_cases outside : (degree : ℤ) < 0 || (largestDegree : ℤ) < degree
  · rw [if_pos outside]
  · rw [if_neg outside]
    split
    · rename_i upper lower
      obtain ⟨nonneg, root⟩ := root_of_exactRoots (by omega) upper lower
      exact absurd root (none _ nonneg)
    · rfl

/-- Where the base has the root that the exponent asks for, the power is one of the root. -/
theorem power_of_root (nonzero : p ≠ 0) (root : r ^ e.den = p)
    (found : roots? p e.den = some (r.num, (r.den : ℤ))) :
    power (ofRational p) (ofRational e) =
      if powerFits (bitLength r) e.num.natAbs then .ok (some (.ofRational (r ^ e.num)))
      else .error .outOfMemory := by
  have apart : r ≠ 0 := by
    rintro rfl
    exact nonzero (root.symm.trans (zero_pow e.den_ne_zero))
  rw [power_of_roots nonzero, found]
  simp only [ofQuotient_powers apart, Int.natAbs_natCast]
  rfl

/-- A power with an integer exponent is one of the base itself. -/
theorem power_intCast (nonzero : p ≠ 0) (exponent : ℤ) :
    power (ofRational p) (ofRational exponent) =
      if powerFits (bitLength p) exponent.natAbs then .ok (some (.ofRational (p ^ exponent)))
      else .error .outOfMemory := by
  have raised := power_of_root (e := exponent) nonzero (pow_one p) (roots?_one p)
  rwa [Rat.num_intCast] at raised

/-- Where the base lacks the root that the exponent asks for, the power is left to the decimals. -/
theorem power_of_no_root (nonzero : p ≠ 0) (proper : 1 < e.den)
    (none : ∀ r : ℚ, 0 ≤ r → r ^ e.den ≠ p) :
    power (ofRational p) (ofRational e) = .ok .none := by
  rw [power_of_roots nonzero, roots?_of_no_root proper none]

end Ratio

/-! ## Integer exponents -/

/-- Whether a power with an integer exponent is of bearable size. Powers of zero always are, those of
one and minus one if the exponent is not negative, and all others while the digits of the longer part
and the exponent stay within the limits. -/
def IsBearable (p : ℚ) (exponent : ℤ) : Prop :=
  p = 0 ∨ |p| = 1 ∧ 0 ≤ exponent ∨ powerFits (bitLength p) exponent.natAbs = true

instance (p : ℚ) (exponent : ℤ) : Decidable (IsBearable p exponent) :=
  inferInstanceAs (Decidable (_ ∨ _ ∧ _ ∨ _))

/-- What comes of a power of an exact number with an integer exponent: the exact power, unless it is
not defined or too large to be computed. -/
def powerResult (p : ℚ) (exponent : ℤ) : Outcome Real :=
  if p = 0 ∧ exponent = 0 then .error .undefinedOperation
  else if p = 0 ∧ exponent < 0 then .error .divideByZero
  else if IsBearable p exponent then .ok (.ofRational (p ^ exponent))
  else .error .outOfMemory

/-- A power of zero is zero, if the exponent is positive. -/
theorem powerResult_zero {exponent : ℤ} (positive : 0 < exponent) :
    powerResult 0 exponent = .ok (.ofInt 0) := by
  have apart : exponent ≠ 0 := by omega
  have above : ¬ exponent < 0 := by omega
  simp [powerResult, IsBearable, apart, above, zero_zpow]
  rfl

/-- A power of another number is computed if it is of bearable size. -/
theorem powerResult_of_ne_zero {p : ℚ} (nonzero : p ≠ 0) (exponent : ℤ) :
    powerResult p exponent =
      if IsBearable p exponent then .ok (.ofRational (p ^ exponent)) else .error .outOfMemory := by
  simp [powerResult, nonzero]

/-- A power that is computed is the exact power, and of bearable size. -/
theorem powerResult_eq_ok {p : ℚ} {n : ℤ} {z : Real} (done : powerResult p n = .ok z) :
    IsBearable p n ∧ z = .ofRational (p ^ n) := by
  unfold powerResult at done
  split_ifs at done with _ _ bearable
  exact ⟨bearable, (Except.ok.inj done).symm⟩

/-- A number of which a power is of bearable size is of bearable size itself. -/
theorem IsBearable.fits_one {p : ℚ} {n : ℤ} (bearable : IsBearable p n) (nonzero : n ≠ 0) :
    powerFits (bitLength p) 1 = true := by
  have within : 1 ≤ powerBits := by decide
  rcases bearable with rfl | ⟨unit, -⟩ | fits
  · exact powerFits_single rfl within
  · exact powerFits_single (bitLength_unit unit) within
  · exact powerFits_mono fits (by omega)

/-- An integer is a unit as a rational number if its magnitude is one. -/
theorem Integer.abs_cast_eq_one {base : ℤ} : |(base : ℚ)| = 1 ↔ base.natAbs = 1 := by
  rw [← Int.cast_abs, Int.abs_eq_natAbs]
  norm_cast

/-- The power of a unit is known by the sign and by the parity of the exponent. -/
theorem Integer.unit_power {base : ℤ} (unit : base.natAbs = 1) (count : ℕ) :
    (if base < 0 && (count : ℤ) % 2 == 1 then -1 else 1) = base ^ count := by
  have odd : ((count : ℤ) % 2 == 1) = decide (count % 2 = 1) := by
    rw [Bool.eq_iff_iff, beq_iff_eq, decide_eq_true_eq]
    omega
  rw [odd]
  rcases Int.natAbs_eq base with positive | negative
  · rw [positive, unit]
    simp
  · rw [negative, unit]
    rcases Nat.even_or_odd count with even | odd
    · simp [Nat.even_iff.mp even, even.neg_pow]
    · simp [Nat.odd_iff.mp odd, odd.neg_pow]

/-- The power of an integer with an exponent that is not negative. -/
theorem Integer.power_eq (base : ℤ) {exponent : ℤ} (nonneg : 0 ≤ exponent) :
    power base exponent = powerResult base exponent := by
  obtain ⟨count, rfl⟩ := Int.eq_ofNat_of_zero_le nonneg
  unfold power
  rw [if_neg (by omega)]
  by_cases zero : base = 0
  · subst zero
    by_cases none : count = 0
    · simp [none, powerResult]
    · rw [if_pos rfl, if_neg (by omega), Int.cast_zero, powerResult_zero (by omega)]
  · have nonzero : (base : ℚ) ≠ 0 := Int.cast_ne_zero.mpr zero
    rw [if_neg zero, powerResult_of_ne_zero nonzero, zpow_natCast, ← Int.cast_pow,
      Real.ofRational_intCast, Int.natAbs_natCast]
    by_cases unit : base.natAbs = 1
    · have bearable : IsBearable base count := .inr (.inl ⟨abs_cast_eq_one.mpr unit, nonneg⟩)
      rw [if_pos unit, if_pos bearable, unit_power unit]
    · have fits : IsBearable base count ↔
          powerFits (Digits.binaryCount base.natAbs) count = true := by
        simp [IsBearable, nonzero, abs_cast_eq_one, unit, bitLength_intCast zero]
      simp only [if_neg unit, fits, exactPower_eq]

/-- The power of a ratio with an integer exponent, where the units have no privilege. -/
theorem Ratio.power_eq (p : ℚ) {exponent : ℤ} (regular : ¬ (|p| = 1 ∧ 0 ≤ exponent)) :
    power (ofRational p) (ofRational exponent) = (powerResult p exponent).map some := by
  by_cases zero : p = 0
  · subst zero
    rw [power_zero]
    by_cases none : exponent = 0
    · simp [none, powerResult, Except.map]
    · by_cases negative : exponent < 0
      · simp [none, negative, powerResult, Except.map]
      · rw [powerResult_zero (by omega)]
        simp [none, negative, Except.map]
  · have fits : IsBearable p exponent ↔ powerFits (bitLength p) exponent.natAbs = true := by
      simp only [IsBearable, zero, regular, false_or]
    rw [power_intCast zero, powerResult_of_ne_zero zero]
    simp only [fits]
    split <;> rfl

/-- A power of a magnitude that fits a word is of bearable size. -/
theorem Word.isBearable_power {x result : Word} {exponent : UInt64}
    (fits : x.power? exponent = some result) : IsBearable x.toInt exponent.toNat := by
  have value := toInt_power fits
  have small (word : Word) : word.toInt.natAbs < 2 ^ 64 := by
    rw [← toNat_magnitude]
    exact word.magnitude.toNat_lt
  by_cases zero : x.toInt = 0
  · exact .inl (Int.cast_eq_zero.mpr zero)
  by_cases unit : x.toInt.natAbs = 1
  · exact .inr (.inl ⟨Integer.abs_cast_eq_one.mpr unit, Int.natCast_nonneg _⟩)
  · have several : 2 ≤ x.toInt.natAbs := by omega
    have few : exponent.toNat < 64 := by
      apply (Nat.pow_lt_pow_iff_right (by norm_num : 1 < 2)).mp
      calc 2 ^ exponent.toNat
        _ ≤ x.toInt.natAbs ^ exponent.toNat := Nat.pow_le_pow_left several _
        _ = result.toInt.natAbs := by rw [value, Int.natAbs_pow]
        _ < 2 ^ 64 := small result
    have short : Digits.binaryCount x.toInt.natAbs ≤ 64 :=
      (Digits.binaryCount_le_iff _ _).mpr (small x)
    refine .inr (.inr ?_)
    rw [bitLength_intCast zero, Int.natAbs_natCast]
    simp only [powerFits, Bool.and_eq_true, decide_eq_true_eq]
    constructor
    · exact few.trans (by decide)
    · exact (Nat.mul_le_mul short few.le).trans (by decide)

/-- A power tried on machine integers is the power, or it is left to integers of any size. -/
theorem Word.power_keepsTo (x y : Word) :
    KeepsTo (Real.operateWords .power x y) Real.word (powerResult x.toInt y.toInt) := by
  have attempt : Real.operateWords .power x y =
      if y.negative then .ok none
      else if x.isZero && y.isZero then .error .undefinedOperation
      else .ok (x.power? y.magnitude) := rfl
  rw [attempt]
  by_cases negative : y.negative = true
  · rw [if_pos negative]
    exact .inl rfl
  · rw [if_neg negative]
    have exponent : y.toInt = (y.magnitude.toNat : ℤ) := by
      rw [toInt, if_neg negative]
    by_cases zeros : (x.isZero && y.isZero) = true
    · rw [if_pos zeros]
      obtain ⟨base, none⟩ := Bool.and_eq_true_iff.mp zeros
      rw [isZero_iff] at base none
      right
      simp [base, none, powerResult, Except.map]
    · rw [if_neg zeros]
      cases fits : x.power? y.magnitude with
      | none => exact .inl rfl
      | some result =>
        right
        have value := toInt_power fits
        have bearable := isBearable_power fits
        have defined : ¬ ((x.toInt : ℚ) = 0 ∧ y.toInt = 0) := by
          rw [Int.cast_eq_zero, ← isZero_iff, ← isZero_iff, ← Bool.and_eq_true_iff]
          exact zeros
        have above : ¬ ((x.toInt : ℚ) = 0 ∧ y.toInt < 0) := by omega
        rw [powerResult, if_neg defined, if_neg above, exponent, if_pos bearable, zpow_natCast,
          ← Int.cast_pow, ← value, Real.ofRational_intCast, Real.ofInt_toInt]
        rfl

namespace Real

variable {x y : Real} {p e : ℚ} {settings : Preferences}

/-- The result of an operation on exact numbers, tried on ratios. -/
theorem operateRatios_power (base : x.rational? = some p) (exponent : y.rational? = some e)
    (symbolic : settings.numericalResults = false) :
    operateRatios .power x y settings =
      (Ratio.power (.ofRational p) (.ofRational e) >>= fun answer =>
        answer.elim (operateDecimals .power x y settings) .ok) := by
  rw [operateRatios, ratio?_eq base, ratio?_eq exponent]
  refine bind_congr fun answer => ?_
  cases answer with
  | none => rfl
  | some result => exact congrArg Except.ok (finished_eq symbolic result)

/-- A power of an exact number with an integer exponent, tried on ratios. -/
theorem operateRatios_power_ofInt (base : x.rational? = some p) {n : ℤ}
    (regular : ¬ (|p| = 1 ∧ 0 ≤ n)) (symbolic : settings.numericalResults = false) :
    operateRatios .power x (ofInt n) settings = powerResult p n := by
  rw [operateRatios_power base (rational?_ofInt n) symbolic, Ratio.power_eq p regular]
  cases powerResult p n <;> rfl

/-- A power of an exact number with an integer exponent, tried on integers. -/
theorem operateIntegers_power (base : x.rational? = some p) (n : ℤ)
    (symbolic : settings.numericalResults = false) :
    operateIntegers .power x (ofInt n) settings = powerResult p n := by
  have ratios (regular : ¬ (|p| = 1 ∧ 0 ≤ n)) := operateRatios_power_ofInt base regular symbolic
  cases integer : x.toInt? with
  | none =>
    have proper : |p| ≠ 1 := by
      intro unit
      obtain ⟨value, rfl⟩ : ∃ value : ℤ, p = value := by
        rcases eq_or_eq_neg_of_abs_eq unit with rfl | rfl
        · exact ⟨1, Int.cast_one.symm⟩
        · exact ⟨-1, by simp⟩
      rw [(rational?_eq_some_iff x _).mp base, ofRational_intCast, toInt?_ofInt] at integer
      cases integer
    simpa only [operateIntegers, integer] using ratios fun unit => proper unit.1
  | some a =>
    obtain rfl := Option.some.inj (base.symm.trans (toInt?_value integer))
    rw [operateIntegers, integer, toInt?_ofInt]
    by_cases nonneg : 0 ≤ n
    · have computed : Integer.operate .power a n = (powerResult a n).map some := by
        rw [Integer.operate, if_pos nonneg, Integer.power_eq a nonneg]
      simp only [computed]
      cases powerResult a n <;> rfl
    · have left : Integer.operate .power a n = .ok none := if_neg nonneg
      simp only [left]
      exact ratios fun unit => nonneg unit.2

/-- A power of an exact number with an integer exponent, whatever the kinds of both. -/
theorem operate_power (base : x.rational? = some p) (n : ℤ)
    (symbolic : settings.numericalResults = false) :
    operate .power x (ofInt n) settings = powerResult p n := by
  have integers := operateIntegers_power base n symbolic
  by_cases small : n.natAbs < UInt64.size
  · obtain ⟨b, representation, rfl⟩ := ofInt_of_small small
    rw [representation] at integers ⊢
    cases x with
    | word a =>
      obtain rfl := Option.some.inj base
      exact (Word.power_keepsTo a b).found (fun _ _ => rfl) integers
    | _ => exact integers
  · have wide : ofInt n = .wide ⟨n, Nat.le_of_not_lt small⟩ := dif_pos (Nat.le_of_not_lt small)
    rw [wide] at integers ⊢
    cases x <;> exact integers

/-- A power of an exact number with a natural exponent is the power, unless zero is raised to zero or
the power is too large to be computed. -/
theorem raised_operate (denotes : x.rational? = some p) (exponent : ℕ)
    (symbolic : settings.numericalResults = false) :
    Raised (p = 0 ∧ exponent = 0) (ofRational (p ^ exponent))
      (operate .power x (ofInt exponent) settings) := by
  rw [operate_power denotes exponent symbolic, powerResult]
  by_cases undefined : p = 0 ∧ (exponent : ℤ) = 0
  · rw [if_pos undefined]
    exact .undefined ⟨undefined.1, Int.natCast_eq_zero.mp undefined.2⟩
  · have nonneg : ¬ (p = 0 ∧ (exponent : ℤ) < 0) := by omega
    rw [if_neg undefined, if_neg nonneg, zpow_natCast]
    split
    · exact .done
    · exact .tooLarge

/-! ## Other exponents -/

/-- A power with an exponent that is no integer is tried on ratios first. -/
theorem operate_power_proper (exponent : y.rational? = some e) (proper : 1 < e.den) :
    operate .power x y settings = operateRatios .power x y settings := by
  have form : ∃ value, y = .fraction value := by
    rw [(rational?_eq_some_iff y e).mp exponent, ofRational, dif_neg (by omega)]
    exact ⟨_, rfl⟩
  obtain ⟨value, rfl⟩ := form
  cases x <;> rfl

variable (base : x.rational? = some p) (exponent : y.rational? = some e) (proper : 1 < e.den)
  (symbolic : settings.numericalResults = false)
include base exponent proper symbolic

/-- Where the base has the root that the exponent asks for, the power is the exact power of the root,
unless that is too large to be computed. -/
theorem operate_power_of_root {r : ℚ} (nonzero : p ≠ 0) (small : e.den ≤ Ratio.largestDegree)
    (nonneg : 0 ≤ r) (root : r ^ e.den = p) :
    operate .power x y settings =
      if powerFits (bitLength r) e.num.natAbs then .ok (ofRational (r ^ e.num))
      else .error .outOfMemory := by
  have found := Ratio.roots?_of_root e.den_ne_zero small nonneg root
  rw [operate_power_proper exponent proper, operateRatios_power base exponent symbolic,
    Ratio.power_of_root nonzero root found]
  split <;> rfl

/-- Where the base lacks that root, the power is a decimal. -/
theorem operate_power_of_no_root (nonzero : p ≠ 0) (none : ∀ r : ℚ, 0 ≤ r → r ^ e.den ≠ p) :
    operate .power x y settings = operateDecimals .power x y settings := by
  rw [operate_power_proper exponent proper, operateRatios_power base exponent symbolic,
    Ratio.power_of_no_root nonzero proper none]
  rfl

end Real

/-! ## Arithmetic -/

/-- The inverse of an exact number other than zero is the exact inverse. -/
theorem Real.apply_invert {x : Real} {p : ℚ} {settings : Preferences}
    (denotes : x.rational? = some p) (symbolic : settings.numericalResults = false)
    (nonzero : p ≠ 0) : x.apply .invert settings = .ok (.ofRational p⁻¹) := by
  have start : x.apply .invert settings =
      (operate .divide (.ofInt 1) x settings >>= fun quotient =>
        .ok (quotient.finished settings)) := rfl
  rw [start, operate_eq rfl (rational?_ofInt 1) denotes symbolic, exactResult,
    if_neg (by simp [nonzero]), Int.cast_one, one_div]
  exact congrArg Except.ok (finished_eq symbolic _)

/-- An integer is whole. -/
theorem Real.wholeValue?_ofInt (value : ℤ) : (ofInt value).wholeValue? = some value := by
  have integer := toInt?_ofInt value
  cases form : ofInt value with
  | decimal decimal =>
    rw [form] at integer
    cases integer
  | _ => rwa [form] at integer

namespace Arithmetic

variable {settings : Preferences} {x : Real} {p : ℚ}

/-- A power of real numbers stays with them, unless the base is below zero and the exponent is not an
integer. -/
theorem binary_power_real {a b : Real} (real : a.isNegative = false ∨ b.wholeValue?.isNone = false)
    (settings : Preferences) :
    binary .power (.real a) (.real b) settings = (a.operate .power b settings).map .real := by
  apply if_neg
  rcases real with above | whole
  · simp [above]
  · simp [whole]

/-- A power of a real number with an integer exponent does. -/
theorem binary_power_integer (a : Real) (exponent : ℤ) (settings : Preferences) :
    binary .power (.real a) (.ofInt exponent) settings =
      (a.operate .power (.ofInt exponent) settings).map .real := by
  have whole : (Real.ofInt exponent).wholeValue?.isNone = false := by
    simp [Real.wholeValue?_ofInt]
  exact binary_power_real (.inr whole) settings

section Exact

variable (denotes : x.rational? = some p) (symbolic : settings.numericalResults = false)
include denotes symbolic

/-- A power of an exact real number with an integer exponent. -/
theorem binary_power_ofInt (exponent : ℤ) :
    binary .power (.real x) (.ofInt exponent) settings = (powerResult p exponent).map .real := by
  rw [binary_power_integer, Real.operate_power denotes exponent symbolic]

/-- The inverse of an exact real number other than zero. -/
theorem unary_invert (nonzero : p ≠ 0) :
    unary .invert (.real x) settings = .ok (.real (.ofRational p⁻¹)) := by
  have start : unary .invert (.real x) settings = (x.apply .invert settings).map .real := rfl
  rw [start, Real.apply_invert denotes symbolic nonzero]
  rfl

/-- An exact real number other than zero has a power with an exponent exactly if it has one with the
opposite exponent: both are refused for the size of the longer part and of the exponent, whatever
their signs. The two powers are the exact ones, and each other's inverses. -/
theorem power_opposite (nonzero : p ≠ 0) (exponent : ℤ)
    (regular : |p| = 1 → exponent.natAbs ≤ powerBits) :
    ((∃ z, binary .power (.real x) (.ofInt (-exponent)) settings = .ok z) ↔
      ∃ z, binary .power (.real x) (.ofInt exponent) settings = .ok z) ∧
    ((∃ z, binary .power (.real x) (.ofInt exponent) settings = .ok z) ↔
      powerFits (bitLength p) exponent.natAbs = true) ∧
    ∀ z, binary .power (.real x) (.ofInt exponent) settings = .ok z →
      binary .power (.real x) (.ofInt (-exponent)) settings = unary .invert z settings ∧
      z = .real (.ofRational (p ^ exponent)) ∧
      unary .invert z settings = .ok (.real (.ofRational (p ^ (-exponent)))) := by
  have bearable (n : ℤ) (same : n.natAbs = exponent.natAbs) :
      IsBearable p n ↔ powerFits (bitLength p) exponent.natAbs = true := by
    constructor
    · rintro (zero | ⟨unit, -⟩ | fits)
      · exact absurd zero nonzero
      · exact powerFits_single (bitLength_unit unit) (regular unit)
      · rwa [same] at fits
    · intro fits
      exact .inr (.inr (by rwa [same]))
  have powers (n : ℤ) (same : n.natAbs = exponent.natAbs) :
      binary .power (.real x) (.ofInt n) settings =
        if powerFits (bitLength p) exponent.natAbs = true then .ok (.real (.ofRational (p ^ n)))
        else .error .outOfMemory := by
    rw [binary_power_ofInt denotes symbolic, powerResult_of_ne_zero nonzero]
    simp only [bearable n same]
    split <;> rfl
  rw [powers exponent rfl, powers (-exponent) (Int.natAbs_neg exponent)]
  by_cases fits : powerFits (bitLength p) exponent.natAbs = true
  · simp only [fits, if_true, Except.ok.injEq, exists_eq', iff_self, true_and]
    rintro z rfl
    have inverted : unary .invert (.real (.ofRational (p ^ exponent))) settings =
        .ok (.real (.ofRational (p ^ exponent)⁻¹)) :=
      unary_invert (Real.rational?_ofRational _) symbolic (zpow_ne_zero exponent nonzero)
    rw [← zpow_neg] at inverted
    exact ⟨inverted.symm, rfl, inverted⟩
  · simp [fits]

end Exact

/-- The third power of a fraction below zero, and the power with the opposite exponent. -/
theorem power_opposite_third :
    binary .power (.real (.ofRational (-2 / 3))) (.ofInt 3) {} =
        .ok (.real (.ofRational (-8 / 27))) ∧
      binary .power (.real (.ofRational (-2 / 3))) (.ofInt (-3)) {} =
        .ok (.real (.ofRational (-27 / 8))) := by
  have denotes := Real.rational?_ofRational (-2 / 3)
  have symbolic : ({} : Preferences).numericalResults = false := rfl
  have proper : |(-2 / 3 : ℚ)| = 1 → (3 : ℤ).natAbs ≤ powerBits := by norm_num
  obtain ⟨-, computed, inverse⟩ := power_opposite denotes symbolic (by norm_num) 3 proper
  obtain ⟨z, raised⟩ := computed.mpr (by decide +kernel)
  obtain ⟨opposite, rfl, inverted⟩ := inverse z raised
  have cube : (-2 / 3 : ℚ) ^ (3 : ℤ) = -8 / 27 := by
    rw [zpow_ofNat]
    norm_num
  have inverse : (-8 / 27 : ℚ)⁻¹ = -27 / 8 := by
    rw [neg_div, inv_neg, inv_div, neg_div]
  rw [raised, opposite, inverted, zpow_neg, cube, inverse]
  exact ⟨rfl, rfl⟩

/-- One has powers with all exponents that are not negative, but the power with the opposite
exponent is refused like that of a number whose powers grow. -/
theorem power_unit_refused :
    binary .power (.ofInt 1) (.ofInt 4194305) {} = .ok (.ofInt 1) ∧
      binary .power (.ofInt 1) (.ofInt (-4194305)) {} = .error .outOfMemory := by
  have symbolic : ({} : Preferences).numericalResults = false := rfl
  have raised := binary_power_ofInt (Real.rational?_ofInt 1) symbolic
  have nonzero : ((1 : ℤ) : ℚ) ≠ 0 := by norm_num
  have bearable : IsBearable ((1 : ℤ) : ℚ) 4194305 := by decide +kernel
  have refused : ¬ IsBearable ((1 : ℤ) : ℚ) (-4194305) := by decide +kernel
  constructor
  · rw [Value.ofInt, raised, powerResult_of_ne_zero nonzero, if_pos bearable, Int.cast_one, one_zpow]
    rfl
  · rw [Value.ofInt, raised, powerResult_of_ne_zero nonzero, if_neg refused]
    rfl

end Arithmetic

end Calculator
