import Calculator.Proofs.Number.ComplexExponent
import Calculator.Proofs.Number.Ordinary
import Mathlib

/-!
# Exact roots of numbers

A square root is exact if the number is the square of a rational number and a decimal otherwise, and
powers with fractions for exponents are alike. The root of a power, taken with the same degree, is the
number that was raised, without its sign if the degree is even.
-/

namespace Calculator

namespace Real

variable {x y z : Real} {p e r : ℚ} {settings : Preferences}

/-! ## Where results are exact -/

/-- An operation on decimals answers a decimal. -/
theorem isExact_operateDecimals {command : Command}
    (done : operateDecimals command x y settings = .ok z) : z.isExact = false := by
  obtain ⟨value, -, same⟩ := Outcome.bind_eq_ok.mp done
  obtain rfl := Except.ok.inj same
  rfl

/-- The decimal value of a function is a decimal. -/
theorem isExact_applyDecimal {command : Command}
    (done : x.applyDecimal command settings = .ok z) : z.isExact = false := by
  obtain ⟨value, -, same⟩ := Outcome.bind_eq_ok.mp done
  obtain rfl := Except.ok.inj same
  rfl

/-- A square root is exact if there is a rational one, and then it is that. -/
theorem apply_squareRoot_exact_iff (denotes : x.rational? = some p)
    (symbolic : settings.numericalResults = false) :
    (x.apply .squareRoot settings = .ok z ∧ z.isExact = true) ↔
      ∃ r : ℚ, 0 ≤ r ∧ r ^ 2 = p ∧ z = .ofRational r := by
  have start : x.apply .squareRoot settings =
      (x.squareRoot settings >>= fun root => .ok (root.finished settings)) := rfl
  rw [start, squareRoot, ratio?_eq denotes, Option.bind_some, ← Ratio.squareRoot?_eq_some_iff]
  cases found : (Ratio.ofRational p).squareRoot? with
  | some root =>
    obtain ⟨r, -, -, rfl⟩ := (Ratio.squareRoot?_eq_some_iff p root).mp found
    simp only [Outcome.ok_bind, finished_eq symbolic, Except.ok.injEq, Option.some.injEq]
    constructor
    · exact And.left
    · rintro rfl
      exact ⟨rfl, isExact_ofRational r⟩
  | none =>
    simp only [reduceCtorEq, iff_false]
    rintro ⟨done, exact⟩
    obtain ⟨root, rooted, same⟩ := Outcome.bind_eq_ok.mp done
    obtain rfl := Except.ok.inj same
    rw [finished_eq symbolic, isExact_applyDecimal rooted] at exact
    cases exact

/-- A power with a fraction for an exponent is exact if the base has the root that the exponent asks
for and the power of the root is not too large, and then it is that power. -/
theorem operate_power_exact_iff (base : x.rational? = some p) (exponent : y.rational? = some e)
    (proper : 1 < e.den) (small : e.den ≤ Ratio.largestDegree) (nonzero : p ≠ 0)
    (symbolic : settings.numericalResults = false) :
    (operate .power x y settings = .ok z ∧ z.isExact = true) ↔
      ∃ r : ℚ, 0 ≤ r ∧ r ^ e.den = p ∧ powerFits (bitLength r) e.num.natAbs = true ∧
        z = .ofRational (r ^ e.num) := by
  by_cases root : ∃ r : ℚ, 0 ≤ r ∧ r ^ e.den = p
  · obtain ⟨r, nonneg, root⟩ := root
    have unique {s : ℚ} (other : 0 ≤ s) (same : s ^ e.den = p) : s = r :=
      (pow_left_inj₀ other nonneg e.den_ne_zero).mp (same.trans root.symm)
    rw [operate_power_of_root base exponent proper symbolic nonzero small nonneg root]
    constructor
    · rintro ⟨done, -⟩
      split_ifs at done with fits
      exact ⟨r, nonneg, root, fits, (Except.ok.inj done).symm⟩
    · rintro ⟨s, other, same, fits, rfl⟩
      obtain rfl := unique other same
      rw [if_pos fits]
      exact ⟨rfl, isExact_ofRational _⟩
  · push Not at root
    rw [operate_power_of_no_root base exponent proper symbolic nonzero root]
    constructor
    · rintro ⟨done, exact⟩
      rw [isExact_operateDecimals done] at exact
      cases exact
    · rintro ⟨r, nonneg, same, -⟩
      exact absurd same (root r nonneg)

/-! ## Roots of powers -/

/-- A power with an exponent that is an integer. -/
theorem operate_power_of_whole (base : x.rational? = some p) (exponent : y.rational? = some e)
    (whole : e.den = 1) (symbolic : settings.numericalResults = false) :
    operate .power x y settings = powerResult p e.num := by
  have value : (e.num : ℚ) = e := Rat.coe_int_num_of_den_eq_one whole
  have integer : y = .ofInt e.num := by
    rw [(rational?_eq_some_iff y e).mp exponent, ← ofRational_intCast, value]
  rw [integer, operate_power base _ symbolic]

/-- Zero has powers with all exponents above zero. -/
theorem operate_power_of_zero (base : x.rational? = some 0) (exponent : y.rational? = some e)
    (positive : 0 < e) (symbolic : settings.numericalResults = false) :
    operate .power x y settings = .ok (.ofInt 0) := by
  by_cases whole : e.den = 1
  · rw [operate_power_of_whole base exponent whole symbolic,
      powerResult_zero (Rat.num_pos.mpr positive)]
  · have proper : 1 < e.den := lt_of_le_of_ne e.den_pos (Ne.symm whole)
    rw [operate_power_proper exponent proper, operateRatios_power base exponent symbolic,
      Ratio.power_zero, if_neg positive.ne', if_neg positive.not_gt]
    rfl

/-- Where the base has the root that the exponent asks for and the power of the root is not too large,
the power is that, also with an integer for the exponent. -/
theorem operate_power_of_fits (base : x.rational? = some p) (exponent : y.rational? = some e)
    (small : e.den ≤ Ratio.largestDegree) (nonzero : p ≠ 0) (nonneg : 0 ≤ r)
    (root : r ^ e.den = p) (fits : powerFits (bitLength r) e.num.natAbs = true)
    (symbolic : settings.numericalResults = false) :
    operate .power x y settings = .ok (ofRational (r ^ e.num)) := by
  by_cases whole : e.den = 1
  · obtain rfl : r = p := by rwa [whole, pow_one] at root
    have bearable : IsBearable r e.num := .inr (.inr fits)
    rw [operate_power_of_whole base exponent whole symbolic, powerResult_of_ne_zero nonzero,
      if_pos bearable]
  · have proper : 1 < e.den := lt_of_le_of_ne e.den_pos (Ne.symm whole)
    rw [operate_power_of_root base exponent proper symbolic nonzero small nonneg root, if_pos fits]

/-- A number that is not below zero comes back from its power, raised to the inverse exponent. -/
theorem operate_power_inverse {s : ℚ} (nonneg : 0 ≤ s) {n : ℤ} (nonzero : n ≠ 0)
    (small : n.natAbs ≤ Ratio.largestDegree) (regular : n < 0 → s ≠ 0)
    (fits : powerFits (bitLength s) 1 = true) (symbolic : settings.numericalResults = false) :
    operate .power (ofRational (s ^ n)) (ofRational (n : ℚ)⁻¹) settings = .ok (ofRational s) := by
  have upper : (n : ℚ)⁻¹.num = n.sign := Rat.inv_intCast_num n
  have lower : (n : ℚ)⁻¹.den = n.natAbs := by
    rw [Rat.inv_intCast_den, if_neg nonzero]
  by_cases zero : s = 0
  · subst zero
    have positive : 0 < n := by
      by_contra above
      exact regular (by omega) rfl
    rw [zero_zpow n nonzero, operate_power_of_zero (rational?_ofRational 0) (rational?_ofRational _)
      (by positivity) symbolic, ← ofRational_intCast, Int.cast_zero]
  · -- The root that the inverse exponent asks for is the number, or its inverse if `n` is negative.
    have root : (s ^ n.sign) ^ (n : ℚ)⁻¹.den = s ^ n := by
      rw [lower, ← zpow_natCast, ← zpow_mul, Int.sign_mul_natAbs]
    have same : bitLength (s ^ n.sign) = bitLength s ∧ (s ^ n.sign) ^ n.sign = s := by
      rcases lt_or_gt_of_ne nonzero with negative | positive
      · rw [Int.sign_eq_neg_one_of_neg negative, zpow_neg_one, zpow_neg_one, inv_inv]
        exact ⟨bitLength_inv zero, rfl⟩
      · rw [Int.sign_eq_one_of_pos positive, zpow_one, zpow_one]
        exact ⟨rfl, rfl⟩
    have once : n.sign.natAbs = 1 := Int.natAbs_sign_of_ne_zero nonzero
    rw [operate_power_of_fits (rational?_ofRational _) (rational?_ofRational _) (by rwa [lower])
      (zpow_ne_zero n zero) (zpow_nonneg nonneg n.sign) root (by rwa [same.1, upper, once]) symbolic,
      upper, same.2]

end Real

namespace Arithmetic

variable {settings : Preferences} {x : Real} {p : ℚ}

open Value

/-- A function of a real number that is not below zero is real. -/
theorem unary_nonneg {command : Command} {a : Real} (nonneg : a.isNegative = false)
    (settings : Preferences) :
    unary command (.real a) settings = (a.apply command settings).map .real := by
  obtain ⟨level, start⟩ := exists_unaryOver command (.real a) settings
  rw [start, unaryOver_nonneg nonneg]

/-- A real number is exact if it is one as a number. -/
theorem exact_map_iff {outcome : Outcome Real} {z : Value} :
    (outcome.map .real = .ok z ∧ z.IsGaussian) ↔
      ∃ a : Real, (outcome = .ok a ∧ a.isExact = true) ∧ z = .real a := by
  constructor
  · rintro ⟨done, exact⟩
    obtain ⟨a, found, rfl⟩ := Outcome.map_eq_ok.mp done
    cases exact with
    | real _ exact => exact ⟨a, ⟨found, exact⟩, rfl⟩
  · rintro ⟨a, ⟨rfl, exact⟩, rfl⟩
    exact ⟨rfl, .real a exact⟩

section Exact

variable (denotes : x.rational? = some p) (symbolic : settings.numericalResults = false)
include denotes symbolic

/-- The square root of a number that is not below zero is exact if there is a rational one. -/
theorem unary_squareRoot_exact_iff (nonneg : 0 ≤ p) (z : Value) :
    (unary .squareRoot (.real x) settings = .ok z ∧ z.IsGaussian) ↔
      ∃ r : ℚ, 0 ≤ r ∧ r ^ 2 = p ∧ z = .real (.ofRational r) := by
  have real := Real.isNegative_of_nonneg denotes nonneg
  simp only [unary_nonneg real, exact_map_iff, Real.apply_squareRoot_exact_iff denotes symbolic]
  constructor
  · rintro ⟨_, ⟨r, above, root, rfl⟩, same⟩
    exact ⟨r, above, root, same⟩
  · rintro ⟨r, above, root, same⟩
    exact ⟨_, ⟨r, above, root, rfl⟩, same⟩

section Fraction

variable {y : Real} {e : ℚ} (exponent : y.rational? = some e) (proper : 1 < e.den)
  (small : e.den ≤ Ratio.largestDegree) (positive : 0 < p)
include exponent proper small positive

/-- A power with a fraction for an exponent is exact if the base has the root that the exponent asks
for and the power of the root is not too large. -/
theorem binary_power_exact_iff (z : Value) :
    (binary .power (.real x) (.real y) settings = .ok z ∧ z.IsGaussian) ↔
      ∃ r : ℚ, 0 ≤ r ∧ r ^ e.den = p ∧ powerFits (bitLength r) e.num.natAbs = true ∧
        z = .real (.ofRational (r ^ e.num)) := by
  have real := Real.isNegative_of_nonneg denotes positive.le
  simp only [binary_power_real (.inl real), exact_map_iff,
    Real.operate_power_exact_iff denotes exponent proper small positive.ne' symbolic]
  constructor
  · rintro ⟨_, ⟨r, above, root, fits, rfl⟩, same⟩
    exact ⟨r, above, root, fits, same⟩
  · rintro ⟨r, above, root, fits, same⟩
    exact ⟨_, ⟨r, above, root, fits, rfl⟩, same⟩

/-- It is refused if the base has that root but the power of the root is too large. -/
theorem binary_power_refused_iff {r : ℚ} (nonneg : 0 ≤ r) (root : r ^ e.den = p) :
    binary .power (.real x) (.real y) settings = .error .outOfMemory ↔
      powerFits (bitLength r) e.num.natAbs = false := by
  have real := Real.isNegative_of_nonneg denotes positive.le
  rw [binary_power_real (.inl real),
    Real.operate_power_of_root denotes exponent proper symbolic positive.ne' small nonneg root]
  cases powerFits (bitLength r) e.num.natAbs <;> simp [Except.map]

end Fraction

/-- Roots are exact where they can be. The square root of a positive number is exact if the number is
the square of a rational number, and its square is the number then. A power with a fraction for an
exponent is exact if the base is the power of a rational number with the denominator, unless it is
refused because the power of the root with the numerator is too large. Its own power with the
denominator is the power of the base with the numerator then. -/
theorem exact_roots (positive : 0 < p) :
    ((∃ z, unary .squareRoot (.real x) settings = .ok z ∧ z.IsGaussian) ↔ ∃ q : ℚ, q ^ 2 = p) ∧
    (∀ z, unary .squareRoot (.real x) settings = .ok z → z.IsGaussian →
      ∃ r : ℚ, 0 < r ∧ z = .real (.ofRational r) ∧ r ^ 2 = p ∧
        unary .square z settings = .ok (.real x)) ∧
    ∀ (y : Real) (e : ℚ), y.rational? = some e → 2 ≤ e.den → e.den ≤ 64 →
      (binary .power (.real x) (.real y) settings = .error .outOfMemory ∨
        ((∃ z, binary .power (.real x) (.real y) settings = .ok z ∧ z.IsGaussian) ↔
          ∃ q : ℚ, q ^ e.den = p)) ∧
      (∀ z, binary .power (.real x) (.real y) settings = .ok z → z.IsGaussian →
        ∃ r : ℚ, 0 < r ∧ z = .real (.ofRational r) ∧ r ^ e.den = p ^ e.num) ∧
      ∀ q : ℚ, 0 < q → q ^ e.den = p →
        (binary .power (.real x) (.real y) settings = .error .outOfMemory ↔
          powerFits (bitLength q) e.num.natAbs = false) := by
  have squares := unary_squareRoot_exact_iff denotes symbolic positive.le
  -- The sign of a root does not matter for whether there is one.
  have above {degree : ℕ} {q : ℚ} (root : q ^ degree = p) : |q| ^ degree = p := by
    rw [← abs_pow, root, abs_of_pos positive]
  have apart {degree : ℕ} {q : ℚ} (some : degree ≠ 0) (nonneg : 0 ≤ q) (root : q ^ degree = p) :
      0 < q := by
    refine nonneg.lt_of_ne' ?_
    rintro rfl
    exact positive.ne (root.symm.trans (zero_pow some)).symm
  refine ⟨⟨?_, ?_⟩, fun z done exact => ?_, fun y e exponent proper small => ?_⟩
  · rintro ⟨z, found⟩
    obtain ⟨r, -, root, -⟩ := (squares z).mp found
    exact ⟨r, root⟩
  · rintro ⟨q, root⟩
    exact ⟨_, (squares _).mpr ⟨|q|, abs_nonneg q, above root, rfl⟩⟩
  · obtain ⟨r, nonneg, root, rfl⟩ := (squares z).mp ⟨done, exact⟩
    have square := unary_square symbolic exact
    rw [gaussian, Real.rational_ofRational, GaussianRational.rational_pow, root,
      ofGaussian_of_im_eq_zero rfl] at square
    rw [(Real.rational?_eq_some_iff x p).mp denotes]
    exact ⟨r, apart two_ne_zero nonneg root, rfl, root, square⟩
  · have powers := binary_power_exact_iff denotes symbolic exponent proper small positive
    have refused {q : ℚ} (nonneg : 0 ≤ q) (root : q ^ e.den = p) :=
      binary_power_refused_iff denotes symbolic exponent proper small positive nonneg root
    refine ⟨?_, fun z done exact => ?_, fun q nonneg root => refused nonneg.le root⟩
    · by_cases tooLarge : binary .power (.real x) (.real y) settings = .error .outOfMemory
      · exact .inl tooLarge
      · refine .inr ⟨?_, ?_⟩
        · rintro ⟨z, found⟩
          obtain ⟨r, -, root, -⟩ := (powers z).mp found
          exact ⟨r, root⟩
        · rintro ⟨q, root⟩
          rw [refused (abs_nonneg q) (above root), Bool.not_eq_false] at tooLarge
          exact ⟨_, (powers _).mpr ⟨|q|, abs_nonneg q, above root, tooLarge, rfl⟩⟩
    · obtain ⟨r, nonneg, root, -, rfl⟩ := (powers z).mp ⟨done, exact⟩
      refine ⟨r ^ e.num, zpow_pos (apart e.den_ne_zero nonneg root) _, rfl, ?_⟩
      rw [← root, ← zpow_natCast, ← zpow_natCast, ← zpow_mul, ← zpow_mul, mul_comm]

end Exact

/-- The square root of a fraction, and a power with a fraction below zero for an exponent. -/
theorem exact_roots_four_ninths :
    unary .squareRoot (.real (.ofRational (4 / 9))) {} = .ok (.real (.ofRational (2 / 3))) ∧
      binary .power (.real (.ofRational (4 / 9))) (.real (.ofRational (-3 / 2))) {} =
        .ok (.real (.ofRational (27 / 8))) := by
  have symbolic : ({} : Preferences).numericalResults = false := rfl
  have upper : (-3 / 2 : ℚ).num = -3 := by decide +kernel
  have lower : (-3 / 2 : ℚ).den = 2 := by decide +kernel
  have root : (2 / 3 : ℚ) ^ 2 = 4 / 9 := by norm_num
  obtain ⟨squares, values, powers⟩ :=
    exact_roots (Real.rational?_ofRational (4 / 9)) symbolic (by norm_num)
  constructor
  · obtain ⟨z, done, exact⟩ := squares.mpr ⟨2 / 3, root⟩
    obtain ⟨r, positive, rfl, square, -⟩ := values z done exact
    obtain rfl : r = 2 / 3 :=
      (pow_left_inj₀ positive.le (by norm_num) two_ne_zero).mp (square.trans root.symm)
    exact done
  · obtain ⟨answered, values, refused⟩ :=
      powers _ _ (Real.rational?_ofRational (-3 / 2)) (by rw [lower]) (by rw [lower]; norm_num)
    simp only [upper, lower] at answered values refused
    have fits : powerFits (bitLength (2 / 3)) (-3 : ℤ).natAbs = true := by decide +kernel
    have accepted := mt (refused (2 / 3) (by norm_num) root).mp (by rw [fits]; decide)
    obtain ⟨z, done, exact⟩ := (answered.resolve_left accepted).mpr ⟨2 / 3, root⟩
    obtain ⟨r, positive, rfl, square⟩ := values z done exact
    have cube : (27 / 8 : ℚ) ^ 2 = (4 / 9) ^ (-3 : ℤ) := by
      rw [zpow_neg, zpow_ofNat]
      norm_num
    rw [← cube] at square
    obtain rfl : r = 27 / 8 := (pow_left_inj₀ positive.le (by norm_num) two_ne_zero).mp square
    exact done

/-! ## Roots of powers -/

section Roots

variable {parts : Operations}

/-- An odd integer is found to be odd. -/
theorem isOdd_iff (n : ℤ) : isOdd n = true ↔ Odd n := by
  rw [isOdd, beq_iff_eq, Int.odd_iff]

/-- The power with the inverse of an integer is a real power, if the base is not below zero. -/
theorem powerOfInverse_nonneg {a : Real} (nonneg : a.isNegative = false) {n : ℤ} (nonzero : n ≠ 0)
    (symbolic : settings.numericalResults = false) :
    powerOfInverse parts settings (.real a) (.ofInt n) =
      (a.operate .power (.ofRational (n : ℚ)⁻¹) settings).map .real := by
  rw [powerOfInverse, Real.apply_invert (Real.rational?_ofInt n) symbolic
    (Int.cast_ne_zero.mpr nonzero), Outcome.ok_bind]
  apply if_neg
  simp [nonneg]

/-- A root of a real number with an integer degree other than zero. -/
theorem binary_nthRoot (a : Real) {n : ℤ} (nonzero : n ≠ 0) (settings : Preferences) :
    ∃ parts : Operations, binary .nthRoot (.real a) (.ofInt n) settings =
      if a.isNegative && isOdd n then
        powerOfInverse parts settings (.real a.negated) (.ofInt n) >>= fun root =>
          numberUnary parts settings .negate root
      else powerOfInverse parts settings (.real a) (.ofInt n) := by
  obtain ⟨level, start⟩ := exists_binaryOver .nthRoot (.real a) (.ofInt n) settings
  have root : binaryOver (upTo settings (level + 1)) settings .nthRoot (.real a) (.ofInt n) =
      nthRoot (upTo settings (level + 1)) settings (.real a) (.ofInt n) := rfl
  have apart : (Real.ofInt n).isZero = false := by
    rw [← Real.ofRational_intCast, Real.isZero_ofRational]
    simpa using nonzero
  refine ⟨upTo settings (level + 1), ?_⟩
  unfold nthRoot at root
  rw [start, root, apart, Real.wholeValue?_ofInt]
  rfl

/-- What a number that is not below zero is raised to has the number for its root. -/
theorem binary_nthRoot_nonneg {s : ℚ} (nonneg : 0 ≤ s) {n : ℤ} (nonzero : n ≠ 0)
    (small : n.natAbs ≤ Ratio.largestDegree) (regular : n < 0 → s ≠ 0)
    (fits : powerFits (bitLength s) 1 = true) (symbolic : settings.numericalResults = false) :
    binary .nthRoot (.real (.ofRational (s ^ n))) (.ofInt n) settings =
      .ok (.real (.ofRational s)) := by
  have above : (Real.ofRational (s ^ n)).isNegative = false :=
    Real.isNegative_of_nonneg (Real.rational?_ofRational _) (zpow_nonneg nonneg n)
  obtain ⟨parts, root⟩ := binary_nthRoot (.ofRational (s ^ n)) nonzero settings
  rw [root, above, Bool.false_and, if_neg Bool.false_ne_true,
    powerOfInverse_nonneg above nonzero symbolic,
    Real.operate_power_inverse nonneg nonzero small regular fits symbolic]
  rfl

/-- What a number below zero is raised to with an odd exponent has the number for its root: its sign
is taken away for the root and given back. -/
theorem binary_nthRoot_negative {s : ℚ} (negative : s < 0) {n : ℤ} (odd : Odd n)
    (small : n.natAbs ≤ Ratio.largestDegree) (fits : powerFits (bitLength s) 1 = true)
    (symbolic : settings.numericalResults = false) :
    binary .nthRoot (.real (.ofRational (s ^ n))) (.ofInt n) settings =
      .ok (.real (.ofRational s)) := by
  have nonzero : n ≠ 0 := by
    rintro rfl
    exact absurd odd (by decide)
  have positive : 0 < -s := neg_pos.mpr negative
  have opposite : -(s ^ n) = (-s) ^ n := odd.neg_zpow s |>.symm
  have below : (Real.ofRational (s ^ n)).isNegative = true := by
    simpa [Real.isNegative_eq (Real.rational?_ofRational _)] using odd.zpow_neg negative
  have above : (Real.ofRational ((-s) ^ n)).isNegative = false :=
    Real.isNegative_of_nonneg (Real.rational?_ofRational _) (zpow_nonneg positive.le n)
  obtain ⟨parts, root⟩ := binary_nthRoot (.ofRational (s ^ n)) nonzero settings
  rw [root, below, (isOdd_iff n).mpr odd, Bool.true_and, if_pos rfl, Real.negated_ofRational,
    opposite, powerOfInverse_nonneg above nonzero symbolic,
    Real.operate_power_inverse positive.le nonzero small (fun _ => positive.ne')
      (by rwa [bitLength_neg]) symbolic]
  have negate : unaryOver parts settings .negate (.real (.ofRational (-s))) =
      ((Real.ofRational (-s)).apply .negate settings).map .real := unaryOver_real _ _ rfl _
  rw [Real.apply_negate_exact symbolic (Real.isExact_ofRational _), Real.rational_ofRational,
    neg_neg] at negate
  exact negate

end Roots

/-- The root of a power, taken with the exponent for the degree, is the number that was raised if the
exponent is odd, whatever the sign of the number, and the number without its sign if it is even. -/
theorem nthRoot_power (denotes : x.rational? = some p) (symbolic : settings.numericalResults = false)
    {n : ℤ} (nonzero : 1 ≤ n.natAbs) (small : n.natAbs ≤ 64) (regular : n < 0 → p ≠ 0) {y : Value}
    (powered : binary .power (.real x) (.ofInt n) settings = .ok y) :
    (Odd n → binary .nthRoot y (.ofInt n) settings = .ok (.real x)) ∧
    (Even n → binary .nthRoot y (.ofInt n) settings = .ok (.real (.ofRational |p|))) := by
  have some : n ≠ 0 := by omega
  rw [binary_power_ofInt denotes symbolic] at powered
  obtain ⟨power, computed, rfl⟩ := Outcome.map_eq_ok.mp powered
  obtain ⟨bearable, rfl⟩ := powerResult_eq_ok computed
  have fits := bearable.fits_one some
  constructor
  · intro odd
    rw [(Real.rational?_eq_some_iff x p).mp denotes]
    by_cases negative : p < 0
    · exact binary_nthRoot_negative negative odd small fits symbolic
    · exact binary_nthRoot_nonneg (not_lt.mp negative) some small regular fits symbolic
  · intro even
    rw [← even.zpow_abs]
    exact binary_nthRoot_nonneg (abs_nonneg p) some small
      (fun below => abs_ne_zero.mpr (regular below)) (by rwa [bitLength_abs]) symbolic

/-- The roots of powers of fractions below zero, with an odd degree below zero and with an even
degree. -/
theorem nthRoot_power_three_halves :
    binary .nthRoot (.real (.ofRational (-8 / 27))) (.ofInt (-3)) {} =
        .ok (.real (.ofRational (-3 / 2))) ∧
      binary .nthRoot (.real (.ofRational (9 / 4))) (.ofInt 2) {} =
        .ok (.real (.ofRational (3 / 2))) := by
  have denotes := Real.rational?_ofRational (-3 / 2)
  have symbolic : ({} : Preferences).numericalResults = false := rfl
  have powered (n : ℤ) {q : ℚ} (bearable : IsBearable (-3 / 2) n) (value : (-3 / 2 : ℚ) ^ n = q) :
      binary .power (.real (.ofRational (-3 / 2))) (.ofInt n) {} = .ok (.real (.ofRational q)) := by
    rw [binary_power_ofInt denotes symbolic, powerResult_of_ne_zero (by norm_num), if_pos bearable,
      value]
    rfl
  have cube : (-3 / 2 : ℚ) ^ (-3 : ℤ) = -8 / 27 := by
    have inverse : (-27 / 8 : ℚ)⁻¹ = -8 / 27 := by
      rw [neg_div, inv_neg, inv_div, neg_div]
    rw [zpow_neg, zpow_ofNat, ← inverse]
    norm_num
  have square : (-3 / 2 : ℚ) ^ (2 : ℤ) = 9 / 4 := by
    rw [zpow_ofNat]
    norm_num
  have magnitude : |(-3 / 2 : ℚ)| = 3 / 2 := by
    rw [neg_div, abs_neg, abs_of_pos (by norm_num)]
  have nonzero : (-3 / 2 : ℚ) ≠ 0 := by norm_num
  constructor
  · exact (nthRoot_power denotes symbolic (by decide) (by decide) (fun _ => nonzero)
      (powered (-3) (by decide +kernel) cube)).1 (by decide)
  · rw [← magnitude]
    exact (nthRoot_power denotes symbolic (by decide) (by decide) (fun _ => nonzero)
      (powered 2 (by decide +kernel) square)).2 (by decide)

end Arithmetic

end Calculator
