import Calculator.Proofs.Number.Exponential
import Calculator.Proofs.Number.SquareRoot
import Mathlib

/-!
# The reach of decimals

How far a decimal reaches to both sides of the point. A scale that wraps would need a reach of half
the range of machine words: the reach of a sum is hardly more than that of the summands, and the
reach of a product or a quotient is hardly more than the reaches of its parts together.

A power is made of products that are rounded. The digits of these are limited, so it is the leading
digit alone that moves away from the point, as far as the leading digits of the factors together.
-/

namespace Calculator.Decimal

variable {x y : Decimal} {reach other : ℤ}

/-- Whether the leading digit of a decimal and its scale are within so many places of the point. -/
structure Reaches (x : Decimal) (reach : ℤ) : Prop where
  place_le : x.place ≤ reach
  le_scale : -reach ≤ x.scale.toInt
  scale_le : x.scale.toInt ≤ reach

namespace Reaches

/-- What is within a reach is so within a larger one. -/
theorem mono (reaches : x.Reaches reach) (larger : reach ≤ other) : x.Reaches other :=
  ⟨reaches.place_le.trans larger, (neg_le_neg larger).trans reaches.le_scale,
    reaches.scale_le.trans larger⟩

/-- The digits fill the reach to both sides at most. -/
theorem digits_le (reaches : x.Reaches reach) : x.digits ≤ 2 * reach := by
  obtain ⟨leading, -, scale⟩ := reaches
  unfold place at leading
  omega

/-- The leading digit is not further to the right than the scale reaches. -/
theorem lt_place (reaches : x.Reaches reach) : -reach < x.place := by
  have written := x.one_le_digits
  have scale := reaches.scale_le
  unfold place
  omega

/-- There is no decimal without a reach. -/
theorem pos (reaches : x.Reaches reach) : 0 < reach := by
  have position := reaches.lt_place
  have place := reaches.place_le
  omega

/-- The magnitude of a scale is within the reach. -/
theorem abs_scale_le (reaches : x.Reaches reach) : |x.scale.toInt| ≤ reach :=
  abs_le.mpr ⟨reaches.le_scale, reaches.scale_le⟩

/-- The opposite reaches as far. -/
theorem negated (reaches : x.Reaches reach) : x.negated.Reaches reach := by
  have digits : x.negated.digits = x.digits := by
    rw [Decimal.digits, Decimal.digits, Decimal.negated, Int.natAbs_neg]
  obtain ⟨place, low, high⟩ := reaches
  refine ⟨?_, low, high⟩
  rw [Decimal.place, digits]
  exact place

/-- The magnitude reaches as far. -/
theorem absolute (reaches : x.Reaches reach) : x.absolute.Reaches reach := by
  obtain ⟨place, low, high⟩ := reaches
  exact ⟨place, low, high⟩

end Reaches

/-- A mantissa below a power of ten has no more digits. -/
theorem digits_le_of_natAbs_lt {count : ℕ} (counted : 0 < count)
    (below : x.mantissa.natAbs < 10 ^ count) : x.digits ≤ count := by
  by_cases zero : x.mantissa = 0
  · rw [digits_of_zero zero]
    exact counted
  · exact (Digits.count_le_iff _ _ (Int.natAbs_pos.mpr zero)).mpr below

/-- A mantissa is below the power of ten of its number of digits. -/
theorem natAbs_lt_pow_digits (x : Decimal) : x.mantissa.natAbs < 10 ^ x.digits := by
  by_cases zero : x.mantissa = 0
  · rw [zero]
    exact Nat.pow_pos (by decide)
  · exact (Digits.count_bounds _ (Int.natAbs_pos.mpr zero)).2

/-- The number of digits and the scale of a decimal bound its reach. -/
theorem reaches_of_digits (stored : x.digits ≤ reach) (low : -other ≤ x.scale.toInt)
    (high : x.scale.toInt ≤ other) : x.Reaches (reach + other) := by
  have written := x.one_le_digits
  refine ⟨?_, ?_, ?_⟩
  · unfold place
    omega
  · omega
  · omega

/-- An integer reaches as far as it has digits. -/
theorem reaches_ofInt (value : ℤ) (count : ℕ) (counted : 0 < count)
    (below : value.natAbs < 10 ^ count) : (ofInt value).Reaches count := by
  have digits := digits_le_of_natAbs_lt (x := ofInt value) counted below
  have plain : (ofInt value).scale.toInt = 0 := rfl
  have reaches : (ofInt value).Reaches (count + 0) :=
    reaches_of_digits (by exact_mod_cast digits) (by omega) (by omega)
  rwa [add_zero] at reaches

/-- A natural number reaches as far as it has digits. -/
theorem reaches_ofNat (value count : ℕ) (counted : 0 < count) (below : value < 10 ^ count) :
    (ofNat value).Reaches count := reaches_ofInt value count counted below

/-- Zero reaches to its only digit. -/
theorem reaches_zero : zero.Reaches 1 := reaches_ofNat 0 1 (by decide) (by decide)

/-- One reaches to its only digit. -/
theorem reaches_one : one.Reaches 1 := reaches_ofNat 1 1 (by decide) (by decide)

/-- A tenth of a digit reaches to it. -/
theorem reaches_tenth (digit : ℤ) (single : digit.natAbs < 10) :
    (⟨digit, 1⟩ : Decimal).Reaches 1 := by
  have digits : (⟨digit, 1⟩ : Decimal).digits ≤ 1 := digits_le_of_natAbs_lt (by decide) single
  have plain : (1 : Int64).toInt = 1 := rfl
  refine ⟨?_, ?_, ?_⟩
  · unfold place
    dsimp only
    omega
  · dsimp only
    omega
  · exact plain.le

/-! ## Exponents and integers -/

/-- The exponent of the leading digit is within the reach. -/
theorem Reaches.abs_exponent_le (reaches : x.Reaches reach) (room : reach < 2 ^ 62) :
    |x.exponent.toInt| ≤ reach := by
  have positive := reaches.pos
  by_cases zero : x.mantissa = 0
  · rw [Decimal.exponent, if_pos (by simpa [isZero] using zero)]
    exact positive.le
  have stored := reaches.digits_le
  have position := reaches.lt_place
  obtain ⟨leading, low, high⟩ := reaches
  unfold Decimal.place at leading position
  rw [toInt_exponent_of_fits zero (by omega) (by omega)]
  exact abs_le.mpr ⟨by omega, by omega⟩

/-- A power of ten that is formed is one, and not too large. -/
theorem powerOfTen_eq_ok {exponent : ℕ} {unit : ℤ} (formed : powerOfTen exponent = .ok unit) :
    unit = (tenTo exponent : ℕ) ∧ exponent ≤ integerDigits := by
  unfold powerOfTen at formed
  split_ifs at formed with few
  exact ⟨(Except.ok.inj formed).symm, few⟩

/-- The integers next to a value are limited by the digits of the value. -/
theorem natAbs_whole_lt {whole : ℤ} (done : x.floor = .ok whole ∨ x.truncate = .ok whole) :
    whole.natAbs < 10 ^ (x.digits + 1001) := by
  have magnitude := x.natAbs_lt_pow_digits
  have one : 1 < 10 ^ (x.digits + 1001) := Nat.one_lt_pow (Nat.succ_ne_zero _) (by decide)
  have wider : 10 ^ x.digits ≤ 10 ^ (x.digits + 1001) := Nat.pow_le_pow_right (by decide) (by omega)
  suffices form : whole.natAbs ≤ 1 ∨ whole.natAbs ≤ x.mantissa.natAbs ∨
      ∃ exponent ≤ 1000, whole.natAbs = x.mantissa.natAbs * 10 ^ exponent by
    rcases form with few | few | ⟨exponent, few, same⟩
    · omega
    · omega
    · rw [same]
      calc x.mantissa.natAbs * 10 ^ exponent
        _ < 10 ^ x.digits * 10 ^ exponent :=
          Nat.mul_lt_mul_of_pos_right magnitude (Nat.pow_pos (by decide))
        _ = 10 ^ (x.digits + exponent) := (Nat.pow_add _ _ _).symm
        _ ≤ 10 ^ (x.digits + 1001) := Nat.pow_le_pow_right (by decide) (by omega)
  rcases done with done | done
  · unfold floor at done
    split_ifs at done with small negative
    · obtain rfl := Except.ok.inj done
      exact .inl le_rfl
    · obtain rfl := Except.ok.inj done
      exact .inl (Nat.zero_le _)
    · obtain ⟨unit, formed, rest⟩ := Outcome.bind_eq_ok.mp done
      obtain ⟨rfl, few⟩ := powerOfTen_eq_ok formed
      obtain rfl := Except.ok.inj rest
      exact .inr (.inr ⟨_, few, (mantissa_tenTo _ _).1⟩)
    · obtain ⟨unit, formed, rest⟩ := Outcome.bind_eq_ok.mp done
      obtain ⟨rfl, few⟩ := powerOfTen_eq_ok formed
      obtain rfl := Except.ok.inj rest
      rw [Int.fdiv_eq_ediv_of_nonneg _ (Int.natCast_nonneg _)]
      exact .inr (.inl (Int.natAbs_ediv_le_natAbs _ _))
  · unfold truncate at done
    split_ifs at done with small
    · obtain rfl := Except.ok.inj done
      exact .inl (Nat.zero_le _)
    · obtain ⟨unit, formed, rest⟩ := Outcome.bind_eq_ok.mp done
      obtain ⟨rfl, few⟩ := powerOfTen_eq_ok formed
      obtain rfl := Except.ok.inj rest
      exact .inr (.inr ⟨_, few, (mantissa_tenTo _ _).1⟩)
    · obtain ⟨unit, formed, rest⟩ := Outcome.bind_eq_ok.mp done
      obtain ⟨rfl, few⟩ := powerOfTen_eq_ok formed
      obtain rfl := Except.ok.inj rest
      rw [Int.natAbs_tdiv]
      exact .inr (.inl (Nat.div_le_self _ _))

/-! ## Sums -/

/-- The mantissa that belongs to a larger scale. -/
theorem natAbs_mantissaAt_lt {scale : Int64} (above : x.scale.toInt ≤ scale.toInt) :
    (x.mantissaAt scale).natAbs < 10 ^ (x.place + scale.toInt).toNat := by
  have exponent : (x.place + scale.toInt).toNat =
      x.digits + (scale.toInt - x.scale.toInt).toNat := by
    unfold place
    omega
  rw [exponent, Nat.pow_add, mantissaAt, (mantissa_tenTo _ _).1]
  exact Nat.mul_lt_mul_of_pos_right x.natAbs_lt_pow_digits (Nat.pow_pos (by decide))

/-- The common scale is one of the two. -/
theorem commonScale_eq_or (x y : Decimal) :
    commonScale x y = x.scale ∨ commonScale x y = y.scale := by
  unfold commonScale
  split
  · exact .inr rfl
  · exact .inl rfl

/-- A sum reaches one place further than the summands, where the digits carry to. -/
theorem Reaches.add (left : x.Reaches reach) (right : y.Reaches other) :
    (x.add y).Reaches (max reach other + 1) := by
  obtain ⟨above, aboveToo⟩ := le_commonScale x y
  have low := left.le_scale
  have high := left.scale_le
  have lowToo := right.le_scale
  have highToo := right.scale_le
  have place := left.place_le
  have placeToo := right.place_le
  have written := x.one_le_digits
  have scale : (x.add y).scale = commonScale x y := rfl
  have position : 0 < x.place + (commonScale x y).toInt := by
    unfold Decimal.place
    omega
  have digits : (x.add y).digits ≤
      (max x.place y.place + (commonScale x y).toInt).toNat + 1 := by
    refine digits_le_of_natAbs_lt (Nat.succ_pos _) ?_
    have first := (natAbs_mantissaAt_lt above).trans_le (Nat.pow_le_pow_right (by decide : 0 < 10)
      (Int.toNat_le_toNat (add_le_add_left (le_max_left x.place y.place) _)))
    have second := (natAbs_mantissaAt_lt aboveToo).trans_le (Nat.pow_le_pow_right (by decide : 0 < 10)
      (Int.toNat_le_toNat (add_le_add_left (le_max_right x.place y.place) _)))
    have both := Int.natAbs_add_le (x.mantissaAt (commonScale x y)) (y.mantissaAt (commonScale x y))
    rw [Nat.pow_succ]
    change (x.mantissaAt (commonScale x y) + y.mantissaAt (commonScale x y)).natAbs < _
    omega
  refine ⟨?_, ?_, ?_⟩
  · rw [Decimal.place, scale]
    omega
  · rw [scale]
    rcases commonScale_eq_or x y with same | same <;> rw [same] <;> omega
  · rw [scale]
    rcases commonScale_eq_or x y with same | same <;> rw [same] <;> omega

/-- A difference reaches one place further than its parts. -/
theorem Reaches.subtract (left : x.Reaches reach) (right : y.Reaches other) :
    (x.subtract y).Reaches (max reach other + 1) := left.add right.negated

/-! ## Products and quotients -/

/-- A product has no more digits than its factors together. -/
theorem digits_product_le (x y : Decimal) (scale : Int64) :
    (⟨x.mantissa * y.mantissa, scale⟩ : Decimal).digits ≤ x.digits + y.digits := by
  have written := x.one_le_digits
  refine digits_le_of_natAbs_lt (by omega) ?_
  dsimp only
  rw [Int.natAbs_mul, Nat.pow_add]
  exact Nat.mul_lt_mul'' x.natAbs_lt_pow_digits y.natAbs_lt_pow_digits

/-- A product reaches as far as its factors together. -/
theorem Reaches.multiply (left : x.Reaches reach) (right : y.Reaches other)
    (room : reach + other < 2 ^ 63) : (x.multiply y).Reaches (reach + other) := by
  have positive := left.pos
  have positiveToo := right.pos
  unfold Decimal.multiply
  split_ifs
  · exact right.mono (by omega)
  · exact left.mono (by omega)
  · obtain ⟨place, low, high⟩ := left
    obtain ⟨placeToo, lowToo, highToo⟩ := right
    have digits := digits_product_le x y (x.scale + y.scale)
    have scale := toInt_add_of_fits (a := x.scale) (b := y.scale) (by omega) (by omega)
    unfold Decimal.place at place placeToo
    refine ⟨?_, ?_, ?_⟩
    · unfold Decimal.place
      dsimp only at scale ⊢
      omega
    · dsimp only
      omega
    · dsimp only
      omega

/-- No more places are behind the point of a quotient than the divisor has digits, and a hundred. -/
theorem divideMagnitudes_places_le (dividend divisor : ℕ) :
    (divideMagnitudes dividend divisor).2 ≤ Digits.count divisor + quotientDigits := by
  have few := missingZeros_le dividend divisor
  unfold divideMagnitudes
  dsimp only
  split_ifs <;> dsimp only <;> omega

/-- Long division by nothing gives nothing. -/
theorem divideMagnitudes_of_zero (dividend : ℕ) {divisor : ℕ} (zero : divisor = 0) :
    (divideMagnitudes dividend divisor).1 = 0 := by
  unfold divideMagnitudes
  dsimp only
  generalize dividend * tenTo (missingZeros dividend divisor) = lifted
  generalize quotientDigits - Digits.count (lifted / divisor) = further
  generalize lifted * tenTo further = extended
  rw [zero, Nat.div_zero, Nat.mod_zero, Nat.div_zero, Nat.mod_zero, Nat.div_zero]
  split_ifs with none some
  · rfl
  · -- Nothing is left only if nothing was there.
    obtain ⟨factor, -⟩ := dropZeros_spec further 0
    exact (Nat.mul_eq_zero.mp factor.symm).resolve_right (Nat.pow_pos (by decide)).ne'
  · omega
  · rfl

/-- A quotient has no more digits than the dividend, or a hundred, and one that rounding may carry
to, whatever the divisor is. -/
theorem digits_divide_le_max (x y : Decimal) : (x.divide y).digits ≤ max x.digits 100 + 1 := by
  by_cases zero : y.mantissa = 0
  · unfold divide
    dsimp only
    split_ifs with plain same
    · omega
    · have single : Digits.count 1 = 1 := by simp [Digits.count]
      change Digits.count 1 ≤ _
      omega
    · have none := divideMagnitudes_of_zero x.mantissa.natAbs (Int.natAbs_eq_zero.mpr zero)
      rw [digits_of_zero (by dsimp only; rw [none, Int.natCast_zero, Int.mul_zero])]
      omega
  · exact digits_divide_le x zero

/-- A quotient reaches as far as its parts together, and as many places further as the divisor has
digits and as division goes on. -/
theorem Reaches.divide (left : x.Reaches reach) (right : y.Reaches other)
    (room : reach + other + y.digits + 101 < 2 ^ 63) :
    (x.divide y).Reaches (reach + other + y.digits + 101) := by
  have positive := right.pos
  have hundred : quotientDigits = 100 := rfl
  have digits := digits_divide_le_max x y
  have places := divideMagnitudes_places_le x.mantissa.natAbs y.mantissa.natAbs
  rw [show Digits.count y.mantissa.natAbs = y.digits from rfl] at places
  have difference : (x.scale - y.scale).toInt = x.scale.toInt - y.scale.toInt := by
    have low := left.le_scale
    have high := left.scale_le
    have lowToo := right.le_scale
    have highToo := right.scale_le
    exact toInt_sub_of_fits (by omega) (by omega)
  suffices position : (x.divide y) = x ∨ ∃ further : ℕ, further ≤ y.digits + 100 ∧
      (x.divide y).scale.toInt = x.scale.toInt - y.scale.toInt + further by
    rcases position with same | ⟨further, few, scale⟩
    · rw [same]
      exact left.mono (by omega)
    · obtain ⟨place, low, high⟩ := left
      obtain ⟨placeToo, lowToo, highToo⟩ := right
      unfold Decimal.place at place
      refine ⟨?_, by omega, by omega⟩
      unfold Decimal.place
      omega
  have low := left.le_scale
  have high := left.scale_le
  have lowToo := right.le_scale
  have highToo := right.scale_le
  unfold Decimal.divide
  dsimp only
  split_ifs
  · exact .inl rfl
  · exact .inr ⟨0, Nat.zero_le _, by dsimp only; omega⟩
  · refine .inr ⟨_, places.trans (by omega), ?_⟩
    dsimp only
    rw [toInt_add_ofNat_of_fits (by omega), difference]

/-! ## Rounding -/

/-- With so many digits a decimal reaches no further than that many places more. -/
theorem Reaches.withDigits (reaches : x.Reaches reach) {count : ℕ} (counted : 0 < count)
    (room : reach + count < 2 ^ 63) : (x.withDigits count).Reaches (reach + count) := by
  have position := reaches.lt_place
  have digits := digits_withDigits_le (x := x) counted
  obtain ⟨place, low, high⟩ := reaches
  unfold Decimal.place at place position
  have scale := toInt_scale_withDigits (x := x) count (by omega) (by omega)
  refine ⟨?_, by omega, by omega⟩
  unfold Decimal.place
  omega

/-- The form without trailing zeros reaches no further. -/
theorem Reaches.normalized (reaches : x.Reaches reach) (room : reach < 2 ^ 63) :
    x.normalized.Reaches reach := by
  have positive := reaches.pos
  have position := reaches.lt_place
  by_cases zero : x.mantissa = 0
  · rw [Decimal.normalized, if_pos (by simpa [isZero] using zero)]
    exact reaches_zero.mono (by omega)
  obtain ⟨rest, zeros, factor, last⟩ := exists_factor x.mantissa.natAbs (Int.natAbs_pos.mpr zero)
  have few := zeros_le_digits factor (by omega)
  have digits : x.digits = Digits.count rest + zeros := by
    rw [Decimal.digits, factor]
    exact count_tenTo (by omega) zeros
  obtain ⟨place, low, high⟩ := reaches
  unfold Decimal.place at place position
  have scale := toInt_sub_ofNat_of_fits (a := x.scale) (n := zeros) (by omega)
  have magnitude := natAbs_sign_mul zero rest
  rw [normalized_factor x rest zeros factor last]
  refine ⟨?_, by dsimp only; omega, by dsimp only; omega⟩
  rw [Decimal.place, Decimal.digits]
  dsimp only
  rw [magnitude]
  omega

/-! ## Roots -/

/-- The scale of a root is about half of a reach. -/
theorem Reaches.abs_rootScale_le (reaches : x.Reaches reach) : |x.rootScale| ≤ reach + 101 := by
  have positive := reaches.pos
  have position := reaches.lt_place
  have place := reaches.place_le
  have hundred : quotientDigits = 100 := rfl
  unfold rootScale
  exact abs_le.mpr ⟨by omega, by omega⟩

/-- The first so many digits of a number are below that power of ten, or rounding carries to it. -/
theorem roundHalfEven_le (number count : ℕ) :
    (roundHalfEven number count).1 ≤ 10 ^ count := by
  have digits : number < 10 ^ Digits.count number :=
    natAbs_lt_pow_digits (ofNat number)
  have covered : Digits.count number ≤ Digits.count number - count + count := by omega
  have below : number / tenTo (Digits.count number - count) < 10 ^ count := by
    refine Nat.div_lt_of_lt_mul (digits.trans_le ?_)
    rw [tenTo, Nat.pow_eq, ← Nat.pow_add]
    exact Nat.pow_le_pow_right (by decide) covered
  unfold roundHalfEven
  dsimp only
  split_ifs
  · exact below
  · exact below.le

/-- The root of a mantissa has no more digits than the mantissa with its zeros. -/
theorem count_wholeRoot_le (nonzero : x.mantissa ≠ 0) :
    Digits.count x.wholeRoot ≤ x.digits + 211 := by
  have hundred : quotientDigits = 100 := rfl
  have written := x.one_le_digits
  have counted := count_wholeRoot (x := x.absolute)
    (Int.natCast_pos.mpr (Int.natAbs_pos.mpr nonzero))
  change Digits.count x.wholeRoot = (x.digits + x.rootZeros - 1) / 2 + 1 at counted
  rw [counted, rootZeros]
  split_ifs <;> omega

/-- A root reaches hardly further than the number. -/
theorem Reaches.squareRoot (reaches : x.Reaches reach) (room : reach + 101 < 2 ^ 63) :
    x.squareRoot.Reaches (reach + 202) := by
  have hundred : quotientDigits = 100 := rfl
  have form : x.squareRoot = x ∨ x.squareRoot =
      ⟨(roundHalfEven x.wholeRoot 100).1, Int64.ofInt x.rootScale⟩ := by
    unfold Decimal.squareRoot
    split_ifs
    · exact .inl rfl
    · right
      have places : (2 * quotientDigits - x.place : ℤ).fdiv 2 +
          (Digits.count x.wholeRoot - quotientDigits : ℕ) -
          (roundHalfEven x.wholeRoot quotientDigits).2 = x.rootScale := by
        rw [(roundHalfEven_spec x.wholeRoot quotientDigits).1, add_sub_cancel_right,
          Int.fdiv_eq_ediv_of_nonneg _ (by omega)]
        rfl
      rw [← places]
      rfl
  rcases form with same | form
  · rw [same]
    exact reaches.mono (by omega)
  obtain ⟨low, high⟩ := abs_le.mp reaches.abs_rootScale_le
  have word : (Int64.ofInt x.rootScale).toInt = x.rootScale := by
    rw [Int64.toInt_ofInt]
    refine Int.bmod_eq_of_le ?_ ?_
    · change -2 ^ 63 ≤ _
      omega
    · change _ < (2 : ℤ) ^ 63
      omega
  have digits : x.squareRoot.digits ≤ 101 := by
    refine digits_le_of_natAbs_lt (by decide) ?_
    rw [form]
    exact (roundHalfEven_le x.wholeRoot 100).trans_lt
      (Nat.pow_lt_pow_right (by decide) (by decide))
  have scale : x.squareRoot.scale.toInt = x.rootScale := by
    rw [form]
    exact word
  have bounded : x.squareRoot.Reaches (101 + (reach + 101)) :=
    reaches_of_digits (by exact_mod_cast digits) (by omega) (by omega)
  exact bounded.mono (by omega)

/-! ## Leading digits -/

/-- A product of numbers other than zero begins where both begin together, or one place further to
the right. -/
theorem place_multiply (nonzero : x.mantissa ≠ 0) (nonzeroToo : y.mantissa ≠ 0)
    (fits : |x.scale.toInt| + |y.scale.toInt| < 2 ^ 63) :
    (x.multiply y).mantissa ≠ 0 ∧ x.place + y.place - 1 ≤ (x.multiply y).place ∧
      (x.multiply y).place ≤ x.place + y.place := by
  obtain ⟨product, -⟩ := real_multiply fits
  obtain ⟨lower, upper⟩ := real_bounds nonzero
  obtain ⟨lowerToo, upperToo⟩ := real_bounds nonzeroToo
  have some := abs_pos.mpr ((real_eq_zero_iff x).not.mpr nonzero)
  have someToo := abs_pos.mpr ((real_eq_zero_iff y).not.mpr nonzeroToo)
  have present : (x.multiply y).mantissa ≠ 0 := by
    refine (real_eq_zero_iff _).not.mp (abs_pos.mp ?_)
    rw [product, abs_mul]
    exact mul_pos some someToo
  refine ⟨present, ?_, ?_⟩
  · have above : (10 : ℝ) ^ (x.place - 1 + (y.place - 1)) ≤ |(x.multiply y).real| := by
      rw [product, abs_mul, zpow_add₀ (by norm_num)]
      gcongr
    have bound := lt_place_of_le_abs present above
    omega
  · refine place_le_of_abs_lt present ?_
    rw [product, abs_mul, zpow_add₀ (by norm_num)]
    exact mul_lt_mul'' upper upperToo some.le someToo.le

/-- With so many digits a number other than zero begins at most one place from where it began. -/
theorem place_withDigits (nonzero : x.mantissa ≠ 0) {count : ℕ} (counted : 2 ≤ count)
    (few : count ≤ 2 ^ 60) (room : x.Reaches (2 ^ 61 - count)) :
    (x.withDigits count).mantissa ≠ 0 ∧ x.place - 1 ≤ (x.withDigits count).place ∧
      (x.withDigits count).place ≤ x.place + 1 := by
  have stored := room.digits_le
  have positive := room.pos
  have position := room.lt_place
  obtain ⟨leading, low, high⟩ := room
  have more := le_digits_withDigits nonzero counted few (by omega)
  have fewer := digits_withDigits_le (x := x) (by omega : 0 < count)
  have present : (x.withDigits count).mantissa ≠ 0 := by
    have kept := sign_withDigits (x := x) (by omega : 0 < count)
    intro none
    rw [sign, sign, none, Int.sign_zero, eq_comm, Int.sign_eq_zero_iff_zero] at kept
    exact nonzero kept
  unfold place at leading position
  have scale := toInt_scale_withDigits (x := x) count (by omega) (by omega)
  refine ⟨present, ?_, ?_⟩ <;> unfold place <;> omega

/-- Whether a decimal that is not zero begins less than so many places from the point, with a place to
spare for rounding. -/
structure Leads (x : Decimal) (distance : ℤ) : Prop where
  nonzero : x.mantissa ≠ 0
  near : |x.place| + 1 < distance

namespace Leads

variable {distance further : ℤ}

/-- With few digits the reach is the distance of the leading digit and the digits. -/
theorem reaches (leads : x.Leads distance) {count : ℕ} (stored : x.digits ≤ count) :
    x.Reaches (distance + count) := by
  obtain ⟨low, high⟩ := abs_lt.mp (lt_sub_iff_add_lt.mpr leads.near)
  unfold place at low high
  refine ⟨?_, by omega, by omega⟩
  unfold place
  omega

/-- What begins within a distance does so within a larger one. -/
theorem mono (leads : x.Leads distance) (larger : distance ≤ further) : x.Leads further :=
  ⟨leads.nonzero, leads.near.trans_le larger⟩

/-- A product that is taken to so many digits begins at the distances of both factors together. -/
theorem multiply_withDigits (left : x.Leads distance) (right : y.Leads further) {stored count : ℕ}
    (few : x.digits ≤ stored) (fewToo : y.digits ≤ stored) (counted : 2 ≤ count)
    (sparse : count ≤ 2 ^ 60) (room : distance + further + 2 * stored + count ≤ 2 ^ 61) :
    ((x.multiply y).withDigits count).Leads (distance + further) := by
  have reaches := left.reaches few
  have reachesToo := right.reaches fewToo
  have scale := reaches.abs_scale_le
  have scaleToo := reachesToo.abs_scale_le
  obtain ⟨low, high⟩ := abs_lt.mp (lt_sub_iff_add_lt.mpr left.near)
  obtain ⟨lowToo, highToo⟩ := abs_lt.mp (lt_sub_iff_add_lt.mpr right.near)
  obtain ⟨present, after, before⟩ := place_multiply left.nonzero right.nonzero (by omega)
  obtain ⟨kept, behind, ahead⟩ := place_withDigits present counted sparse
    ((reaches.multiply reachesToo (by omega)).mono (by omega))
  exact ⟨kept, lt_sub_iff_add_lt.mp (abs_lt.mpr ⟨by omega, by omega⟩)⟩

end Leads

/-- One has one digit. -/
theorem digits_one_le : one.digits ≤ 1 :=
  digits_le_of_natAbs_lt (by decide) (by decide : (1 : ℤ).natAbs < 10 ^ 1)

/-- One begins in front of the point. -/
theorem leads_one : one.Leads 3 := by
  have single := digits_one_le
  have written := one.one_le_digits
  have place : one.place = 1 := by
    rw [Decimal.place, show one.scale.toInt = 0 from rfl]
    omega
  exact ⟨by decide, by rw [place]; norm_num⟩

end Calculator.Decimal
