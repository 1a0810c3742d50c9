import Calculator.Proofs.Number.Checked
import Mathlib

/-!
# Elementary functions without wrapping

The exponential, the logarithm and powers over the arithmetic in which machine words are checked. A
term of a series reaches further than the one before it by no more than a fixed number of places, and
the number of terms is limited, so a summation of which the argument reaches not too far has room. An
argument of the exponential may begin far to the right of the point; its first term is negligible.
-/

namespace Calculator.Checked

open Decimal (Reaches Leads seriesTerms reductionSteps)

/-! ## Series -/

/-- Whether a term is too small to change the leading digits of a sum. -/
def isNegligible (term total : Decimal) (digits : ℕ) : Option Bool := do
  if term.isZero then return true
  else if total.isZero then return false
  else return (← exponent term) < (← difference (← difference (← exponent total) (← word digits)) 1)

/-- Adds the terms of a series to a sum until one is negligible. -/
def sumSeries {State : Type} (next : State → Option (State × Decimal)) (digits : ℕ) :
    ℕ → State → Decimal → Option Decimal
  | 0, _, total => some total
  | terms + 1, state, total => do
    let (following, term) ← next state
    if ← isNegligible term total digits then return total
    else sumSeries next digits terms following (← add total term)

/-- The next term of the exponential series. -/
def exponentialTerm (x : Decimal) (work : ℕ) :
    Decimal × UInt32 → Option ((Decimal × UInt32) × Decimal)
  | (term, n) => do
    let following ← withDigits (← divide (← multiply term x) (.ofNat n.toNat)) work
    return ((following, n + 1), following)

/-- Halves a value until its magnitude is at most one half, counting the halvings. -/
def halve : ℕ → Decimal → ℕ → Option (Decimal × ℕ)
  | 0, x, halvings => some (x, halvings)
  | steps + 1, x, halvings => do
    if ← isLess .half x.absolute then halve steps (← multiply x .half) (halvings + 1)
    else return (x, halvings)

/-- Squares a value a number of times, rounding after every step. -/
def squareTimes (work : ℕ) : ℕ → Decimal → Option Decimal
  | 0, x => some x
  | times + 1, x => do squareTimes work times (← withDigits (← multiply x x) work)

/-- The exponential function. -/
def exponential (x : Decimal) (digits : ℕ) : Option (Outcome Decimal) := do
  if x.isZero then return .ok .one
  else
    let exponent ← exponent x
    if 9 < exponent || (← isLess (.ofNat Decimal.exponentialLimit) x.absolute) then
      return if x.isNegative then .ok .zero else .error .badArgumentValue
    else
      let (reduced, halvings) ← halve reductionSteps x 0
      let work := digits + 4 + halvings * 3 / 10
      let total ← sumSeries (exponentialTerm reduced work) work seriesTerms (.one, 1) .one
      return .ok (← withDigits (← squareTimes work halvings total) digits)

/-- The next term of the series whose terms are the odd powers of a value over their exponents. -/
def oddPowerTerm (square : Decimal) (work : ℕ) :
    Decimal × UInt32 → Option ((Decimal × UInt32) × Decimal)
  | (power, n) => do
    let following ← withDigits (← multiply power square) work
    let index := n + 2
    return ((following, index), ← withDigits (← divide following (.ofNat index.toNat)) work)

/-- The logarithm of a value near one. -/
def logarithmNearOne (m : Decimal) (work : ℕ) : Option Decimal := do
  let z ← withDigits (← divide (← subtract m .one) (← add m .one)) work
  let square ← withDigits (← multiply z z) work
  multiply (← sumSeries (oddPowerTerm square work) work seriesTerms (z, 1) z) (.ofNat 2)

/-- Takes square roots until a value differs from one by at most a tenth, counting them. -/
def approachOne (digits : ℕ) : ℕ → Decimal → ℕ → Option (Decimal × ℕ)
  | 0, m, roots => some (m, roots)
  | steps + 1, m, roots => do
    if ← isLess ⟨1, 1⟩ (← subtract m .one).absolute then
      approachOne digits steps (← withDigits (← squareRoot m) digits) (roots + 1)
    else return (m, roots)

/-- The logarithm of a positive value of moderate size. -/
def reducedLogarithm (m : Decimal) (work : ℕ) : Option Decimal := do
  let (near, roots) ← approachOne (work + 4) reductionSteps m 0
  multiply (← logarithmNearOne near (work + 4)) (.ofNat (twoTo roots))

/-- The natural logarithm of a positive value. -/
def naturalLogarithm (x : Decimal) (digits : ℕ) : Option (Outcome Decimal) := do
  if !x.isPositive then return .error .badArgumentValue
  else if ← isOne x then return .ok .zero
  else
    let work := digits + 6
    let exponent ← exponent x
    let leading ← reducedLogarithm ⟨x.mantissa, ← sum x.scale exponent⟩ work
    if exponent = 0 then return .ok (← withDigits leading digits)
    else
      let tens ← multiply (← reducedLogarithm (.ofNat 10) work) (.ofInt exponent.toInt)
      return .ok (← withDigits (← add leading tens) digits)

/-! ## Summation -/

section Summation

variable {x total term : Decimal} {reach other : ℤ}

/-- Terms are compared with sums where there is room. -/
theorem isNegligible_eq (left : term.Reaches reach) (right : total.Reaches other) (digits : ℕ)
    (room : reach < 2 ^ 62) (roomToo : other + digits < 2 ^ 62) :
    isNegligible term total digits = some (Decimal.isNegligible term total digits) := by
  have positive := right.pos
  obtain ⟨low, high⟩ := abs_le.mp (right.abs_exponent_le (by omega))
  have single : (1 : Int64).toInt = 1 := rfl
  have plain : (Int64.ofNat digits).toInt = digits := Int64.toInt_ofNat_of_lt (by omega)
  have first := toInt_sub_of_fits (a := total.exponent) (b := Int64.ofNat digits) (by omega) (by omega)
  rw [isNegligible, Decimal.isNegligible, exponent_eq left room, exponent_eq right (by omega),
    word_eq (by omega)]
  simp only [Option.bind_eq_bind, Option.bind_some]
  rw [difference_eq (by omega) (by omega), Option.bind_some, difference_eq (by omega) (by omega)]
  cases term.isZero with
  | true => rfl
  | false => cases total.isZero <;> rfl

/-- A summation is computed where there is room for as many terms as it may take, if the state and the
term reach further by no more than a fixed number of places with every term. -/
theorem sumSeries_eq {State : Type} {next : State → State × Decimal}
    {checked : State → Option (State × Decimal)} (held : ℤ → State → Prop) (growth limit : ℤ)
    (digits : ℕ) (grows : 0 < growth)
    (step : ∀ {reach state}, held reach state → reach ≤ limit → checked state = some (next state) ∧
      held (reach + growth) (next state).1 ∧ (next state).2.Reaches (reach + growth - 1))
    (room : limit + growth + digits < 2 ^ 61) (terms : ℕ) {reach : ℤ} {state : State}
    {total : Decimal} (start : held reach state) (reaches : total.Reaches reach)
    (within : reach + terms * growth ≤ limit) :
    sumSeries checked digits terms state total =
        some (Decimal.sumSeries next digits terms state total) ∧
      (Decimal.sumSeries next digits terms state total).Reaches (reach + terms * growth) := by
  induction terms generalizing reach state total with
  | zero => exact ⟨rfl, reaches.mono (by simp)⟩
  | succ terms inductionHypothesis =>
    have pos := reaches.pos
    have further : 0 ≤ terms * growth := Int.mul_nonneg (Int.natCast_nonneg _) grows.le
    have split : ((terms + 1 : ℕ) : ℤ) * growth = growth + terms * growth := by
      push_cast
      ring
    rw [split] at within ⊢
    obtain ⟨stepped, holds, termReaches⟩ := step start (by omega)
    have sumReaches : (total.add (next state).2).Reaches (reach + growth) :=
      (reaches.add termReaches).mono (by omega)
    obtain ⟨rest, restReaches⟩ := inductionHypothesis holds sumReaches (by omega)
    rw [sumSeries, stepped, Decimal.sumSeries_succ]
    simp only [Option.bind_eq_bind, Option.bind_some, Option.pure_def]
    rw [isNegligible_eq termReaches reaches digits (by omega) (by omega),
      add_eq reaches termReaches (by omega), Option.bind_some, Option.bind_some, rest]
    split_ifs
    · exact ⟨rfl, reaches.mono (by omega)⟩
    · exact ⟨rfl, restReaches.mono (by omega)⟩

end Summation

/-- An index of a series has ten digits at most. -/
theorem reaches_index (n : UInt32) :
    (Decimal.ofNat n.toNat).Reaches 10 ∧ (Decimal.ofNat n.toNat).digits ≤ 10 := by
  have below : n.toNat < 10 ^ 10 := lt_of_lt_of_le n.toNat_lt (by decide)
  exact ⟨Decimal.reaches_ofNat _ 10 (by decide) below,
    Decimal.digits_le_of_natAbs_lt (by decide) below⟩

/-! ## The exponential -/

section Exponential

variable {x : Decimal} {reach size : ℤ}

/-- The term of the exponential series is computed where there is room for the last term and the
argument. -/
theorem exponentialTerm_eq (argument : x.Reaches size) {work : ℕ} (counted : 0 < work)
    (state : Decimal × UInt32) (held : state.1.Reaches reach)
    (room : reach + size + 121 + work < 2 ^ 62) :
    exponentialTerm x work state = some (Decimal.exponentialTerm x work state) ∧
      (Decimal.exponentialTerm x work state).2.Reaches (reach + size + 121 + work) := by
  obtain ⟨term, n⟩ := state
  have pos := held.pos
  have posToo := argument.pos
  obtain ⟨index, few⟩ := reaches_index n
  have product := held.multiply argument (by omega)
  have quotient := (product.divide index (by omega)).mono
    (show reach + size + 10 + (Decimal.ofNat n.toNat).digits + 101 ≤ reach + size + 121 by omega)
  refine ⟨?_, quotient.withDigits counted (by omega)⟩
  rw [exponentialTerm, multiply_eq held argument (by omega), Option.bind_eq_bind, Option.bind_some,
    divide_eq product index (by omega), Option.bind_some, withDigits_eq quotient (by omega)]
  rfl

/-- The exponential series is summed where there is room for all terms that it may take. -/
theorem exponentialSum_eq (argument : x.Reaches size) {work : ℕ} (counted : 0 < work)
    (room : size + 2 * work ≤ 2 ^ 27) :
    sumSeries (exponentialTerm x work) work seriesTerms (.one, 1) .one =
      some (Decimal.sumSeries (Decimal.exponentialTerm x work) work seriesTerms (.one, 1) .one) := by
  have pos := argument.pos
  have terms : (seriesTerms : ℤ) = 2 ^ 32 := rfl
  have step {reach : ℤ} {state : Decimal × UInt32} (held : state.1.Reaches reach)
      (within : reach ≤ 2 ^ 60) :
      exponentialTerm x work state = some (Decimal.exponentialTerm x work state) ∧
        (Decimal.exponentialTerm x work state).1.1.Reaches (reach + (size + 122 + work)) ∧
        (Decimal.exponentialTerm x work state).2.Reaches (reach + (size + 122 + work) - 1) := by
    obtain ⟨computed, reaches⟩ := exponentialTerm_eq argument counted state held (by omega)
    refine ⟨computed, ?_, reaches.mono (by omega)⟩
    exact reaches.mono (by omega)
  have start : ((Decimal.one, 1) : Decimal × UInt32).1.Reaches 1 := Decimal.reaches_one
  exact (sumSeries_eq (fun reach (state : Decimal × UInt32) => state.1.Reaches reach)
    (size + 122 + work) (2 ^ 60) work (by omega) step (by omega) seriesTerms start
    Decimal.reaches_one (by rw [terms]; omega)).1

/-- Halvings are computed where there is room for them. -/
theorem halve_eq (steps : ℕ) (reaches : x.Reaches reach) (room : reach + steps < 2 ^ 62)
    (halvings : ℕ) :
    halve steps x halvings = some (Decimal.halve steps x halvings) ∧
      (Decimal.halve steps x halvings).1.Reaches (reach + steps) := by
  induction steps generalizing x reach halvings with
  | zero => exact ⟨rfl, reaches.mono (by simp)⟩
  | succ steps inductionHypothesis =>
    push_cast at room ⊢
    have half : Decimal.half.Reaches 1 := Decimal.reaches_tenth 5 (by decide)
    have product := reaches.multiply half (by omega)
    obtain ⟨rest, restReaches⟩ := inductionHypothesis product (by omega) (halvings + 1)
    rw [halve, isLess_eq half reaches.absolute (by omega), Decimal.halve,
      multiply_eq reaches half (by omega)]
    simp only [Option.bind_eq_bind, Option.bind_some, Option.pure_def, rest]
    split_ifs
    · exact ⟨rfl, restReaches.mono (by omega)⟩
    · exact ⟨rfl, reaches.mono (by omega)⟩

/-- Squarings are computed where there is room for the distance of the leading digit, which doubles
with every one. -/
theorem squareTimes_eq {work : ℕ} (stored : ℕ) (counted : 2 ≤ work) (kept : work + 1 ≤ stored)
    (fits : stored ≤ 2 ^ 50) (times : ℕ) {distance : ℤ} (leads : x.Leads distance)
    (few : x.digits ≤ stored) (room : 2 ^ times * distance ≤ 2 ^ 60) :
    squareTimes work times x = some (Decimal.squareTimes work times x) ∧
      (Decimal.squareTimes work times x).Leads (2 ^ times * distance) ∧
      (Decimal.squareTimes work times x).digits ≤ stored := by
  induction times generalizing x distance with
  | zero =>
    rw [pow_zero, one_mul]
    exact ⟨rfl, leads, few⟩
  | succ times inductionHypothesis =>
    have positive : 0 < distance := lt_of_le_of_lt (by positivity) leads.near
    have power : (1 : ℤ) ≤ 2 ^ times := one_le_pow₀ (by norm_num)
    have doubled : (2 : ℤ) ^ (times + 1) * distance = 2 ^ times * (distance + distance) := by ring
    have larger : distance + distance ≤ 2 ^ times * (distance + distance) :=
      le_mul_of_one_le_left (by omega) power
    rw [doubled] at room ⊢
    have reaches := leads.reaches few
    have product := reaches.multiply reaches (by omega)
    have digits := Decimal.digits_withDigits_le (x := x.multiply x) (by omega : 0 < work)
    have next := leads.multiply_withDigits leads few few counted (by omega) (by omega)
    have rest := inductionHypothesis next (digits.trans kept) room
    rw [squareTimes, multiply_eq reaches reaches (by omega), Option.bind_eq_bind, Option.bind_some,
      withDigits_eq product (by omega), Option.bind_some]
    exact rest

/-- The sum of the exponential series begins near the point and has few digits. -/
theorem leads_exponentialSum (reduced : Decimal.Reduced x) {work : ℕ} (precise : 11 ≤ work)
    (few : work ≤ 73) :
    (Decimal.sumSeries (Decimal.exponentialTerm x work) work seriesTerms (.one, 1) .one).Leads 4 ∧
      (Decimal.sumSeries (Decimal.exponentialTerm x work) work seriesTerms (.one, 1) .one).digits ≤
        2 ^ 21 := by
  obtain ⟨total, close, scale, ends⟩ := Decimal.close_exponentialSum reduced precise few
  rw [ends seriesTerms (by decide)]
  have tiny := Decimal.grain_le_pow (show 10 < work by omega)
  have sized : Mild ((1 : ℕ) : ℝ) total.real := by
    refine ((mild_exp x.real).of_close close).mono ?_
    have small := reduced.small
    push_cast
    linarith
  have place := Decimal.abs_place_le sized
  obtain ⟨low, high⟩ := abs_le.mp place
  obtain ⟨-, above⟩ := abs_le.mp scale
  refine ⟨⟨(Decimal.real_eq_zero_iff total).not.mp sized.1, by push_cast at place; omega⟩, ?_⟩
  unfold Decimal.place at high
  push_cast at high
  omega

/-- A tiny argument ends the summation at once. -/
theorem exponentialSum_of_tiny (reaches : x.Reaches reach) (room : reach ≤ 2 ^ 61)
    (nonzero : x.mantissa ≠ 0) (stored : x.digits ≤ 2 ^ 60) {digits : ℕ} (few : digits ≤ 60)
    (tiny : x.place ≤ -digits - 8) :
    sumSeries (exponentialTerm x (digits + 4)) (digits + 4) seriesTerms (.one, 1) .one = some .one ∧
      Decimal.sumSeries (Decimal.exponentialTerm x (digits + 4)) (digits + 4) seriesTerms (.one, 1)
        .one = .one := by
  have negligible := Decimal.isNegligible_of_tiny nonzero (by omega) few tiny
  rw [← Decimal.exponentialTerm_first] at negligible
  obtain ⟨computed, termReaches⟩ := exponentialTerm_eq reaches (show 0 < digits + 4 by omega) (.one, 1)
    Decimal.reaches_one (by push_cast; omega)
  have compared := isNegligible_eq termReaches Decimal.reaches_one (digits + 4)
    (by push_cast; omega) (by push_cast; omega)
  obtain ⟨terms, succ⟩ : ∃ terms, seriesTerms = terms + 1 := ⟨4294967295, rfl⟩
  rw [succ, sumSeries, computed, Decimal.sumSeries_succ, if_pos negligible]
  simp only [Option.bind_eq_bind, Option.bind_some, Option.pure_def]
  rw [compared, negligible]
  exact ⟨rfl, trivial⟩

/-- The argument is halved not too often, and the series of what is left has a sum near the point. -/
theorem exists_exponentialSum (reaches : x.Reaches reach) (room : reach ≤ 2 ^ 61)
    (nonzero : x.mantissa ≠ 0) (bounded : |x.real| ≤ 10 ^ 9) (stored : x.digits ≤ 100) {digits : ℕ}
    (several : 7 ≤ digits) (few : digits ≤ 60) :
    ∃ reduced, ∃ halvings ≤ 31, ∃ total : Decimal, total.Leads 4 ∧ total.digits ≤ 2 ^ 21 ∧
      halve reductionSteps x 0 = some (reduced, halvings) ∧
      Decimal.halve reductionSteps x 0 = (reduced, halvings) ∧
      sumSeries (exponentialTerm reduced (digits + 4 + halvings * 3 / 10))
        (digits + 4 + halvings * 3 / 10) seriesTerms (.one, 1) .one = some total ∧
      Decimal.sumSeries (Decimal.exponentialTerm reduced (digits + 4 + halvings * 3 / 10))
        (digits + 4 + halvings * 3 / 10) seriesTerms (.one, 1) .one = total := by
  have steps : reductionSteps = 64 := rfl
  rcases le_or_gt x.place (-digits - 8) with tiny | far
  · have small := Decimal.abs_le_of_tiny nonzero tiny
    have halved := Decimal.halve_of_le (small.trans (by norm_num)) reductionSteps 0
    obtain ⟨computed, -⟩ := halve_eq reductionSteps reaches (by rw [steps]; omega) 0
    obtain ⟨summed, ended⟩ := exponentialSum_of_tiny reaches room nonzero (by omega) few tiny
    rw [halved] at computed
    exact ⟨x, 0, by norm_num, .one, Decimal.leads_one.mono (by norm_num),
      Decimal.digits_one_le.trans (by norm_num), computed, halved, summed, ended⟩
  · obtain ⟨halvings, within, reduced, applicable, -, ends⟩ :=
      Decimal.reduced_of_halve nonzero (by omega) bounded few far
    have halved := ends reductionSteps (by decide)
    have short : x.place ≤ 10 := Decimal.place_le_of_abs_lt nonzero (bounded.trans_lt (by norm_num))
    have near : x.Reaches 200 := by
      unfold Decimal.place at short far
      refine ⟨?_, by omega, by omega⟩
      unfold Decimal.place
      omega
    obtain ⟨computed, argument⟩ := halve_eq reductionSteps near (by rw [steps]; omega) 0
    rw [halved] at computed argument
    rw [steps] at argument
    have summed := exponentialSum_eq argument
      (show 0 < digits + 4 + halvings * 3 / 10 by omega) (by push_cast; omega)
    obtain ⟨leads, limited⟩ := leads_exponentialSum applicable
      (show 11 ≤ digits + 4 + halvings * 3 / 10 by omega) (by omega)
    exact ⟨reduced, halvings, within, _, leads, limited, computed, halved, summed, rfl⟩

/-- A sum that begins near the point is squared as often as an argument is halved. -/
theorem squareTimes_withDigits_eq {total : Decimal} (leads : total.Leads 4)
    (short : total.digits ≤ 2 ^ 21) {work halvings : ℕ} (counted : 2 ≤ work) (sparse : work < 2 ^ 21)
    (within : halvings ≤ 31) {digits : ℕ} (several : 0 < digits) (few : digits ≤ 60) :
    (squareTimes work halvings total >>= fun squared => withDigits squared digits) =
        some ((Decimal.squareTimes work halvings total).withDigits digits) ∧
      ((Decimal.squareTimes work halvings total).withDigits digits).Reaches (2 ^ 60) := by
  have power : (2 : ℤ) ^ halvings ≤ 2 ^ 31 := pow_le_pow_right₀ (by norm_num) within
  obtain ⟨computed, squared, limited⟩ := squareTimes_eq (2 ^ 21) counted sparse (by norm_num)
    halvings leads short (by omega)
  have reaches := squared.reaches limited
  push_cast at reaches
  rw [computed, Option.bind_eq_bind, Option.bind_some, withDigits_eq reaches (by omega)]
  exact ⟨rfl, (reaches.withDigits several (by omega)).mono (by omega)⟩

/-- The exponential is computed for any argument of few digits, whatever its scale is. -/
theorem exponential_eq (reaches : x.Reaches reach) (room : reach ≤ 2 ^ 61) (stored : x.digits ≤ 100)
    {digits : ℕ} (several : 7 ≤ digits) (few : digits ≤ 60) :
    Agrees (exponential x digits) (Decimal.exponential x digits) (·.Reaches (2 ^ 60)) := by
  have limit : (Decimal.ofNat Decimal.exponentialLimit).Reaches 10 :=
    Decimal.reaches_ofNat _ 10 (by decide) (by decide)
  rw [exponential, Decimal.exponential, exponent_eq reaches (by omega),
    isLess_eq limit reaches.absolute (by omega)]
  simp only [Option.bind_eq_bind, Option.bind_some, Option.pure_def]
  split_ifs with zero large negative
  · exact .result (Decimal.reaches_one.mono (by norm_num))
  · exact .result (Decimal.reaches_zero.mono (by norm_num))
  · exact .failure _
  have nonzero : x.mantissa ≠ 0 := by simpa [Decimal.isZero] using zero
  have bounded : |x.real| ≤ 10 ^ 9 := by
    have within : ¬ (Decimal.ofNat Decimal.exponentialLimit).isLess x.absolute = true :=
      fun beyond => large (by rw [beyond, Bool.or_true])
    rw [Decimal.isLess_iff, Decimal.real_ofNat, Decimal.real_absolute, not_lt] at within
    exact within.trans (by norm_num [Decimal.exponentialLimit])
  obtain ⟨reduced, halvings, within, total, leads, limited, computed, halved, summed, ended⟩ :=
    exists_exponentialSum reaches room nonzero bounded stored several few
  obtain ⟨squared, finished⟩ := squareTimes_withDigits_eq leads limited
    (show 2 ≤ digits + 4 + halvings * 3 / 10 by omega) (by omega) within
    (show 0 < digits by omega) few
  obtain ⟨middle, first, second⟩ := Option.bind_eq_some_iff.mp squared
  rw [computed, halved, Option.bind_some]
  dsimp only
  rw [summed, ended, Option.bind_some, first, Option.bind_some, second]
  exact .result finished

end Exponential

/-! ## The logarithm -/

section Logarithm

variable {x m : Decimal} {reach size : ℤ}

/-- The term of the series of odd powers is computed where there is room for the last power and the
square. -/
theorem oddPowerTerm_eq {square : Decimal} (argument : square.Reaches size) {work : ℕ}
    (counted : 0 < work) (state : Decimal × UInt32) (held : state.1.Reaches reach)
    (room : reach + size + 121 + 2 * work < 2 ^ 62) :
    oddPowerTerm square work state = some (Decimal.oddPowerTerm square work state) ∧
      (Decimal.oddPowerTerm square work state).1.1.Reaches (reach + size + work) ∧
      (Decimal.oddPowerTerm square work state).2.Reaches (reach + size + 121 + 2 * work) := by
  obtain ⟨power, n⟩ := state
  have pos := held.pos
  have posToo := argument.pos
  obtain ⟨index, few⟩ := reaches_index (n + 2)
  have product := held.multiply argument (by omega)
  have following := product.withDigits counted (by omega)
  have quotient := (following.divide index (by omega)).mono
    (show reach + size + work + 10 + (Decimal.ofNat (n + 2).toNat).digits + 101 ≤
      reach + size + 121 + work by omega)
  refine ⟨?_, following, (quotient.withDigits counted (by omega)).mono (by omega)⟩
  rw [oddPowerTerm, multiply_eq held argument (by omega), Option.bind_eq_bind, Option.bind_some,
    withDigits_eq product (by omega), Option.bind_some]
  dsimp only
  rw [divide_eq following index (by omega), Option.bind_some, withDigits_eq quotient (by omega)]
  rfl

/-- The logarithm near one is computed where there is room for all terms that the series may take. -/
theorem logarithmNearOne_eq (reaches : m.Reaches reach) {work : ℕ} (counted : 0 < work)
    (room : reach + work ≤ 2 ^ 20) :
    logarithmNearOne m work = some (Decimal.logarithmNearOne m work) ∧
      (Decimal.logarithmNearOne m work).Reaches (2 ^ 59) := by
  have pos := reaches.pos
  have terms : (seriesTerms : ℤ) = 2 ^ 32 := rfl
  have above := (reaches.subtract Decimal.reaches_one).mono (show _ ≤ reach + 1 by omega)
  have below := (reaches.add Decimal.reaches_one).mono (show _ ≤ reach + 1 by omega)
  have stored := below.digits_le
  have quotient := (above.divide below (by omega)).mono
    (show _ ≤ 4 * reach + 105 by omega)
  have z := quotient.withDigits counted (by omega)
  have product := z.multiply z (by omega)
  have square := product.withDigits counted (by omega)
  have two : (Decimal.ofNat 2).Reaches 1 := Decimal.reaches_ofNat 2 1 (by decide) (by decide)
  rw [logarithmNearOne, Decimal.logarithmNearOne,
    subtract_eq reaches Decimal.reaches_one (by omega), add_eq reaches Decimal.reaches_one (by omega)]
  simp only [Option.bind_eq_bind, Option.bind_some]
  rw [divide_eq above below (by omega), Option.bind_some, withDigits_eq quotient (by omega),
    Option.bind_some, multiply_eq z z (by omega), Option.bind_some, withDigits_eq product (by omega),
    Option.bind_some]
  generalize ((m.subtract .one).divide (m.add .one)).withDigits work = argument at *
  generalize (argument.multiply argument).withDigits work = power at *
  have step {size : ℤ} {state : Decimal × UInt32} (held : state.1.Reaches size)
      (within : size ≤ 2 ^ 58) :
      oddPowerTerm power work state = some (Decimal.oddPowerTerm power work state) ∧
        (Decimal.oddPowerTerm power work state).1.1.Reaches (size + (8 * reach + 400 + 6 * work)) ∧
        (Decimal.oddPowerTerm power work state).2.Reaches
          (size + (8 * reach + 400 + 6 * work) - 1) := by
    obtain ⟨computed, following, term⟩ := oddPowerTerm_eq square counted state held (by omega)
    exact ⟨computed, following.mono (by omega), term.mono (by omega)⟩
  have start : ((argument, 1) : Decimal × UInt32).1.Reaches (4 * reach + 105 + work) := z
  obtain ⟨summed, sumReaches⟩ := sumSeries_eq
    (fun reach (state : Decimal × UInt32) => state.1.Reaches reach) (8 * reach + 400 + 6 * work)
    (2 ^ 58) work (by omega) step (by omega) seriesTerms start z
    (by rw [terms]; omega)
  rw [summed, Option.bind_some, multiply_eq sumReaches two (by rw [terms]; omega)]
  exact ⟨rfl, (sumReaches.multiply two (by rw [terms]; omega)).mono (by rw [terms]; omega)⟩

/-- Roots are taken where there is room for them. -/
theorem approachOne_eq {work : ℕ} (counted : 0 < work) (steps : ℕ) (reaches : m.Reaches reach)
    (room : reach + steps * (202 + work) ≤ 2 ^ 59) (roots : ℕ) :
    approachOne work steps m roots = some (Decimal.approachOne work steps m roots) ∧
      (Decimal.approachOne work steps m roots).1.Reaches (reach + steps * (202 + work)) ∧
      (Decimal.approachOne work steps m roots).2 ≤ roots + steps := by
  induction steps generalizing m reach roots with
  | zero => exact ⟨rfl, reaches.mono (by simp), le_rfl⟩
  | succ steps inductionHypothesis =>
    have pos := reaches.pos
    have further : (0 : ℤ) ≤ steps * (202 + work) := by positivity
    have split : ((steps + 1 : ℕ) : ℤ) * (202 + work) = 202 + work + steps * (202 + work) := by
      push_cast
      ring
    rw [split] at room ⊢
    have tenth : (⟨1, 1⟩ : Decimal).Reaches 1 := Decimal.reaches_tenth 1 (by decide)
    have distance := reaches.subtract Decimal.reaches_one
    have root := reaches.squareRoot (by omega)
    have rounded := (root.withDigits counted (by omega)).mono
      (show _ ≤ reach + (202 + work) by omega)
    obtain ⟨rest, restReaches, few⟩ := inductionHypothesis rounded (by omega) (roots + 1)
    rw [approachOne, subtract_eq reaches Decimal.reaches_one (by omega), Decimal.approachOne,
      squareRoot_eq reaches (by omega)]
    simp only [Option.bind_eq_bind, Option.bind_some, Option.pure_def]
    rw [isLess_eq tenth distance.absolute (by omega), Option.bind_some,
      withDigits_eq root (by omega), Option.bind_some, rest]
    split_ifs
    · exact ⟨rfl, restReaches.mono (by omega), by omega⟩
    · exact ⟨rfl, reaches.mono (by omega), by omega⟩

/-- The logarithm of a number near the point is computed. -/
theorem reducedLogarithm_eq (reaches : m.Reaches 200) {work : ℕ} (few : work ≤ 100) :
    reducedLogarithm m work = some (Decimal.reducedLogarithm m work) ∧
      (Decimal.reducedLogarithm m work).Reaches (2 ^ 59 + 20) := by
  have steps : (reductionSteps : ℤ) = 64 := rfl
  obtain ⟨approached, near, roots⟩ := approachOne_eq (show 0 < work + 4 by omega) reductionSteps
    reaches (by rw [steps]; push_cast; omega) 0
  rw [steps] at near
  rw [reducedLogarithm, Decimal.reducedLogarithm, approached, Option.bind_eq_bind, Option.bind_some]
  generalize Decimal.approachOne (work + 4) reductionSteps m 0 = answer at near roots
  obtain ⟨logarithm, logarithmReaches⟩ := logarithmNearOne_eq near (show 0 < work + 4 by omega)
    (by push_cast; omega)
  have power : (Decimal.ofNat (twoTo answer.2)).Reaches 20 := by
    refine Decimal.reaches_ofNat _ 20 (by decide) ?_
    calc 2 ^ answer.2
      _ ≤ 2 ^ 64 := Nat.pow_le_pow_right (by decide) (roots.trans (by decide))
      _ < 10 ^ 20 := by decide
  dsimp only
  rw [logarithm, Option.bind_eq_bind, Option.bind_some, multiply_eq logarithmReaches power (by omega)]
  exact ⟨rfl, logarithmReaches.multiply power (by omega)⟩

/-- The natural logarithm is computed for any number of few digits, whatever its scale is. -/
theorem naturalLogarithm_eq (reaches : x.Reaches reach) (room : reach ≤ 2 ^ 61)
    (stored : x.digits ≤ 100) {digits : ℕ} (several : 0 < digits) (few : digits ≤ 90) :
    Agrees (naturalLogarithm x digits) (Decimal.naturalLogarithm x digits)
      (·.Reaches (2 ^ 59 + 2 ^ 10)) := by
  have near := reaches.pos
  obtain ⟨low, high⟩ := abs_le.mp (reaches.abs_exponent_le (by omega))
  rw [naturalLogarithm, Decimal.naturalLogarithm, isOne_eq reaches (by omega),
    exponent_eq reaches (by omega)]
  simp only [Option.bind_eq_bind, Option.bind_some, Option.pure_def]
  cases positive : x.isPositive with
  | false => exact .failure _
  | true =>
    cases x.isOne with
    | true => exact .result (Decimal.reaches_zero.mono (by norm_num))
    | false =>
      have nonzero : x.mantissa ≠ 0 := by
        rw [Decimal.isPositive, decide_eq_true_iff] at positive
        exact positive.ne'
      have written := x.one_le_digits
      have left := reaches.le_scale
      have right := reaches.scale_le
      have exponent := Decimal.toInt_exponent_of_fits nonzero (by omega) (by omega)
      -- The leading digit is moved in front of the point.
      have scale : (x.scale + x.exponent).toInt = x.digits - 1 := by
        rw [toInt_add_of_fits (by omega) (by omega), exponent]
        omega
      have moved : (⟨x.mantissa, x.scale + x.exponent⟩ : Decimal).Reaches 200 := by
        rw [show (200 : ℤ) = 100 + 100 by norm_num]
        refine Decimal.reaches_of_digits ?_ ?_ ?_
        · exact_mod_cast stored
        · dsimp only
          omega
        · dsimp only
          omega
      have ten : (Decimal.ofNat 10).Reaches 200 :=
        (Decimal.reaches_ofNat 10 2 (by decide) (by decide)).mono (by norm_num)
      have factor : (Decimal.ofInt x.exponent.toInt).Reaches 19 :=
        Decimal.reaches_ofInt _ 19 (by decide) (by norm_num; omega)
      obtain ⟨leading, leadingReaches⟩ := reducedLogarithm_eq moved (show digits + 6 ≤ 100 by omega)
      obtain ⟨tens, tensReaches⟩ := reducedLogarithm_eq ten (show digits + 6 ≤ 100 by omega)
      have product := tensReaches.multiply factor (by norm_num)
      have total := (leadingReaches.add product).mono (show _ ≤ (2 ^ 59 + 40 : ℤ) by norm_num)
      simp only [Bool.not_true, Bool.false_eq_true, if_false]
      rw [sum_eq (by omega) (by omega), Option.bind_some, leading, Option.bind_some, tens,
        Option.bind_some, multiply_eq tensReaches factor (by norm_num), Option.bind_some,
        add_eq leadingReaches product (by norm_num), Option.bind_some,
        withDigits_eq leadingReaches (by omega), withDigits_eq total (by omega)]
      split_ifs
      · exact .result ((leadingReaches.withDigits several (by omega)).mono (by omega))
      · exact .result ((total.withDigits several (by omega)).mono (by omega))

end Logarithm

end Calculator.Checked
