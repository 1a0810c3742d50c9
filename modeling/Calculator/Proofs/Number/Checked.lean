import Calculator.Proofs.Number.Reach
import Mathlib

/-!
# Arithmetic of decimals without wrapping

The same arithmetic of decimals, in which every machine word that is made of a scale, a number of
digits or an exponent is checked: a sum, a difference or a number that does not fit the word leaves
no result. Where there is a result, no scale and no exponent wrapped on the way to it.

For decimals whose reach leaves room the checks pass, and the result is that of the arithmetic
without them.
-/

namespace Calculator.Checked

open Decimal (Reaches quotientDigits dropZeros divideMagnitudes roundHalfEven commonScale)

/-! ## Machine words -/

/-- Whether a number fits a machine word. -/
def Fits (value : ℤ) : Prop := -2 ^ 63 ≤ value ∧ value < 2 ^ 63

/-- Whether a number fits can be computed. -/
instance (value : ℤ) : Decidable (Fits value) := inferInstanceAs (Decidable (_ ∧ _))

/-- Goes on if these numbers fit machine words. -/
def fitting (values : List ℤ) : Option Unit := if ∀ value ∈ values, Fits value then some () else none

/-- The machine word that holds a number, if there is one. -/
def word (value : ℤ) : Option Int64 := if Fits value then some (Int64.ofInt value) else none

/-- The sum of two machine words, if a word holds it. -/
def sum (a b : Int64) : Option Int64 := word (a.toInt + b.toInt)

/-- The difference of two machine words, if a word holds it. -/
def difference (a b : Int64) : Option Int64 := word (a.toInt - b.toInt)

section Word

variable {a b : Int64}

/-- Nothing is refused if all numbers fit. -/
theorem fitting_eq {values : List ℤ} (fits : ∀ value ∈ values, Fits value) :
    fitting values = some () := if_pos fits

/-- A natural number that fits is its word. -/
theorem word_eq {value : ℕ} (small : (value : ℤ) < 2 ^ 63) :
    word value = some (Int64.ofNat value) := by
  rw [word, if_pos ⟨by omega, small⟩, Int64.ofInt_eq_ofNat]

/-- A sum that fits is what the sum of the words is. -/
theorem sum_eq (low : -2 ^ 63 ≤ a.toInt + b.toInt) (high : a.toInt + b.toInt < 2 ^ 63) :
    sum a b = some (a + b) := by
  rw [sum, word, if_pos ⟨low, high⟩, Int64.ofInt_add, Int64.ofInt_toInt, Int64.ofInt_toInt]

/-- A difference that fits is what the difference of the words is. -/
theorem difference_eq (low : -2 ^ 63 ≤ a.toInt - b.toInt) (high : a.toInt - b.toInt < 2 ^ 63) :
    difference a b = some (a - b) := by
  rw [difference, word, if_pos ⟨low, high⟩, Int64.ofInt_sub, Int64.ofInt_toInt, Int64.ofInt_toInt]

end Word

/-! ## Outcomes -/

/-- Goes on with a result that is not a fault. -/
def follow {α β : Type} (outcome : Outcome α) (next : α → Option (Outcome β)) : Option (Outcome β) :=
  match outcome with
  | .error fault => some (.error fault)
  | .ok value => next value

/-- Whether a computation passes its checks with the outcome that there is without them, of which
something holds if it is a result. -/
structure Agrees {α : Type} (checked : Option (Outcome α)) (outcome : Outcome α)
    (Holds : α → Prop) : Prop where
  computed : checked = some outcome
  holds : ∀ value, outcome = .ok value → Holds value

namespace Agrees

variable {α β : Type} {Holds More : α → Prop}

/-- Nothing is to be shown of a fault. -/
theorem failure (fault : Fault) : Agrees (some (.error fault)) (.error fault) Holds :=
  ⟨rfl, fun _ done => nomatch done⟩

/-- A result is what it is shown to be. -/
theorem result {value : α} (holds : Holds value) : Agrees (some (.ok value)) (.ok value) Holds := by
  refine ⟨rfl, ?_⟩
  rintro _ ⟨⟩
  exact holds

/-- What follows from a property of the result holds too. -/
theorem mono {checked : Option (Outcome α)} {outcome : Outcome α}
    (agrees : Agrees checked outcome Holds) (weaker : ∀ value, Holds value → More value) :
    Agrees checked outcome More :=
  ⟨agrees.computed, fun value done => weaker value (agrees.holds value done)⟩

/-- Going on passes the checks if it does so with every result. -/
theorem follow {outcome : Outcome β} {next : β → Option (Outcome α)} {plain : β → Outcome α}
    (step : ∀ value, outcome = .ok value → Agrees (next value) (plain value) Holds) :
    Agrees (follow outcome next) (outcome >>= plain) Holds := by
  cases outcome with
  | error fault => exact failure fault
  | ok value => exact step value rfl

end Agrees

/-! ## Arithmetic -/

/-- The exponent of the leading digit. -/
def exponent (x : Decimal) : Option Int64 := do
  if x.isZero then return 0
  else difference (← difference (← word x.digits) 1) x.scale

/-- The exact sum, over the common scale. -/
def add (x y : Decimal) : Option Decimal := do
  let scale := commonScale x y
  fitting [scale.toInt - x.scale.toInt, scale.toInt - y.scale.toInt]
  return x.add y

/-- The exact difference. -/
def subtract (x y : Decimal) : Option Decimal := add x y.negated

/-- The order of two values, by the positions of their leading digits and by their mantissas over
the common scale. -/
def order (x y : Decimal) : Option Ordering := do
  let scale := commonScale x y
  fitting [x.digits - x.scale.toInt, y.digits - y.scale.toInt, scale.toInt - x.scale.toInt,
    scale.toInt - y.scale.toInt]
  return x.order y

/-- Whether one value is below another. -/
def isLess (x y : Decimal) : Option Bool := do return (← order x y) == .lt

/-- Whether the value is one. -/
def isOne (x : Decimal) : Option Bool := do return (← order x .one) == .eq

/-- The exact product. -/
def multiply (x y : Decimal) : Option Decimal := do
  if ← isOne x then return y
  else if ← isOne y then return x
  else return ⟨x.mantissa * y.mantissa, ← sum x.scale y.scale⟩

/-- The form without trailing zeros. -/
def normalized (x : Decimal) : Option Decimal := do
  if x.isZero then return .zero
  else
    let (magnitude, dropped) := dropZeros x.digits x.mantissa.natAbs
    return ⟨x.mantissa.sign * magnitude, ← difference x.scale (← word dropped)⟩

/-- The form with exactly so many digits. -/
def withDigits (x : Decimal) (count : ℕ) : Option Decimal := do
  let digits := x.digits
  if count < digits then
    let excess := digits - count
    let unit := tenTo excess
    let quotient := x.mantissa.tdiv unit
    let rest := x.mantissa.tmod unit
    return ⟨if (unit : ℤ) ≤ 2 * rest then quotient + 1 else quotient,
      ← difference x.scale (← word excess)⟩
  else
    let missing := count - digits
    return ⟨x.mantissa * tenTo missing, ← sum x.scale (← word missing)⟩

/-- The quotient by a divisor that is not zero. -/
def divide (x y : Decimal) : Option Decimal := do
  if x.isZero then return x
  else if ← isOne y then return x
  else
    let scale ← difference x.scale y.scale
    if x.mantissa = y.mantissa then return ⟨1, scale⟩
    else
      let (magnitude, places) := divideMagnitudes x.mantissa.natAbs y.mantissa.natAbs
      return ⟨x.mantissa.sign * y.mantissa.sign * magnitude, ← sum scale (← word places)⟩

/-- The square root to a hundred digits. -/
def squareRoot (x : Decimal) : Option Decimal := do
  if x.isZero then return x
  else if ← isOne x then return x
  else
    let extra := Digits.count x.wholeRoot - quotientDigits
    let rounding := roundHalfEven x.wholeRoot quotientDigits
    let half := Int.fdiv (2 * quotientDigits - x.place) 2
    fitting [x.place, 2 * quotientDigits - x.place, half, extra, half + extra, rounding.2]
    return ⟨rounding.1, ← word (half + extra - rounding.2)⟩

/-- Whether the value lies strictly between minus one and one without being zero. -/
def isSmall (x : Decimal) : Option Bool := do return (← exponent x) < 0 && !x.isZero

/-- The largest integer that does not exceed the value. Beside the exponent, only the magnitude of
the scale is looked at. -/
def floor (x : Decimal) : Option (Outcome ℤ) := do
  let _ ← isSmall x
  return x.floor

/-- The integer part of the value. -/
def truncate (x : Decimal) : Option (Outcome ℤ) := do
  let _ ← isSmall x
  return x.truncate

/-- The value as an integer, if it is one and of a usable size. -/
def integer? (x : Decimal) : Option (Option ℤ) := do
  let _ ← isSmall x
  return x.integer?

/-! ## Room -/

section Room

variable {x y : Decimal} {reach other : ℤ}

/-- The exponent is computed where there is room for the reach. -/
theorem exponent_eq (reaches : x.Reaches reach) (room : reach < 2 ^ 62) :
    exponent x = some x.exponent := by
  by_cases zero : x.isZero = true
  · rw [exponent, if_pos zero, Decimal.exponent, if_pos zero]
    rfl
  have stored := reaches.digits_le
  have written := x.one_le_digits
  have position := reaches.lt_place
  obtain ⟨leading, low, high⟩ := reaches
  unfold Decimal.place at leading position
  have single : (1 : Int64).toInt = 1 := rfl
  have digits : (Int64.ofNat x.digits).toInt = x.digits := Int64.toInt_ofNat_of_lt (by omega)
  have first := toInt_sub_of_fits (a := Int64.ofNat x.digits) (b := 1) (by omega) (by omega)
  rw [exponent, if_neg zero, word_eq (by omega), Option.bind_eq_bind, Option.bind_some,
    difference_eq (by omega) (by omega), Option.bind_some, difference_eq (by omega) (by omega),
    Decimal.exponent, if_neg zero]

/-- The differences to a common scale fit. -/
theorem commonScale_fits (left : x.Reaches reach) (right : y.Reaches other)
    (room : reach + other < 2 ^ 63) :
    Fits ((commonScale x y).toInt - x.scale.toInt) ∧
      Fits ((commonScale x y).toInt - y.scale.toInt) := by
  have positive := left.pos
  have positiveToo := right.pos
  obtain ⟨-, low, high⟩ := left
  obtain ⟨-, lowToo, highToo⟩ := right
  rcases Decimal.commonScale_eq_or x y with same | same <;> rw [same] <;>
    refine ⟨⟨?_, ?_⟩, ⟨?_, ?_⟩⟩ <;> omega

/-- Sums are computed where there is room. -/
theorem add_eq (left : x.Reaches reach) (right : y.Reaches other) (room : reach + other < 2 ^ 63) :
    add x y = some (x.add y) := by
  obtain ⟨first, second⟩ := commonScale_fits left right room
  rw [add, fitting_eq (by simpa using ⟨first, second⟩)]
  rfl

/-- Differences are computed where there is room. -/
theorem subtract_eq (left : x.Reaches reach) (right : y.Reaches other)
    (room : reach + other < 2 ^ 63) : subtract x y = some (x.subtract y) :=
  add_eq left right.negated room

/-- Values are compared where there is room. -/
theorem order_eq (left : x.Reaches reach) (right : y.Reaches other)
    (room : reach + other < 2 ^ 63) : order x y = some (x.order y) := by
  obtain ⟨first, second⟩ := commonScale_fits left right room
  have positive := left.pos
  have positiveToo := right.pos
  have position := left.lt_place
  have positionToo := right.lt_place
  have leading := left.place_le
  have leadingToo := right.place_le
  have place : Fits x.place := ⟨by omega, by omega⟩
  have placeToo : Fits y.place := ⟨by omega, by omega⟩
  unfold Decimal.place at place placeToo
  rw [order, fitting_eq (by simpa using ⟨place, placeToo, first, second⟩)]
  rfl

/-- Values are compared where there is room. -/
theorem isLess_eq (left : x.Reaches reach) (right : y.Reaches other)
    (room : reach + other < 2 ^ 63) : isLess x y = some (x.isLess y) := by
  rw [isLess, order_eq left right room]
  rfl

/-- A value is compared with one where there is room. -/
theorem isOne_eq (reaches : x.Reaches reach) (room : reach + 1 < 2 ^ 63) :
    isOne x = some x.isOne := by
  rw [isOne, order_eq reaches Decimal.reaches_one room]
  rfl

/-- Products are computed where there is room for both reaches together. -/
theorem multiply_eq (left : x.Reaches reach) (right : y.Reaches other)
    (room : reach + other < 2 ^ 63) : multiply x y = some (x.multiply y) := by
  have positive := left.pos
  have positiveToo := right.pos
  have low := left.le_scale
  have high := left.scale_le
  have lowToo := right.le_scale
  have highToo := right.scale_le
  rw [multiply, isOne_eq left (by omega), isOne_eq right (by omega),
    sum_eq (by omega) (by omega), Decimal.multiply]
  simp only [Option.bind_eq_bind, Option.bind_some, Option.pure_def]
  split_ifs <;> rfl

/-- Trailing zeros are dropped where there is room. -/
theorem normalized_eq (reaches : x.Reaches reach) (room : reach < 2 ^ 62) :
    normalized x = some x.normalized := by
  rw [normalized, Decimal.normalized]
  split_ifs
  · rfl
  have few := (Decimal.dropZeros_spec x.digits x.mantissa.natAbs).2
  have stored := reaches.digits_le
  generalize dropZeros x.digits x.mantissa.natAbs = answer at few
  have position := reaches.lt_place
  obtain ⟨leading, low, high⟩ := reaches
  unfold Decimal.place at leading
  have dropped : (Int64.ofNat answer.2).toInt = answer.2 := Int64.toInt_ofNat_of_lt (by omega)
  dsimp only
  rw [word_eq (by omega), Option.bind_eq_bind, Option.bind_some,
    difference_eq (by omega) (by omega)]
  rfl

/-- Digits are taken where there is room for them. -/
theorem withDigits_eq (reaches : x.Reaches reach) {count : ℕ} (room : reach + count < 2 ^ 62) :
    withDigits x count = some (x.withDigits count) := by
  have positive := reaches.pos
  have stored := reaches.digits_le
  have position := reaches.lt_place
  obtain ⟨leading, low, high⟩ := reaches
  unfold Decimal.place at leading position
  rw [withDigits, Decimal.withDigits]
  dsimp only
  by_cases excessive : count < x.digits
  · have excess : (Int64.ofNat (x.digits - count)).toInt = (x.digits - count : ℕ) :=
      Int64.toInt_ofNat_of_lt (by omega)
    rw [if_pos excessive, if_pos excessive, word_eq (by omega), Option.bind_eq_bind,
      Option.bind_some, difference_eq (by omega) (by omega)]
    rfl
  · have missing : (Int64.ofNat (count - x.digits)).toInt = (count - x.digits : ℕ) :=
      Int64.toInt_ofNat_of_lt (by omega)
    rw [if_neg excessive, if_neg excessive, word_eq (by omega), Option.bind_eq_bind,
      Option.bind_some, sum_eq (by omega) (by omega)]
    rfl

/-- Quotients are computed where there is room for both reaches together. -/
theorem divide_eq (left : x.Reaches reach) (right : y.Reaches other)
    (room : reach + other + y.digits + 101 < 2 ^ 62) : divide x y = some (x.divide y) := by
  have positive := left.pos
  have positiveToo := right.pos
  have low := left.le_scale
  have high := left.scale_le
  have lowToo := right.le_scale
  have highToo := right.scale_le
  have hundred : quotientDigits = 100 := rfl
  have scale := toInt_sub_of_fits (a := x.scale) (b := y.scale) (by omega) (by omega)
  have few := Decimal.divideMagnitudes_places_le x.mantissa.natAbs y.mantissa.natAbs
  rw [show Digits.count y.mantissa.natAbs = y.digits from rfl] at few
  rw [divide, Decimal.divide, isOne_eq right (by omega), difference_eq (by omega) (by omega)]
  cases x.isZero with
  | true => rfl
  | false =>
    cases y.isOne with
    | true => rfl
    | false =>
      generalize divideMagnitudes x.mantissa.natAbs y.mantissa.natAbs = answer at few
      have places : (Int64.ofNat answer.2).toInt = answer.2 := Int64.toInt_ofNat_of_lt (by omega)
      have total := sum_eq (a := x.scale - y.scale) (b := Int64.ofNat answer.2) (by omega) (by omega)
      have small : word answer.2 = some (Int64.ofNat answer.2) := word_eq (by omega)
      simp only [Bool.false_eq_true, Bool.or_false, if_false, Option.bind_eq_bind, Option.bind_some,
        Option.pure_def, small, total]
      split_ifs <;> rfl

/-- Roots are computed where there is room. -/
theorem squareRoot_eq (reaches : x.Reaches reach) (room : reach < 2 ^ 60) :
    squareRoot x = some x.squareRoot := by
  have positive := reaches.pos
  have stored := reaches.digits_le
  have position := reaches.lt_place
  have leading := reaches.place_le
  have hundred : quotientDigits = 100 := rfl
  rw [squareRoot, Decimal.squareRoot, isOne_eq reaches (by omega)]
  cases zero : x.isZero with
  | true => rfl
  | false =>
    cases x.isOne with
    | true => rfl
    | false =>
      have few := Decimal.count_wholeRoot_le (x := x) (by simpa [Decimal.isZero] using zero)
      obtain ⟨low, high⟩ := abs_le.mp reaches.abs_rootScale_le
      have half : (2 * quotientDigits - x.place : ℤ).fdiv 2 = x.rootScale :=
        Int.fdiv_eq_ediv_of_nonneg _ (by omega)
      have same := (Decimal.roundHalfEven_spec x.wholeRoot quotientDigits).1
      simp only [Bool.false_eq_true, Bool.or_false, if_false, Option.bind_eq_bind, Option.bind_some,
        Option.pure_def]
      rw [fitting_eq, Option.bind_some, word, if_pos]
      · rfl
      · rw [half, same]
        exact ⟨by omega, by omega⟩
      · rw [half, same]
        simp only [List.forall_mem_cons, Fits]
        refine ⟨?_, ?_, ?_, ?_, ?_, ?_, by simp⟩ <;> omega

/-- The exponent tells whether a value is small. -/
theorem isSmall_eq (reaches : x.Reaches reach) (room : reach < 2 ^ 62) :
    isSmall x = some x.isSmall := by
  rw [isSmall, exponent_eq reaches room]
  rfl

/-- Integers next to a value are found where there is room. -/
theorem floor_eq (reaches : x.Reaches reach) (room : reach < 2 ^ 62) : floor x = some x.floor := by
  rw [floor, isSmall_eq reaches room]
  rfl

/-- Integer parts are found where there is room. -/
theorem truncate_eq (reaches : x.Reaches reach) (room : reach < 2 ^ 62) :
    truncate x = some x.truncate := by
  rw [truncate, isSmall_eq reaches room]
  rfl

/-- Integers are told from other values where there is room. -/
theorem integer?_eq (reaches : x.Reaches reach) (room : reach < 2 ^ 62) :
    integer? x = some x.integer? := by
  rw [integer?, isSmall_eq reaches room]
  rfl

end Room

end Calculator.Checked
