import Calculator.Number.Operation
import Calculator.Proofs.Number.CheckedSeries
import Calculator.Proofs.Number.Made
import Calculator.Render
import Mathlib

/-!
# Operations without wrapping

Powers, remainders and the operators on decimals over the arithmetic in which machine words are
checked, and the text of a decimal.
-/

namespace Calculator.Checked

open Decimal (Reaches Leads)

/-! ## Powers -/

/-- The power with an integer exponent. -/
def integerPower (x : Decimal) (exponent : ℤ) (digits : ℕ) : Option (Outcome Decimal) := do
  if x.isZero then
    if exponent = 0 then return .error .undefinedOperation
    else if exponent < 0 then return .error .divideByZero
    else return .ok .zero
  else if UInt64.size ≤ exponent.natAbs then return .error .badArgumentValue
  else
    let work := digits + 6 + Digits.binaryCount exponent.natAbs
    let product ← raiseOnto (fun left right => do withDigits (← multiply left right) work) .one x
      exponent.natAbs
    let result ← if exponent < 0 then divide .one product else some product
    return .ok (← withDigits result digits)

/-- The power of a base that is not negative, or of any base if the exponent is an integer. -/
def power (x y : Decimal) (digits : ℕ) : Option (Outcome Decimal) := do
  let exponent ← exponent y
  if Decimal.powerDigits < exponent then
    return if x.isZero && y.isPositive then .ok .zero else .error .badArgumentValue
  else
    match ← integer? y with
    | some whole => integerPower x whole digits
    | none =>
      if x.isZero then return if y.isPositive then .ok .zero else .error .divideByZero
      else if x.isNegative then return .error .badArgumentValue
      else
        let work := digits + 6
        follow (← naturalLogarithm x (work + exponent.toInt.toNat)) fun logarithm => do
          follow (← exponential (← withDigits (← multiply y logarithm) work) work) fun result => do
            return .ok (← withDigits result digits)

/-! ## Operators -/

/-- The remainder of a decimal division, rounded down or toward zero. -/
def remainderBy (x y : Decimal) (digits : ℕ) (down : Bool) : Option (Outcome Decimal) := do
  if y.isZero then return .error .divideByZero
  else
    let spread ← difference (← exponent x) (← exponent y)
    if Int64.ofNat Decimal.integerDigits < spread then return .error .badArgumentValue
    else
      let quotient ← withDigits (← divide x y) (digits + spread.toInt.toNat)
      follow (← if down then floor quotient else truncate quotient) fun whole => do
        return .ok (← subtract x (← multiply y (.ofInt whole)))

/-- The decimal that results from an arithmetic operation on two decimals. -/
def operate (command : Command) (x y : Decimal) (digits : ℕ) : Option (Outcome Decimal) := do
  match command with
  | .add => return .ok (← add x y)
  | .subtract => return .ok (← subtract x y)
  | .multiply => return .ok (← multiply x y)
  | .divide => if y.isZero then return .error .divideByZero else return .ok (← divide x y)
  | .modulo => remainderBy x y digits true
  | .remainder => remainderBy x y digits false
  | .power => power x y digits
  | _ => return .error .badArgumentType

/-- The decimal of a tier that a value is rounded to. -/
def make (value : Decimal) (precision : Precision) : Option Rounded := do
  if value.isZero then return ⟨.zero, precision⟩
  else return ⟨← normalized (← withDigits value precision.digits), precision⟩

/-- The result of an arithmetic operation on two decimals, rounded to the wider tier. -/
def binary (command : Command) (x y : Rounded) : Option (Outcome Rounded) := do
  let precision := Precision.widest x.precision y.precision
  follow (← operate command x.value y.value precision.workingDigits) fun value => do
    return .ok (← make value precision)

/-- The text of a decimal. -/
def text (value : Rounded) : Option String := do
  if value.value.isZero then return "0."
  else
    let x ← normalized value.value
    let digits := Digits.write x.mantissa.natAbs
    let exponent := (← exponent x).toInt
    let unsigned :=
      if Render.smallestPositional ≤ exponent && exponent < value.precision.digits then
        Render.positional digits x.scale.toInt
      else Render.scientific digits exponent
    return Render.sign value.value.isNegative ++ String.ofList unsigned

/-! ## Room for powers -/

section Squaring

variable {α : Type} {multiply : α → α → Id α} {checked : α → α → Option α}

/-- A step of repeated squaring that cannot fail. -/
theorem run_raiseOnto (multiply : α → α → Id α) (result base : α) (exponent : ℕ) :
    (raiseOnto multiply result base exponent).run =
      if exponent = 0 then result
      else if exponent / 2 = 0 then (if exponent % 2 = 1 then (multiply result base).run else result)
      else (raiseOnto multiply (if exponent % 2 = 1 then (multiply result base).run else result)
        (multiply base base).run (exponent / 2)).run := by
  rw [raiseOnto]
  split_ifs <;> rfl

/-- A step of repeated squaring that is checked. -/
theorem raiseOnto_some (checked : α → α → Option α) (result base : α) (exponent : ℕ) :
    raiseOnto checked result base exponent =
      if exponent = 0 then some result
      else (if exponent % 2 = 1 then checked result base else some result) >>= fun next =>
        if exponent / 2 = 0 then some next
        else checked base base >>= fun square => raiseOnto checked next square (exponent / 2) := by
  rw [raiseOnto]
  split_ifs <;> rfl

/-- A power is computed where there is room for what it measures, if the measure of a product is that
of the factors together. -/
theorem raiseOnto_eq (held : ℤ → α → Prop) (limit : ℤ)
    (product : ∀ {a b x y}, held a x → held b y → a + b ≤ limit →
      checked x y = some (multiply x y).run ∧ held (a + b) (multiply x y).run)
    (exponent : ℕ) {a b : ℤ} {result base : α} (resultHeld : held a result) (baseHeld : held b base)
    (nonneg : 0 ≤ a) (nonnegToo : 0 ≤ b) (within : a + b * exponent ≤ limit) :
    raiseOnto checked result base exponent = some (raiseOnto multiply result base exponent).run ∧
      held (a + b * exponent) (raiseOnto multiply result base exponent).run := by
  induction exponent using Nat.strong_induction_on generalizing a b result base with
  | _ exponent inductionHypothesis =>
    rw [raiseOnto_some, run_raiseOnto]
    by_cases finished : exponent = 0
    · rw [if_pos finished, if_pos finished, finished]
      exact ⟨rfl, by simpa using resultHeld⟩
    rw [if_neg finished, if_neg finished]
    -- The last binary digit of the exponent is worth one factor of the base, or none.
    have digits : (exponent : ℤ) = (exponent % 2 : ℕ) + 2 * (exponent / 2 : ℕ) := by omega
    have whole : a + b * (exponent % 2 : ℕ) + (b + b) * (exponent / 2 : ℕ) = a + b * exponent := by
      rw [digits]
      push_cast
      ring
    have rest : 0 ≤ (b + b) * ((exponent / 2 : ℕ) : ℤ) := by positivity
    obtain ⟨next, stepped, same, nextHeld⟩ : ∃ next,
        (if exponent % 2 = 1 then checked result base else some result) = some next ∧
        (if exponent % 2 = 1 then (multiply result base).run else result) = next ∧
        held (a + b * (exponent % 2 : ℕ)) next := by
      split_ifs with odd
      · rw [odd, Nat.cast_one, mul_one] at whole ⊢
        obtain ⟨computed, holds⟩ := product resultHeld baseHeld (by omega)
        exact ⟨_, computed, rfl, holds⟩
      · have even : exponent % 2 = 0 := by omega
        rw [even, Nat.cast_zero, mul_zero, add_zero]
        exact ⟨_, rfl, rfl, resultHeld⟩
    rw [stepped, same, Option.bind_eq_bind, Option.bind_some]
    by_cases last : exponent / 2 = 0
    · rw [last, Nat.cast_zero, mul_zero, add_zero] at whole
      rw [if_pos last, if_pos last, ← whole]
      exact ⟨rfl, nextHeld⟩
    rw [if_neg last, if_neg last, ← whole]
    have doubled : b + b ≤ (b + b) * ((exponent / 2 : ℕ) : ℤ) :=
      le_mul_of_one_le_right (by omega) (by omega)
    have smaller : 0 ≤ b * ((exponent % 2 : ℕ) : ℤ) := by positivity
    obtain ⟨squared, squareHeld⟩ := product baseHeld baseHeld (by omega)
    rw [squared, Option.bind_some]
    exact inductionHypothesis (exponent / 2) (by omega) nextHeld squareHeld (by omega) (by omega)
      (by omega)

end Squaring

section Power

variable {x y : Decimal} {reach : ℤ}

/-- A machine word has no more than sixty-four binary digits. -/
theorem binaryCount_le {number : ℕ} (small : number < 2 ^ 64) : Digits.binaryCount number ≤ 64 := by
  unfold Digits.binaryCount
  split_ifs with zero
  · decide
  · exact Nat.succ_le_of_lt ((Nat.log2_lt zero).mpr small)

/-- Products that are rounded are computed where there is room for the distances of their leading
digits. -/
theorem multiply_withDigits_eq {a b : ℤ} {work stored : ℕ} (counted : 2 ≤ work)
    (kept : work + 1 ≤ stored) (fits : stored ≤ 2 ^ 10) (room : a + b ≤ 2 ^ 61 - 2 ^ 12)
    (left : x.Leads a ∧ x.digits ≤ stored) (right : y.Leads b ∧ y.digits ≤ stored) :
    (multiply x y >>= fun product => withDigits product work) =
        some ((x.multiply y).withDigits work) ∧
      ((x.multiply y).withDigits work).Leads (a + b) ∧
      ((x.multiply y).withDigits work).digits ≤ stored := by
  obtain ⟨leads, short⟩ := left
  obtain ⟨leadsToo, shortToo⟩ := right
  have reaches := leads.reaches short
  have reachesToo := leadsToo.reaches shortToo
  have product := reaches.multiply reachesToo (by omega)
  have digits := Decimal.digits_withDigits_le (x := x.multiply y) (by omega : 0 < work)
  rw [multiply_eq reaches reachesToo (by omega), Option.bind_eq_bind, Option.bind_some,
    withDigits_eq product (by omega)]
  exact ⟨rfl, leads.multiply_withDigits leadsToo short shortToo counted (by omega) (by omega),
    digits.trans kept⟩

/-- Powers that are rounded are computed where there is room for the distance of the leading digit, as
often as the exponent says. -/
theorem roundedPower_eq (nonzero : x.mantissa ≠ 0) (stored : x.digits ≤ 200) {exponent work : ℕ}
    (room : exponent * (|x.place| + 2) ≤ 2 ^ 60) (counted : 2 ≤ work) (few : work < 200) :
    ∃ product : Decimal,
      raiseOnto (fun left right => multiply left right >>= fun product => withDigits product work) .one
        x exponent = some product ∧
      (raiseOnto (fun left right => ((left.multiply right).withDigits work : Id Decimal)) .one x
        exponent).run = product ∧
      product.Reaches (2 ^ 60 + 203) ∧ product.digits ≤ 200 := by
  have start : Decimal.one.Leads 3 ∧ Decimal.one.digits ≤ 200 :=
    ⟨Decimal.leads_one, Decimal.digits_one_le.trans (by norm_num)⟩
  have base : x.Leads (|x.place| + 2) ∧ x.digits ≤ 200 := ⟨⟨nonzero, by omega⟩, stored⟩
  have product {a b : ℤ} {y z : Decimal} (left : y.Leads a ∧ y.digits ≤ 200)
      (right : z.Leads b ∧ z.digits ≤ 200) (within : a + b ≤ 2 ^ 60 + 3) :=
    multiply_withDigits_eq counted few (by norm_num) (by omega) left right
  obtain ⟨raised, leads, short⟩ := raiseOnto_eq
    (fun distance (value : Decimal) => value.Leads distance ∧ value.digits ≤ 200) (2 ^ 60 + 3) product
    exponent start base (by norm_num) (by positivity) (by rw [mul_comm]; omega)
  refine ⟨_, raised, rfl, (leads.reaches short).mono ?_, short⟩
  rw [mul_comm]
  push_cast
  omega

/-- The power with an integer exponent is computed where there is room for the distance of the leading
digit, as often as the exponent says. -/
theorem integerPower_eq (stored : x.digits ≤ 200) {exponent : ℤ}
    (room : exponent.natAbs * (|x.place| + 2) ≤ 2 ^ 60) {digits : ℕ} (several : 0 < digits)
    (few : digits ≤ 100) :
    Agrees (integerPower x exponent digits) (Decimal.integerPower x exponent digits)
      (·.Reaches (2 ^ 60 + 2 ^ 10)) := by
  rw [integerPower, Decimal.integerPower]
  by_cases zero : x.isZero = true
  · rw [if_pos zero, if_pos zero]
    split_ifs
    · exact .failure _
    · exact .failure _
    · exact .result (Decimal.reaches_zero.mono (by norm_num))
  rw [if_neg zero, if_neg zero]
  by_cases huge : UInt64.size ≤ exponent.natAbs
  · rw [if_pos huge, if_pos huge]
    exact .failure _
  rw [if_neg huge, if_neg huge]
  have nonzero : x.mantissa ≠ 0 := by simpa [Decimal.isZero] using zero
  have binary := binaryCount_le (not_le.mp huge)
  generalize Digits.binaryCount exponent.natAbs = places at binary
  obtain ⟨product, raised, same, reaches, short⟩ := roundedPower_eq nonzero stored room
    (show 2 ≤ digits + 6 + places by omega) (by omega)
  dsimp only
  rw [raised, same, Option.bind_eq_bind, Option.bind_some]
  split_ifs
  · have quotient := (Decimal.reaches_one.divide reaches (by omega)).mono
      (show _ ≤ (2 ^ 60 + 600 : ℤ) by omega)
    rw [divide_eq Decimal.reaches_one reaches (by omega), Option.bind_some,
      withDigits_eq quotient (by omega)]
    exact .result ((quotient.withDigits several (by omega)).mono (by omega))
  · rw [Option.bind_some, withDigits_eq reaches (by omega)]
    exact .result ((reaches.withDigits several (by omega)).mono (by omega))

/-- The power is computed: with a whole exponent where there is room for the distance of the leading
digit as often as the exponent says, and with any other exponent. -/
theorem power_eq (left : x.Reaches reach) (right : y.Reaches reach) (small : reach ≤ 2 ^ 60 + 40)
    (stored : x.digits ≤ 100)
    (room : ∀ whole, y.integer? = some whole → whole.natAbs * (|x.place| + 2) ≤ 2 ^ 60)
    {digits : ℕ} (several : 7 ≤ digits) (few : digits ≤ 42) :
    Agrees (power x y digits) (Decimal.power x y digits) (·.Reaches (2 ^ 60 + 2 ^ 10)) := by
  rw [power, Decimal.power, exponent_eq right (by omega), integer?_eq right (by omega)]
  simp only [Option.bind_eq_bind, Option.bind_some, Option.pure_def]
  by_cases beyond : Decimal.powerDigits < y.exponent
  · rw [if_pos beyond, if_pos beyond]
    split_ifs
    · exact .result (Decimal.reaches_zero.mono (by norm_num))
    · exact .failure _
  rw [if_neg beyond, if_neg beyond]
  cases whole : y.integer? with
  | some whole' => exact integerPower_eq (by omega) (room _ whole) (by omega) (by omega)
  | none =>
    have limit : y.exponent.toInt ≤ 18 := by
      rw [Int64.lt_iff_toInt_lt] at beyond
      exact not_lt.mp beyond
    obtain ⟨taken, logarithmReaches⟩ := naturalLogarithm_eq left (by omega) stored
      (show 0 < digits + 6 + y.exponent.toInt.toNat by omega) (by omega)
    dsimp only
    split_ifs
    · exact .result (Decimal.reaches_zero.mono (by norm_num))
    · exact .failure _
    · exact .failure _
    rw [taken, Option.bind_some]
    refine .follow fun logarithm done => ?_
    have product := right.multiply (logarithmReaches logarithm done) (by omega)
    have argument := product.withDigits (show 0 < digits + 6 by omega) (by push_cast; omega)
    have short := Decimal.digits_withDigits_le (x := y.multiply logarithm)
      (show 0 < digits + 6 by omega)
    obtain ⟨raised, resultReaches⟩ := exponential_eq argument (by push_cast; omega) (by omega)
      (show 7 ≤ digits + 6 by omega) (by omega)
    rw [multiply_eq right (logarithmReaches logarithm done) (by omega), Option.bind_some,
      withDigits_eq product (by push_cast; omega), Option.bind_some, raised, Option.bind_some]
    refine .follow fun result done => ?_
    have reaches := resultReaches result done
    rw [withDigits_eq reaches (by omega)]
    exact .result ((reaches.withDigits (by omega) (by omega)).mono (by omega))

/-- What is left of a number after a multiple of another is computed if the factor has not too many
digits. -/
theorem leftover_eq (left : x.Reaches reach) (right : y.Reaches reach) (small : reach ≤ 2 ^ 60 + 40)
    {part : Outcome ℤ} {count : ℕ} (counted : 0 < count) (few : count ≤ 2200)
    (limited : ∀ whole, part = .ok whole → whole.natAbs < 10 ^ count) :
    Agrees (follow part fun whole => do
        return .ok (← subtract x (← multiply y (.ofInt whole))))
      (part >>= fun whole => pure (x.subtract (y.multiply (.ofInt whole))))
      (·.Reaches (2 ^ 60 + 2 ^ 12)) := by
  refine .follow fun whole done => ?_
  have factor := Decimal.reaches_ofInt _ _ counted (limited whole done)
  have multiple := right.multiply factor (by omega)
  rw [multiply_eq right factor (by omega), Option.bind_eq_bind, Option.bind_some,
    subtract_eq left multiple (by omega)]
  exact .result ((left.subtract multiple).mono (by omega))

/-- Remainders are computed where there is room for the reaches of both operands. -/
theorem remainderBy_eq (left : x.Reaches reach) (right : y.Reaches reach)
    (small : reach ≤ 2 ^ 60 + 40) (stored : y.digits ≤ 100) (digits : ℕ) (several : 0 < digits)
    (few : digits ≤ 100) (down : Bool) :
    Agrees (remainderBy x y digits down) (Decimal.remainderBy x y digits down)
      (·.Reaches (2 ^ 60 + 2 ^ 12)) := by
  obtain ⟨low, high⟩ := abs_le.mp (left.abs_exponent_le (by omega))
  obtain ⟨lowToo, highToo⟩ := abs_le.mp (right.abs_exponent_le (by omega))
  rw [remainderBy, Decimal.remainderBy, Decimal.requireDivisor, exponent_eq left (by omega),
    exponent_eq right (by omega)]
  simp only [Option.bind_eq_bind, Option.bind_some, Option.pure_def]
  by_cases zero : y.isZero = true
  · rw [if_pos zero, if_pos zero]
    exact .failure _
  rw [if_neg zero, if_neg zero, difference_eq (by omega) (by omega), Option.bind_some,
    Outcome.ok_bind]
  by_cases beyond : Int64.ofNat Decimal.integerDigits < x.exponent - y.exponent
  · rw [if_pos beyond, if_pos beyond]
    exact .failure _
  rw [if_neg beyond, if_neg beyond]
  have spread : (x.exponent - y.exponent).toInt ≤ 1000 := by
    rw [Int64.lt_iff_toInt_lt] at beyond
    exact not_lt.mp beyond
  have quotient := (left.divide right (by omega)).mono (show _ ≤ (2 ^ 61 + 300 : ℤ) by omega)
  have rounded := quotient.withDigits
    (show 0 < digits + (x.exponent - y.exponent).toInt.toNat by omega) (by push_cast; omega)
  have short := Decimal.digits_withDigits_le (x := x.divide y)
    (show 0 < digits + (x.exponent - y.exponent).toInt.toNat by omega)
  rw [divide_eq left right (by omega), Option.bind_some, withDigits_eq quotient (by push_cast; omega),
    Option.bind_some]
  generalize (x.divide y).withDigits (digits + (x.exponent - y.exponent).toInt.toNat) = ratio
    at rounded short
  rw [floor_eq rounded (by push_cast; omega), truncate_eq rounded (by push_cast; omega)]
  cases down with
  | true =>
    exact leftover_eq left right small (by omega) (by omega)
      fun whole done => Decimal.natAbs_whole_lt (.inl done)
  | false =>
    exact leftover_eq left right small (by omega) (by omega)
      fun whole done => Decimal.natAbs_whole_lt (.inr done)

/-- Arithmetic operations are computed where there is room for the reaches of both operands, and for
the power. -/
theorem operate_eq {command : Command} (left : x.Reaches reach) (right : y.Reaches reach)
    (small : reach ≤ 2 ^ 60 + 40) (stored : x.digits ≤ 100) (storedToo : y.digits ≤ 100)
    (supported : command ∈ [.add, .subtract, .multiply, .divide, .modulo, .remainder, .power])
    (room : command = .power → ∀ whole, y.integer? = some whole →
      whole.natAbs * (|x.place| + 2) ≤ 2 ^ 60)
    {digits : ℕ} (several : 7 ≤ digits) (few : digits ≤ 42) :
    Agrees (operate command x y digits) (Decimal.operate command x y digits)
      (·.Reaches (2 ^ 61 + 2 ^ 12)) := by
  simp only [List.mem_cons, List.not_mem_nil, or_false] at supported
  rcases supported with rfl | rfl | rfl | rfl | rfl | rfl | rfl <;> rw [operate, Decimal.operate]
  · rw [add_eq left right (by omega)]
    exact .result ((left.add right).mono (by omega))
  · rw [subtract_eq left right (by omega)]
    exact .result ((left.subtract right).mono (by omega))
  · rw [multiply_eq left right (by omega)]
    exact .result ((left.multiply right (by omega)).mono (by omega))
  · rw [Decimal.requireDivisor, divide_eq left right (by omega)]
    split_ifs
    · exact .failure _
    · exact .result ((left.divide right (by omega)).mono (by omega))
  · exact (remainderBy_eq left right small storedToo digits (by omega) (by omega) true).mono
      fun _ reaches => reaches.mono (by norm_num)
  · exact (remainderBy_eq left right small storedToo digits (by omega) (by omega) false).mono
      fun _ reaches => reaches.mono (by norm_num)
  · exact (power_eq left right small stored (room rfl) several few).mono
      fun _ reaches => reaches.mono (by norm_num)

end Power

/-! ## Decimals of a tier -/

section Tier

variable {reach : ℤ}

/-- A value is rounded to a tier where there is room for the digits of the tier. -/
theorem make_eq {value : Decimal} (reaches : value.Reaches reach) (room : reach + 34 < 2 ^ 62)
    (precision : Precision) :
    make value precision = some (Rounded.make value precision) ∧
      (Rounded.make value precision).value.Reaches (reach + 34) := by
  have positive := reaches.pos
  have few : 0 < precision.digits ∧ precision.digits ≤ 34 := by cases precision <;> decide
  have taken := (reaches.withDigits few.1 (by omega)).mono (show _ ≤ reach + 34 by omega)
  rw [make, Rounded.make]
  split_ifs
  · exact ⟨rfl, Decimal.reaches_zero.mono (by omega)⟩
  · rw [withDigits_eq reaches (by omega), Option.bind_eq_bind, Option.bind_some,
      normalized_eq taken room]
    exact ⟨rfl, taken.normalized (by omega)⟩

/-- A decimal is written where there is room. -/
theorem text_eq {value : Rounded} (reaches : value.value.Reaches reach) (room : reach < 2 ^ 62) :
    text value = some (Render.decimal value) := by
  rw [text, Render.decimal]
  split_ifs
  · rfl
  · rw [normalized_eq reaches room, Option.bind_eq_bind, Option.bind_some]
    dsimp only
    rw [exponent_eq (reaches.normalized (by omega)) room]
    rfl

/-- A decimal of a tier reaches as far as its scale, with the digits of the tier. -/
theorem reaches_of_isMade {x : Rounded} (made : x.IsMade) (scale : |x.value.scale.toInt| ≤ 2 ^ 60) :
    x.value.digits ≤ 34 ∧ x.value.Reaches (2 ^ 60 + 34) := by
  have few : 0 < x.precision.digits ∧ x.precision.digits ≤ 34 := by cases x.precision <;> decide
  have settled := (Rounded.isMade_iff x).mp made
  have digits : x.value.digits ≤ 34 :=
    Decimal.digits_le_of_natAbs_lt (by decide) (settled.natAbs_lt few.2)
  obtain ⟨low, high⟩ := abs_le.mp scale
  refine ⟨digits, ?_⟩
  rw [add_comm]
  exact Decimal.reaches_of_digits (by exact_mod_cast digits) low high

end Tier

section Binary

variable {command : Command} {x y : Rounded}

/-- No exponent wraps in an arithmetic operation on two decimals: every machine word that is made of a
scale, a number of digits or an exponent, for the result and for the texts of the operands and of the
result, holds the number that it stands for. The operands are any decimals that reading or decoding
makes, with scales up to an eighth of the range of machine words; a power with a whole exponent has to
keep the exponent of the base, as often as the exponent says, within that range. -/
theorem binary_fits
    (supported : command ∈ [.add, .subtract, .multiply, .divide, .modulo, .remainder, .power])
    (madeLeft : x.IsMade) (madeRight : y.IsMade) (scaleLeft : |x.value.scale.toInt| ≤ 2 ^ 60)
    (scaleRight : |y.value.scale.toInt| ≤ 2 ^ 60)
    (room : command = .power → ∀ whole, y.value.integer? = some whole →
      whole.natAbs * (|x.value.place| + 2) ≤ 2 ^ 60) (settings : Preferences) :
    ∃ outcome : Outcome Rounded, binary command x y = some outcome ∧
      Real.operate command (.decimal x) (.decimal y) settings = outcome.map .decimal ∧
      text x = some (Render.decimal x) ∧ text y = some (Render.decimal y) ∧
      ∀ result, outcome = .ok result → text result = some (Render.decimal result) := by
  obtain ⟨digits, left⟩ := reaches_of_isMade madeLeft scaleLeft
  obtain ⟨digitsToo, right⟩ := reaches_of_isMade madeRight scaleRight
  obtain ⟨several, few⟩ : 7 ≤ (Precision.widest x.precision y.precision).workingDigits ∧
      (Precision.widest x.precision y.precision).workingDigits ≤ 42 := by
    cases Precision.widest x.precision y.precision <;> decide
  obtain ⟨computed, reaches⟩ := operate_eq left right (by norm_num) (by omega) (by omega) supported
    room several few
  obtain ⟨rounded, resultReaches⟩ : Agrees (binary command x y)
      (x.value.operate command y.value
        (Precision.widest x.precision y.precision).workingDigits >>= fun value =>
          pure (Rounded.make value (Precision.widest x.precision y.precision)))
      (·.value.Reaches (2 ^ 61 + 2 ^ 13)) := by
    rw [binary, computed, Option.bind_eq_bind, Option.bind_some]
    refine .follow fun value done => ?_
    obtain ⟨made, near⟩ := make_eq (reaches value done) (by norm_num)
      (Precision.widest x.precision y.precision)
    rw [made]
    exact .result (near.mono (by norm_num))
  refine ⟨_, rounded, ?_, text_eq left (by norm_num), text_eq right (by norm_num),
    fun result done => text_eq (resultReaches result done) (by norm_num)⟩
  rw [Real.operate_decimal command (.inl ⟨x, rfl⟩)]
  change (x.value.operate command y.value (Precision.widest x.precision y.precision).workingDigits >>=
    fun value => pure (Real.ofDecimal value (Precision.widest x.precision y.precision))) = _
  cases x.value.operate command y.value (Precision.widest x.precision y.precision).workingDigits <;>
    rfl

/-- The third power of two times ten to the power of a thousand. -/
theorem binary_fits_cube :
    binary .power ⟨⟨2, -1000⟩, .decimal64⟩ ⟨⟨3, 0⟩, .decimal64⟩ =
        some (.ok ⟨⟨8, -3000⟩, .decimal64⟩) ∧
      Real.operate .power (.decimal ⟨⟨2, -1000⟩, .decimal64⟩) (.decimal ⟨⟨3, 0⟩, .decimal64⟩) default =
        .ok (.decimal ⟨⟨8, -3000⟩, .decimal64⟩) := by
  have integer : (⟨3, 0⟩ : Decimal).integer? = some 3 := by decide +kernel
  have place : (⟨2, -1000⟩ : Decimal).place = 1001 := by decide +kernel
  have answered : Real.operate .power (.decimal ⟨⟨2, -1000⟩, .decimal64⟩)
      (.decimal ⟨⟨3, 0⟩, .decimal64⟩) default = .ok (.decimal ⟨⟨8, -3000⟩, .decimal64⟩) := by
    decide +kernel
  obtain ⟨outcome, computed, same, -⟩ := binary_fits
    (show Command.power ∈ [.add, .subtract, .multiply, .divide, .modulo, .remainder, .power] by decide)
    (x := ⟨⟨2, -1000⟩, .decimal64⟩) (y := ⟨⟨3, 0⟩, .decimal64⟩) ⟨⟨2, -1000⟩, by decide +kernel⟩
    ⟨⟨3, 0⟩, by decide +kernel⟩ (by decide) (by decide) (fun _ whole found => by
      rw [integer] at found
      rw [← Option.some.inj found, place]
      norm_num) default
  obtain ⟨result, done, written⟩ := Outcome.map_eq_ok.mp (same.symm.trans answered)
  obtain rfl := Real.decimal.inj written
  exact ⟨computed.trans (congrArg some done), answered⟩

/-- The product of two decimals that reading makes, of which the sum of the exponents is beyond the
range of machine words: the exponent wraps, and a tiny number is answered in place of a fault. -/
theorem binary_wraps :
    (⟨⟨2, -5000000000000000000⟩, .decimal64⟩ : Rounded).IsMade ∧
      (⟨⟨3, -5000000000000000000⟩, .decimal64⟩ : Rounded).IsMade ∧
      binary .multiply ⟨⟨2, -5000000000000000000⟩, .decimal64⟩
        ⟨⟨3, -5000000000000000000⟩, .decimal64⟩ = none ∧
      Real.operate .multiply (.decimal ⟨⟨2, -5000000000000000000⟩, .decimal64⟩)
        (.decimal ⟨⟨3, -5000000000000000000⟩, .decimal64⟩) default =
          .ok (.decimal ⟨⟨6, 8446744073709551616⟩, .decimal64⟩) := by
  exact ⟨⟨⟨2, -5000000000000000000⟩, by decide +kernel⟩, ⟨⟨3, -5000000000000000000⟩, by decide +kernel⟩,
    by decide +kernel, by decide +kernel⟩

end Binary

end Calculator.Checked
