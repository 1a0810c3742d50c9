import Calculator.Arithmetic
import Calculator.Proofs.Number.Rational

/-!
# The exact operations

Sums, differences, products, quotients and remainders are tried on machine integers, on integers
of any size and on ratios, in this order. Where one of these has an answer, the next one has the
same, and the last one has the exact result: no operation depends on the kinds of its operands
beyond the rational numbers that they denote.
-/

namespace Calculator

/-- The operation on rational numbers that a command is, if it is one of the six operations of
exact arithmetic. The two remainders belong to the quotients rounded down and toward zero. -/
def Command.rational? : Command → Option (ℚ → ℚ → ℚ)
  | .add => some fun p q => p + q
  | .subtract => some fun p q => p - q
  | .multiply => some fun p q => p * q
  | .divide => some fun p q => p / q
  | .modulo => some fun p q => p - q * ⌊p / q⌋
  | .remainder => some fun p q => p - q * truncated (p / q)
  | _ => none

/-- Whether a command has no result if its second operand is zero. -/
def Command.divides : Command → Bool
  | .divide | .modulo | .remainder => true
  | _ => false

/-- The result of an operation of exact arithmetic: what represents the exact result, unless the
operation divides by zero. -/
def exactResult (command : Command) (operation : ℚ → ℚ → ℚ) (p q : ℚ) : Outcome Real :=
  if command.divides = true ∧ q = 0 then .error .divideByZero
  else .ok (.ofRational (operation p q))

variable {command : Command} {operation : ℚ → ℚ → ℚ}

/-! ## Ratios -/

namespace Ratio

/-- The rational number that a ratio denotes. -/
def rational (ratio : Ratio) : ℚ := ratio.numerator / ratio.denominator

/-- What a ratio denotes is represented. -/
theorem ofRatio_eq {ratio : Ratio} (nonzero : ratio.denominator ≠ 0) :
    Real.ofRatio ratio = .ok (.ofRational ratio.rational) :=
  Real.ofQuotient_eq nonzero

section Parts

variable {x y : Ratio} (left : x.denominator ≠ 0) (right : y.denominator ≠ 0)
include left right

/-- The ratio of a sum denotes the sum. -/
theorem rational_add : (x.add y).rational = x.rational + y.rational := by
  have leftCast : (x.denominator : ℚ) ≠ 0 := Int.cast_ne_zero.mpr left
  have rightCast : (y.denominator : ℚ) ≠ 0 := Int.cast_ne_zero.mpr right
  unfold rational add
  push_cast
  field_simp

/-- Taking a multiple of a ratio away takes the multiple away from what is denoted. -/
theorem rational_takeMultiple (times : ℤ) :
    (x.takeMultiple y times).rational = x.rational - y.rational * times := by
  have leftCast : (x.denominator : ℚ) ≠ 0 := Int.cast_ne_zero.mpr left
  have rightCast : (y.denominator : ℚ) ≠ 0 := Int.cast_ne_zero.mpr right
  unfold rational takeMultiple
  push_cast
  field_simp

/-- The ratio of a difference denotes the difference. -/
theorem rational_subtract : (x.subtract y).rational = x.rational - y.rational := by
  have once := rational_takeMultiple left right 1
  rwa [takeMultiple, Int.one_mul, Int.cast_one, mul_one] at once

end Parts

/-- The ratio of a product denotes the product. -/
theorem rational_multiply (x y : Ratio) : (x.multiply y).rational = x.rational * y.rational := by
  unfold rational multiply
  push_cast
  rw [div_mul_div_comm]

/-- The ratio of a quotient denotes the quotient. -/
theorem rational_divide (x y : Ratio) : (x.divide y).rational = x.rational / y.rational := by
  unfold rational divide
  push_cast
  rw [div_div_div_eq]

/-- A ratio denotes zero if its numerator is zero. -/
theorem rational_eq_zero_iff {y : Ratio} (nonzero : y.denominator ≠ 0) :
    y.rational = 0 ↔ y.numerator = 0 := by
  rw [rational, div_eq_zero_iff, Int.cast_eq_zero, or_iff_left (Int.cast_ne_zero.mpr nonzero)]

/-- On ratios every operation finds its exact result. -/
theorem operate_eq (known : command.rational? = some operation) {x y : Ratio}
    (left : x.denominator ≠ 0) (right : y.denominator ≠ 0) :
    operate command x y = (exactResult command operation x.rational y.rational).map some := by
  have product : x.denominator * y.denominator ≠ 0 := mul_ne_zero left right
  have nonzero (apart : y.numerator ≠ 0) : x.denominator * y.numerator ≠ 0 := mul_ne_zero left apart
  have represented {ratio : Ratio} (nonzero : ratio.denominator ≠ 0) {q : ℚ}
      (value : ratio.rational = q) :
      (Real.ofRatio ratio).map some = .ok (some (.ofRational q)) := by
    rw [ofRatio_eq nonzero, value]
    rfl
  -- The quotient that is rounded for a remainder is the quotient of what is denoted.
  have quotient : ((x.numerator * y.denominator : ℤ) : ℚ) / ((x.denominator * y.numerator : ℤ) : ℚ) =
      x.rational / y.rational := rational_divide x y
  cases command <;> simp only [Command.rational?, Option.some.injEq, reduceCtorEq] at known
  all_goals subst known
  case add => exact represented product (rational_add left right)
  case subtract => exact represented product (rational_subtract left right)
  case multiply => exact represented product (rational_multiply x y)
  all_goals simp only [operate, exactResult, Command.divides, true_and, rational_eq_zero_iff right]
  case divide =>
    split_ifs with zero
    · rfl
    · exact represented (nonzero zero) (rational_divide x y)
  case modulo =>
    split_ifs with zero
    · rfl
    · refine represented product ?_
      rw [modulo, rational_takeMultiple left right, ← floor_div_eq_fdiv _ _ (nonzero zero),
        quotient]
  case remainder =>
    split_ifs with zero
    · rfl
    · refine represented product ?_
      rw [remainder, rational_takeMultiple left right, ← truncated_div_eq_tdiv, quotient]

end Ratio

/-! ## Attempts -/

/-- An attempt at an operation on one kind of numbers keeps to a result if it has that result or
leaves the operation to a wider kind. -/
def KeepsTo {Number : Type} (attempt : Outcome (Option Number)) (represent : Number → Real)
    (result : Outcome Real) : Prop :=
  attempt = .ok none ∨ attempt.map (Option.map represent) = result.map some

/-- Results and answers may be put in another form. -/
theorem KeepsTo.map {Number : Type} {attempt : Outcome (Option Number)}
    {represent : Number → Real} {result : Outcome Real} (keeps : KeepsTo attempt represent result)
    (form : Real → Real) :
    KeepsTo attempt (fun number => form (represent number)) (result.map form) := by
  refine keeps.imp_right fun has => ?_
  rcases attempt with error | _ | number <;> rcases result with error' | number' <;>
    simp_all [Except.map]

/-- An attempt that keeps to a result finds it, if what follows passes an answer on and the wider
kind finds the result. -/
theorem KeepsTo.found {Number : Type} {attempt : Outcome (Option Number)}
    {represent : Number → Real} {result : Outcome Real} {next : Option Number → Outcome Real}
    (keeps : KeepsTo attempt represent result)
    (answers : ∀ number, attempt = .ok (some number) → next (some number) = .ok (represent number))
    (wider : next none = result) : attempt >>= next = result := by
  rcases keeps with left | has
  · rw [left]
    exact wider
  · rcases attempt with error | _ | number <;> rcases result with error' | number' <;>
      simp_all [Except.map, bind, Except.bind]

/-! ## Integers -/

/-- On integers every operation finds its exact result, unless it leaves the integers. -/
theorem Integer.operate_keepsTo (known : command.rational? = some operation) (a b : ℤ) :
    KeepsTo (operate command a b) id (exactResult command operation a b) := by
  have represented {result : ℤ} {q : ℚ} (value : (result : ℚ) = q) :
      KeepsTo (.ok (some (.ofInt result))) id (.ok (.ofRational q)) := by
    rw [← value, Real.ofRational_intCast]
    exact .inr rfl
  cases command <;> simp only [Command.rational?, Option.some.injEq, reduceCtorEq] at known
  all_goals subst known
  case add => exact represented (Int.cast_add a b)
  case subtract => exact represented (Int.cast_sub a b)
  case multiply => exact represented (Int.cast_mul a b)
  all_goals simp only [operate, exactResult, Command.divides, true_and, Int.cast_eq_zero]
  case divide =>
    split_ifs with zero whole
    · exact .inr rfl
    · refine represented ((eq_div_iff (Int.cast_ne_zero.mpr zero)).mpr ?_)
      exact_mod_cast Int.tdiv_mul_cancel_of_tmod_eq_zero whole
    · exact .inl rfl
  case modulo =>
    split_ifs with zero
    · exact .inr rfl
    · refine represented ?_
      rw [Int.fmod_def, floor_div_eq_fdiv a b zero, Int.cast_sub, Int.cast_mul]
  case remainder =>
    split_ifs with zero
    · exact .inr rfl
    · refine represented ?_
      rw [Int.tmod_def, truncated_div_eq_tdiv, Int.cast_sub, Int.cast_mul]

/-- What an operation finds on integers is an integer. -/
theorem Integer.operate_integral (known : command.rational? = some operation) {a b : ℤ}
    {result : Real} (found : operate command a b = .ok (some result)) :
    ∃ value, result = .ofInt value := by
  cases command <;> simp only [Command.rational?, reduceCtorEq] at known <;>
    simp only [operate] at found
  case divide =>
    split_ifs at found with zero whole
    · exact ⟨_, (Option.some.inj (Except.ok.inj found)).symm⟩
    · exact absurd (Except.ok.inj found) (Option.some_ne_none _).symm
  all_goals
    try split_ifs at found
    exact ⟨_, (Option.some.inj (Except.ok.inj found)).symm⟩

/-! ## Machine integers -/

namespace Word

variable {x y result : Word}

/-- The opposite of a machine integer has the opposite value. -/
theorem toInt_negated (x : Word) : x.negated.toInt = -x.toInt := by
  rw [negated, toInt_ofSign]
  cases negative : x.negative <;> simp [toInt, negative]

/-- A machine integer is zero if its value is. -/
theorem isZero_iff (x : Word) : x.isZero = true ↔ x.toInt = 0 := by
  have magnitude : x.isZero = true ↔ x.magnitude.toNat = 0 := by
    rw [isZero, beq_iff_eq, ← UInt64.toNat_inj, UInt64.toNat_zero]
  rw [magnitude, toInt]
  split <;> omega

/-- A sum that fits has the value of the sum. -/
theorem toInt_add (fits : x.add? y = some result) : result.toInt = x.toInt + y.toInt := by
  unfold add? at fits
  split_ifs at fits with alike below
  · obtain ⟨sum, added, rfl⟩ := Option.map_eq_some_iff.mp fits
    unfold addMagnitudes? at added
    split_ifs at added with small
    obtain rfl := Option.some.inj added
    rw [toInt_ofSign, UInt64.toNat_add, Nat.mod_eq_of_lt small, toInt, toInt, ← eq_of_beq alike]
    split <;> omega
  · obtain rfl := Option.some.inj fits
    have ordered := UInt64.le_iff_toNat_le.mp below
    rw [toInt_ofSign, UInt64.toNat_sub_of_le _ _ below, toInt, toInt]
    cases negative : x.negative <;> cases negative' : y.negative <;> simp_all <;> omega
  · obtain rfl := Option.some.inj fits
    have above := UInt64.not_le.mp below
    have ordered := UInt64.lt_iff_toNat_lt.mp above
    rw [toInt_ofSign, UInt64.toNat_sub_of_le _ _ (UInt64.le_of_lt above), toInt, toInt]
    cases negative : x.negative <;> cases negative' : y.negative <;> simp_all <;> omega

/-- A product that fits has the value of the product. -/
theorem toInt_multiply (fits : x.multiply? y = some result) :
    result.toInt = x.toInt * y.toInt := by
  obtain ⟨product, multiplied, rfl⟩ := Option.map_eq_some_iff.mp fits
  unfold multiplyMagnitudes? at multiplied
  split_ifs at multiplied with small
  obtain rfl := Option.some.inj multiplied
  rw [toInt_ofSign, UInt64.toNat_mul, Nat.mod_eq_of_lt small, Nat.cast_mul, toInt, toInt]
  cases x.negative <;> cases y.negative <;> simp

/-- The remainder is that of the division rounded toward zero. -/
theorem toInt_remainder (x y : Word) : (x.remainder y).toInt = x.toInt.tmod y.toInt := by
  rw [remainder, toInt_ofSign, UInt64.toNat_mod, Int.ofNat_tmod, toInt, toInt]
  cases x.negative <;> cases y.negative <;> simp

/-- A quotient is that of an exact division. -/
theorem toInt_divide (exact : x.divide? y = some result) :
    result.toInt = x.toInt.tdiv y.toInt ∧ x.toInt.tmod y.toInt = 0 := by
  unfold divide? at exact
  split_ifs at exact with whole
  obtain rfl := Option.some.inj exact
  constructor
  · rw [toInt_ofSign, UInt64.toNat_div, Int.ofNat_tdiv, toInt, toInt]
    cases x.negative <;> cases y.negative <;> simp
  · rw [← toInt_remainder, remainder, eq_of_beq whole]
    rfl

/-- The sign of a machine integer is that of its value. -/
theorem negative_iff (x : Word) : x.negative = true ↔ x.toInt < 0 := by
  have positive (negative : x.negative = true) : 0 < x.magnitude.toNat :=
    Nat.pos_of_ne_zero fun zero => x.canonical negative (UInt64.toNat_inj.mp zero)
  unfold toInt
  split
  · rename_i negative
    have := positive negative
    simp only [negative, true_iff]
    omega
  · simp_all

/-- A modulus is the remainder of the division rounded down. -/
theorem toInt_modulo (fits : x.modulo? y = some result) :
    result.toInt = x.toInt.fmod y.toInt := by
  have divides : (x.remainder y).isZero = true ↔ y.toInt ∣ x.toInt := by
    rw [isZero_iff, toInt_remainder, Int.dvd_iff_tmod_eq_zero]
  have alike : (x.negative == y.negative) = true ↔ (x.toInt < 0 ↔ y.toInt < 0) := by
    rw [← negative_iff, ← negative_iff, beq_iff_eq, Bool.eq_iff_iff]
  simp only [modulo?, Bool.or_eq_true, divides, alike] at fits
  rw [Int.fmod_eq_tmod, ← toInt_remainder]
  split_ifs at fits with rest
  · obtain rfl := Option.some.inj fits
    split_ifs <;> omega
  · rw [toInt_add fits, if_neg fun whole => rest (.inl whole)]
    split_ifs <;> omega

/-- An operation on machine integers that answers gives the answer of the integers. -/
theorem operate_eq (known : command.rational? = some operation) (x y : Word) :
    Real.operateWords command x y = .ok none ∨
      (Real.operateWords command x y).map (Option.map Real.word) =
        Integer.operate command x.toInt y.toInt := by
  have answers {attempt : Option Word} {value : ℤ}
      (fits : ∀ result, attempt = some result → result.toInt = value) :
      (.ok attempt : Outcome (Option Word)) = .ok none ∨
        (.ok (attempt.map Real.word) : Outcome (Option Real)) = .ok (some (.ofInt value)) := by
    cases attempt with
    | none => exact .inl rfl
    | some result =>
      rw [← fits result rfl, Real.ofInt_toInt]
      exact .inr rfl
  cases command <;> simp only [Command.rational?, Option.some.injEq, reduceCtorEq] at known
  case add => exact answers fun _ fits => toInt_add fits
  case subtract =>
    refine answers fun result fits => ?_
    rw [toInt_add fits, toInt_negated, Int.sub_eq_add_neg]
  case multiply => exact answers fun _ fits => toInt_multiply fits
  all_goals simp only [Real.operateWords, Integer.operate, isZero_iff]
  case divide =>
    by_cases zero : y.toInt = 0
    · exact .inr (by rw [if_pos zero, if_pos zero]; rfl)
    · rw [if_neg zero, if_neg zero]
      by_cases whole : x.toInt.tmod y.toInt = 0
      · rw [if_pos whole]
        exact answers fun _ fits => (toInt_divide fits).1
      · rw [if_neg whole]
        cases fits : x.divide? y with
        | none => exact .inl rfl
        | some result => exact absurd (toInt_divide fits).2 whole
  case modulo =>
    by_cases zero : y.toInt = 0
    · exact .inr (by rw [if_pos zero, if_pos zero]; rfl)
    · rw [if_neg zero, if_neg zero]
      exact answers fun _ fits => toInt_modulo fits
  case remainder =>
    by_cases zero : y.toInt = 0
    · exact .inr (by rw [if_pos zero, if_pos zero]; rfl)
    · rw [if_neg zero, if_neg zero]
      exact answers fun _ fits => Option.some.inj fits ▸ toInt_remainder x y

/-- On machine integers every operation finds its exact result, unless it leaves them. -/
theorem operate_keepsTo (known : command.rational? = some operation) (x y : Word) :
    KeepsTo (Real.operateWords command x y) Real.word
      (exactResult command operation x.toInt y.toInt) := by
  rcases operate_eq known x y with left | same
  · exact .inl left
  · rcases Integer.operate_keepsTo known x.toInt y.toInt with left | exact
    · rw [left] at same
      refine .inl ?_
      cases attempt : Real.operateWords command x y with
      | error fault => simp [attempt, Except.map] at same
      | ok answer => cases answer <;> simp_all [Except.map]
    · refine .inr (same.trans ?_)
      cases answer : Integer.operate command x.toInt y.toInt <;> simp_all [Except.map]

end Word

/-! ## All exact numbers -/

namespace Real

variable {x y : Real} {p q : ℚ} {settings : Preferences}

/-- An exact number is the integer of its value, if it is an integer. -/
theorem toInt?_value {value : ℤ} (integer : x.toInt? = some value) : x.rational? = some (value : ℚ) := by
  cases x <;> simp_all [toInt?, rational?]

/-- An exact number is the ratio of its value. -/
theorem ratio?_value (denotes : x.rational? = some p) :
    ∃ ratio, x.ratio? = some ratio ∧ ratio.denominator ≠ 0 ∧ ratio.rational = p := by
  cases x with
  | word value =>
    refine ⟨_, rfl, one_ne_zero, ?_⟩
    simpa [Ratio.rational, Ratio.ofInt, rational?] using denotes
  | wide value =>
    refine ⟨_, rfl, one_ne_zero, ?_⟩
    simpa [Ratio.rational, Ratio.ofInt, rational?] using denotes
  | fraction value =>
    have positive : value.denominator ≠ 0 := by have := value.proper; omega
    refine ⟨_, rfl, Int.natCast_ne_zero.mpr positive, ?_⟩
    simpa [Ratio.rational, Ratio.ofFraction, rational?] using denotes
  | decimal value => simp [rational?] at denotes

/-- Every form is asked for if results need not be numerical. -/
theorem finished_eq (symbolic : settings.numericalResults = false) (x : Real) :
    x.finished settings = x := by
  cases x <;> simp [finished, symbolic]

/-- An integer has the form that is asked for. -/
theorem finished_ofInt (value : ℤ) (settings : Preferences) :
    (ofInt value).finished settings = ofInt value := by
  unfold ofInt
  split <;> rfl

/-- On exact numbers, whatever their kinds, every operation finds its exact result, in the form
that is asked for. -/
theorem operate_exact (known : command.rational? = some operation) (left : x.rational? = some p)
    (right : y.rational? = some q) (settings : Preferences) :
    operate command x y settings =
      (exactResult command operation p q).map fun result => result.finished settings := by
  have ratios : operateRatios command x y settings =
      (exactResult command operation p q).map fun result => result.finished settings := by
    obtain ⟨a, ratio, nonzero, rfl⟩ := ratio?_value left
    obtain ⟨b, ratio', nonzero', rfl⟩ := ratio?_value right
    rw [operateRatios, ratio, ratio']
    dsimp only
    rw [Ratio.operate_eq known nonzero nonzero']
    cases exactResult command operation a.rational b.rational <;> rfl
  have integers : operateIntegers command x y settings =
      (exactResult command operation p q).map fun result => result.finished settings := by
    cases integer : x.toInt? with
    | none => simpa only [operateIntegers, integer] using ratios
    | some a =>
      cases integer' : y.toInt? with
      | none => simpa only [operateIntegers, integer, integer'] using ratios
      | some b =>
        obtain rfl := Option.some.inj (left.symm.trans (toInt?_value integer))
        obtain rfl := Option.some.inj (right.symm.trans (toInt?_value integer'))
        rw [operateIntegers, integer, integer']
        refine ((Integer.operate_keepsTo known a b).map _).found (fun number found => ?_) ratios
        obtain ⟨value, rfl⟩ := Integer.operate_integral known found
        exact congrArg Except.ok (finished_ofInt value settings).symm
  cases x <;> cases y
  case word.word a b =>
    obtain rfl := Option.some.inj left
    obtain rfl := Option.some.inj right
    exact ((Word.operate_keepsTo known a b).map _).found (fun _ _ => rfl) integers
  all_goals exact integers

/-- If results need not be numerical, the exact result is found as it is. -/
theorem operate_eq (known : command.rational? = some operation) (left : x.rational? = some p)
    (right : y.rational? = some q) (symbolic : settings.numericalResults = false) :
    operate command x y settings = exactResult command operation p q := by
  rw [operate_exact known left right settings]
  cases exactResult command operation p q with
  | error fault => rfl
  | ok result => exact congrArg Except.ok (finished_eq symbolic result)

end Real

/-! ## Arithmetic -/

namespace Arithmetic

/-- Whether a function is that of the real numbers wherever its argument is real. -/
def realEverywhere : Command → Bool
  | .negate | .square | .cube | .cosine | .sine | .exponential => true
  | _ => false

/-- Such a function of a real number is left to the number. -/
theorem unaryOver_real (parts : Operations) (settings : Preferences)
    (everywhere : realEverywhere command = true) (x : Real) :
    unaryOver parts settings command (.real x) = (x.apply command settings).map .real := by
  cases command
  case negate | square | cube | cosine | sine | exponential =>
    cases negative : x.isNegative <;> simp only [unaryOver, numberUnary, realUnary] <;> rfl
  all_goals cases everywhere

/-- Arithmetic on two real numbers is left to the numbers. -/
theorem binary_real (known : command.rational? = some operation) (x y : Real)
    (settings : Preferences) :
    binary command (.real x) (.real y) settings = (x.operate command y settings).map .real := by
  cases command <;> simp only [Command.rational?, reduceCtorEq] at known <;> rfl

/-- The exact operations on exact numbers, while results need not be numerical. Only a division
by zero has no result, and what divides by zero is refused. Otherwise the result is the one number
that denotes the exact result: a machine integer if that is an integer whose magnitude fits a word,
a wide integer if it is another integer, and a fraction if it is no integer. -/
theorem binary_exact (known : command.rational? = some operation) {x y : Real} {p q : ℚ}
    (left : x.rational? = some p) (right : y.rational? = some q) {settings : Preferences}
    (symbolic : settings.numericalResults = false) :
    (command.divides = true ∧ q = 0 →
      binary command (.real x) (.real y) settings = .error .divideByZero) ∧
    (¬ (command.divides = true ∧ q = 0) →
      ∃ result : Real, binary command (.real x) (.real y) settings = .ok (.real result) ∧
        (∀ other : Real, other.rational? = some (operation p q) ↔ other = result) ∧
        ((operation p q).den = 1 → (operation p q).num.natAbs < UInt64.size →
          ∃ word : Word, result = .word word ∧ word.toInt = (operation p q).num) ∧
        ((operation p q).den = 1 → UInt64.size ≤ (operation p q).num.natAbs →
          ∃ wide : Wide, result = .wide wide ∧ wide.value = (operation p q).num) ∧
        ((operation p q).den ≠ 1 → ∃ fraction : Fraction, result = .fraction fraction ∧
          fraction.numerator = (operation p q).num ∧
          fraction.denominator = (operation p q).den)) := by
  rw [binary_real known, Real.operate_eq known left right symbolic, exactResult]
  constructor
  · intro zero
    rw [if_pos zero]
    rfl
  · intro apart
    rw [if_neg apart]
    exact ⟨_, rfl, fun other => other.rational?_eq_some_iff _, Real.ofRational_form _⟩

/-- One less than the least wide integer is the greatest machine integer. -/
theorem binary_exact_boundary :
    ∃ word : Word, binary .subtract (.real (.ofInt (2 ^ 64))) (.real (.ofInt 1)) {} =
      .ok (.real (.word word)) ∧ word.toInt = 2 ^ 64 - 1 := by
  have denotes (value : ℤ) : (Real.ofInt value).rational? = some (value : ℚ) :=
    (Real.rational?_eq_some_iff _ _).mpr (Real.ofRational_intCast value).symm
  have difference : ((2 ^ 64 : ℤ) : ℚ) - ((1 : ℤ) : ℚ) = ((2 ^ 64 - 1 : ℤ) : ℚ) := by norm_num
  have known : Command.subtract.rational? = some fun p q => p - q := rfl
  have symbolic : ({} : Preferences).numericalResults = false := rfl
  obtain ⟨result, computed, -, small, -⟩ :=
    (binary_exact known (denotes (2 ^ 64)) (denotes 1) symbolic).2 (by simp [Command.divides])
  obtain ⟨word, rfl, value⟩ := small (by rw [difference, Rat.den_intCast]) (by
    rw [difference, Rat.num_intCast]
    decide)
  exact ⟨word, computed, by rw [value, difference, Rat.num_intCast]⟩

end Arithmetic

end Calculator
