import Calculator.Proofs.Number.Exponent
import Calculator.Proofs.Number.Made
import Calculator.Proofs.Number.Sign
import Mathlib

/-!
# Numerical results

Where results are asked for as decimals, an operation does what it does otherwise, and what comes of
it is converted: a fraction turns into the decimal it is rounded to, and every other number stays as
it is. The root of a number below zero is complex, and its imaginary part is converted. A cube is the
exception, since it is built of two products and the first one is converted on its own, so that for a
fraction two roundings come together.
-/

namespace Calculator

namespace Preferences

/-- Settings with results as they are found. -/
def exactly (settings : Preferences) : Preferences := { settings with numericalResults := false }

/-- Settings with results as decimals. -/
def numerically (settings : Preferences) : Preferences := { settings with numericalResults := true }

end Preferences

namespace Real

variable {settings : Preferences} {x y : Real} {command : Command}

/-- A number with a fraction turned into the decimal of a tier. -/
def converted (precision : Precision) : Real → Real
  | fraction value => .ofDecimal (fraction value).toDecimal precision
  | number => number

/-- A result as it is found needs no other form. -/
@[simp]
theorem finished_exactly (x : Real) : x.finished settings.exactly = x := finished_eq rfl x

/-- A result as a decimal is converted to the tier of the settings. -/
@[simp]
theorem finished_numerically (x : Real) :
    x.finished settings.numerically = x.converted settings.precision := by
  cases x <;> rfl

/-- What is converted stays as it is. -/
@[simp]
theorem converted_converted (x : Real) (precision : Precision) :
    (x.converted precision).converted precision = x.converted precision := by
  cases x <;> rfl

/-- An integer is not converted. -/
@[simp]
theorem converted_ofInt (value : ℤ) (precision : Precision) :
    (ofInt value).converted precision = ofInt value := by
  unfold ofInt
  split <;> rfl

/-- A number that is an exact zero is one behind a conversion, and no other number is. -/
theorem exactZero_converted (x : Real) (precision : Precision) :
    ((x.converted precision).isZero && (x.converted precision).isExact) =
      (x.isZero && x.isExact) := by
  cases x with
  | fraction value => exact Bool.and_false _
  | _ => rfl

/-! ## Operations on two numbers -/

/-- What an operation on integers answers is not converted. -/
theorem converted_operateInteger {a b : ℤ} {result : Real}
    (done : Integer.operate command a b = .ok (some result)) (precision : Precision) :
    result.converted precision = result := by
  obtain ⟨value, rfl⟩ : ∃ value, result = .ofInt value := by
    by_cases power : command = .power
    · subst power
      unfold Integer.operate at done
      dsimp only at done
      split at done
      · obtain ⟨_, raised, same⟩ := Outcome.map_eq_ok.mp done
        obtain rfl := Option.some.inj same
        unfold Integer.power at raised
        split_ifs at raised <;> exact ⟨_, (Except.ok.inj raised).symm⟩
      · cases done
    · cases command
      case power => exact absurd rfl power
      case add | subtract | multiply | divide | modulo | remainder =>
        exact Integer.operate_integral rfl done
      all_goals cases done
  exact converted_ofInt value precision

/-- An operation that falls back on decimals answers the same decimal. -/
theorem operateDecimals_numerically (settings : Preferences) (command : Command) (x y : Real) :
    operateDecimals command x y settings.numerically =
      (operateDecimals command x y settings.exactly).map (converted settings.precision) := by
  have same : operateDecimals command x y settings.numerically =
      operateDecimals command x y settings.exactly := rfl
  rw [same]
  cases done : operateDecimals command x y settings.exactly with
  | error fault => rfl
  | ok result =>
    obtain ⟨value, -, answered⟩ := Outcome.bind_eq_ok.mp done
    obtain rfl := Except.ok.inj answered
    rfl

/-- On ratios the result is converted. -/
theorem operateRatios_numerically (settings : Preferences) (command : Command) (x y : Real) :
    operateRatios command x y settings.numerically =
      (operateRatios command x y settings.exactly).map (converted settings.precision) := by
  have decimals := operateDecimals_numerically settings command x y
  unfold operateRatios
  split
  · rename_i a b _ _
    cases Ratio.operate command a b with
    | error fault => rfl
    | ok attempt =>
      cases attempt with
      | none => exact decimals
      | some result =>
        simp only [Outcome.ok_bind, finished_numerically, finished_exactly]
        rfl
  · exact decimals

/-- On integers the result is converted, if it is no integer. -/
theorem operateIntegers_numerically (settings : Preferences) (command : Command) (x y : Real) :
    operateIntegers command x y settings.numerically =
      (operateIntegers command x y settings.exactly).map (converted settings.precision) := by
  have ratios := operateRatios_numerically settings command x y
  unfold operateIntegers
  split
  · rename_i a b _ _
    cases done : Integer.operate command a b with
    | error fault => rfl
    | ok attempt =>
      cases attempt with
      | none => exact ratios
      | some result => exact congrArg Except.ok (converted_operateInteger done _).symm
  · exact ratios

/-- An operation on two numbers does what it does otherwise, and its result is converted. -/
theorem operate_numerically (command : Command) (x y : Real) :
    operate command x y settings.numerically =
      (operate command x y settings.exactly).map (converted settings.precision) := by
  have integers := operateIntegers_numerically settings command x y
  cases x <;> cases y
  case word.word a b =>
    unfold operate
    dsimp only
    cases operateWords command a b with
    | error fault => rfl
    | ok attempt =>
      cases attempt with
      | none => exact integers
      | some result => rfl
  all_goals exact integers

/-! ## Functions of one number -/

/-- The square of an integer is an integer. -/
theorem converted_square (integer : x.isInteger = true) {square : Real}
    (done : operate .multiply x x settings.exactly = .ok square) (precision : Precision) :
    square.converted precision = square := by
  obtain ⟨value, denotes⟩ : ∃ value : ℤ, x.rational? = some (value : ℚ) := by
    cases x with
    | word a => exact ⟨_, rfl⟩
    | wide a => exact ⟨_, rfl⟩
    | _ => cases integer
  rw [operate_eq rfl denotes denotes rfl, exactResult, if_neg (by simp [Command.divides]),
    ← Int.cast_mul, ofRational_intCast] at done
  obtain rfl := Except.ok.inj done
  exact converted_ofInt _ precision

/-- The functions that are looked at: those with exact results on exact numbers. -/
def algebraicFunctions : List Command := [.negate, .absolute, .invert, .square, .cube, .squareRoot]

/-- An algebraic function does what it does otherwise, and its result is converted; the number that
is cubed has to be an integer. -/
theorem apply_numerically (known : command ∈ algebraicFunctions)
    (whole : command = .cube → x.isInteger = true) :
    x.apply command settings.numerically =
      (x.apply command settings.exactly).map (converted settings.precision) := by
  have operates (operation : Command) (a b : Real) :
      (operate operation a b settings.numerically >>= fun result =>
          (.ok (result.finished settings.numerically) : Outcome Real)) =
        (operate operation a b settings.exactly >>= fun result =>
          (.ok (result.finished settings.exactly) : Outcome Real)).map
            (converted settings.precision) := by
    rw [operate_numerically]
    cases operate operation a b settings.exactly with
    | error fault => rfl
    | ok result =>
      refine congrArg Except.ok ?_
      rw [finished_numerically, finished_exactly, converted_converted]
  have plain (result : Real) : (.ok (result.finished settings.numerically) : Outcome Real) =
      (Except.ok (result.finished settings.exactly)).map (converted settings.precision) := by
    rw [finished_numerically, finished_exactly]
    rfl
  simp only [algebraicFunctions, List.mem_cons, List.not_mem_nil, or_false] at known
  obtain rfl | rfl | rfl | rfl | rfl | rfl := known
  · exact plain x.negated
  · exact plain (if x.isNegative then x.negated else x)
  · exact operates .divide (.ofInt 1) x
  · exact operates .multiply x x
  · -- The square is an integer, so both products are looked at alike.
    have cube (mode : Preferences) : x.apply .cube mode =
        (operate .multiply x x mode >>= fun square =>
          operate .multiply square x mode >>= fun result => .ok (result.finished mode)) := by
      unfold apply
      cases operate .multiply x x mode <;> rfl
    rw [cube, cube, operate_numerically]
    cases done : operate .multiply x x settings.exactly with
    | error fault => rfl
    | ok square =>
      have kept := converted_square (whole rfl) done settings.precision
      change (operate .multiply (square.converted settings.precision) x settings.numerically >>= _) = _
      rw [kept]
      exact operates .multiply square x
  · have same : x.squareRoot settings.numerically = x.squareRoot settings.exactly := rfl
    have root (mode : Preferences) : x.apply .squareRoot mode =
        (x.squareRoot mode >>= fun result => .ok (result.finished mode)) := rfl
    rw [root, root, same]
    cases x.squareRoot settings.exactly with
    | error fault => rfl
    | ok result => exact plain result

end Real

/-! ## Values -/

namespace Value

/-- A number with a fraction turned into the decimal of a tier, and a complex number with its parts
so. -/
def converted (precision : Precision) : Value → Value
  | .real x => .real (x.converted precision)
  | .complex form (.real a) (.real b) =>
    .complex form (.real (a.converted precision)) (.real (b.converted precision))
  | other => other

end Value

namespace Arithmetic

variable {settings : Preferences} {x y : Real} {command : Command}

/-- The operations that are looked at: those with exact results on exact numbers. -/
def rationalOperations : List Command :=
  [.add, .subtract, .multiply, .divide, .modulo, .remainder, .power]

/-- What is converted as a real number is converted as a value. -/
theorem map_real_converted (outcome : Outcome Real) (precision : Precision) :
    (outcome.map (Real.converted precision)).map Value.real =
      (outcome.map Value.real).map (Value.converted precision) := by
  cases outcome <;> rfl

/-- An operation on two real numbers does what it does otherwise, and its result is converted. -/
theorem binary_numerically (known : command ∈ rationalOperations)
    (whole : command = .power → y.isInteger = true) :
    binary command (.real x) (.real y) settings.numerically =
      (binary command (.real x) (.real y) settings.exactly).map
        (Value.converted settings.precision) := by
  have reals (mode : Preferences) :
      binary command (.real x) (.real y) mode = (x.operate command y mode).map .real := by
    simp only [rationalOperations, List.mem_cons, List.not_mem_nil, or_false] at known
    obtain rfl | rfl | rfl | rfl | rfl | rfl | rfl := known
    case inr.inr.inr.inr.inr.inr =>
      refine binary_power_real (.inr ?_) mode
      cases y with
      | word a => rfl
      | wide a => rfl
      | _ => cases whole rfl
    all_goals exact binary_real rfl x y mode
  rw [reals, reals, Real.operate_numerically, map_real_converted]

/-- The square root of a number below zero is imaginary. -/
theorem realUnary_squareRoot_negative (parts : Operations) (settings : Preferences) {x : Real}
    (negative : x.isNegative = true) :
    realUnary parts settings .squareRoot x =
      (x.negated.apply .squareRoot settings).map fun root =>
        Complex.rectangular (.ofInt 0) (.real root) := by
  simp only [realUnary, negative]
  cases x.negated.apply .squareRoot settings <;> rfl

/-- The square root of a real number does what it does otherwise, and its result is converted, or the
imaginary part of its result. -/
theorem realUnary_squareRoot_numerically (partsLeft partsRight : Operations) (x : Real) :
    realUnary partsLeft settings.numerically .squareRoot x =
      (realUnary partsRight settings.exactly .squareRoot x).map
        (Value.converted settings.precision) := by
  have root (number : Real) : number.apply .squareRoot settings.numerically =
      (number.apply .squareRoot settings.exactly).map (Real.converted settings.precision) :=
    Real.apply_numerically (by decide) nofun
  cases negative : x.isNegative with
  | true =>
    rw [realUnary_squareRoot_negative _ _ negative, realUnary_squareRoot_negative _ _ negative, root]
    cases x.negated.apply .squareRoot settings.exactly with
    | error fault => rfl
    | ok imaginary =>
      refine congrArg Except.ok ?_
      have form (number : Real) : Complex.rectangular (.ofInt 0) (.real number) =
          if number.isZero && number.isExact then .ofInt 0
          else .complex .rectangular (.ofInt 0) (.real number) := rfl
      dsimp only
      rw [form, form, imaginary.exactZero_converted]
      split <;> rfl
  | false =>
    have plain (parts : Operations) (mode : Preferences) :
        realUnary parts mode .squareRoot x = (x.apply .squareRoot mode).map .real := by
      simp only [realUnary, negative]
      rfl
    rw [plain, plain, root, map_real_converted]

/-- The square root of a number below zero is imaginary, whatever the settings are. -/
theorem unary_squareRoot_negative (negative : x.isNegative = true) (settings : Preferences) :
    unary .squareRoot (.real x) settings =
      (x.negated.apply .squareRoot settings).map fun root =>
        Complex.rectangular (.ofInt 0) (.real root) :=
  realUnary_squareRoot_negative _ settings negative

/-- An algebraic function of a real number does what it does otherwise, and its result is converted;
the number that is cubed has to be an integer. -/
theorem unary_numerically (known : command ∈ Real.algebraicFunctions)
    (whole : command = .cube → x.isInteger = true) :
    unary command (.real x) settings.numerically =
      (unary command (.real x) settings.exactly).map (Value.converted settings.precision) := by
  have applied : x.apply command settings.numerically =
      (x.apply command settings.exactly).map (Real.converted settings.precision) :=
    Real.apply_numerically known whole
  have reals (regular : command ≠ .squareRoot) (mode : Preferences) :
      unary command (.real x) mode = (x.apply command mode).map .real := by
    simp only [Real.algebraicFunctions, List.mem_cons, List.not_mem_nil, or_false] at known
    obtain rfl | rfl | rfl | rfl | rfl | rfl := known
    case inr.inr.inr.inr.inr => exact absurd rfl regular
    all_goals rfl
  by_cases root : command = .squareRoot
  · subst root
    exact realUnary_squareRoot_numerically _ _ x
  · rw [reals root, reals root, applied, map_real_converted]

end Arithmetic

end Calculator
