import Calculator.Number.Operation
import Calculator.Proofs.Number.Sign
import Mathlib

/-!
# Real numbers that operations make

Exact numbers have their one form by their type. A decimal is to be one that rounding to its tier
makes. Whatever an operation on real numbers answers is made so, even if the operands are not; only
a change of sign, which does not round, takes over what it finds.
-/

namespace Calculator

/-- The opposite of a settled decimal is settled. -/
theorem Decimal.Settled.negated {count : ℕ} {x : Decimal} (settled : x.Settled count) :
    x.negated.Settled count := by
  rcases settled with rfl | ⟨last, below⟩
  · exact .inl rfl
  · exact .inr (by simpa [Decimal.negated] using ⟨last, below⟩)

/-- A settled decimal has no more digits than it is to have. -/
theorem Decimal.Settled.natAbs_lt {count limit : ℕ} {x : Decimal} (settled : x.Settled count)
    (within : count ≤ limit) : x.mantissa.natAbs < 10 ^ limit := by
  rcases settled with rfl | ⟨-, below⟩
  · exact Nat.pow_pos (by decide)
  · exact below.trans_le (Nat.pow_le_pow_right (by decide) within)

/-- A decimal is made by rounding exactly if it is settled. -/
theorem Rounded.isMade_iff (rounded : Rounded) :
    rounded.IsMade ↔ rounded.value.Settled rounded.precision.digits := by
  constructor
  · intro made
    rw [← Rounded.make_of_isMade made]
    exact Rounded.make_settled _ _
  · intro settled
    exact ⟨rounded.value, (Rounded.make_of_settled _ _ settled).symm⟩

namespace Real

variable {x y result : Real} {settings : Preferences} {command : Command}

/-- Whether a number is exact or a decimal that rounding to its tier makes. -/
def IsMade : Real → Prop
  | decimal value => value.IsMade
  | _ => True

/-- A decimal that a value is rounded to is made. -/
theorem isMade_ofDecimal (value : Decimal) (precision : Precision) :
    (ofDecimal value precision).IsMade := ⟨value, rfl⟩

/-- An integer is made. -/
theorem isMade_ofInt (value : ℤ) : (ofInt value).IsMade := by
  unfold ofInt
  split <;> trivial

/-- A quotient of integers is made. -/
theorem isMade_ofQuotient {numerator denominator : ℤ}
    (done : ofQuotient numerator denominator = .ok result) : result.IsMade := by
  unfold ofQuotient at done
  split at done
  · cases done
  · dsimp only at done
    split at done <;> obtain rfl := Except.ok.inj done
    · trivial
    · exact isMade_ofInt _

/-- The opposite of a number that is made is made. -/
theorem IsMade.negated (made : x.IsMade) : x.negated.IsMade := by
  cases x with
  | wide value => exact isMade_ofInt _
  | decimal value =>
    exact (Rounded.isMade_iff _).mpr ((Rounded.isMade_iff _).mp made).negated
  | _ => trivial

/-- The form that is asked for is made. -/
theorem IsMade.finished (made : x.IsMade) (settings : Preferences) :
    (x.finished settings).IsMade := by
  unfold Real.finished
  split
  · split
    · exact isMade_ofDecimal _ _
    · exact made
  · exact made

/-! ## Operations on two numbers -/

/-- What a power of integers is, is made. -/
theorem isMade_powerInteger {base exponent : ℤ} (done : Integer.power base exponent = .ok result) :
    result.IsMade := by
  unfold Integer.power at done
  split_ifs at done <;> cases done <;> exact isMade_ofInt _

/-- What an operation on integers answers is made. -/
theorem isMade_operateInteger {a b : ℤ} (done : Integer.operate command a b = .ok (some result)) :
    result.IsMade := by
  by_cases power : command = .power
  · subst power
    unfold Integer.operate at done
    dsimp only at done
    split at done
    · obtain ⟨_, raised, same⟩ := Outcome.map_eq_ok.mp done
      obtain rfl := Option.some.inj same
      exact isMade_powerInteger raised
    · cases done
  · cases command <;> simp only [Integer.operate] at done
    case power => exact absurd rfl power
    all_goals
      try split_ifs at done
      all_goals cases done
      all_goals exact isMade_ofInt _

/-- What a power of ratios is, is made. -/
theorem isMade_powerRatio {base exponent : Ratio}
    (done : Ratio.power base exponent = .ok (some result)) : result.IsMade := by
  unfold Ratio.power at done
  split at done
  · split_ifs at done
    cases done
    exact isMade_ofInt 0
  · dsimp only at done
    split at done
    · cases done
    · split at done
      · obtain ⟨quotient, divided, same⟩ := Outcome.map_eq_ok.mp done
        obtain rfl := Option.some.inj same
        split at divided <;> exact isMade_ofQuotient divided
      · cases done

/-- What an operation on ratios answers is made. -/
theorem isMade_operateRatio {a b : Ratio} (done : Ratio.operate command a b = .ok (some result)) :
    result.IsMade := by
  have quotient {ratio : Ratio} (answered : (ofRatio ratio).map some = .ok (some result)) :
      result.IsMade := by
    obtain ⟨plain, divided, same⟩ := Outcome.map_eq_ok.mp answered
    obtain rfl := Option.some.inj same
    exact isMade_ofQuotient divided
  cases command <;> simp only [Ratio.operate] at done
  case power => exact isMade_powerRatio done
  case divide | modulo | remainder =>
    split at done
    · cases done
    · exact quotient done
  case add | subtract | multiply => exact quotient done
  all_goals cases done

/-- What an operation on decimals answers is made. -/
theorem isMade_operateDecimals (done : operateDecimals command x y settings = .ok result) :
    result.IsMade := by
  obtain ⟨value, -, same⟩ := Outcome.bind_eq_ok.mp done
  obtain rfl := Except.ok.inj same
  exact isMade_ofDecimal _ _

/-- What an operation on two numbers answers is made, whatever the operands are. -/
theorem isMade_operate (done : operate command x y settings = .ok result) : result.IsMade := by
  have ratios (answered : operateRatios command x y settings = .ok result) : result.IsMade := by
    unfold operateRatios at answered
    split at answered
    · obtain ⟨attempt, tried, rest⟩ := Outcome.bind_eq_ok.mp answered
      split at rest
      · obtain rfl := Except.ok.inj rest
        exact (isMade_operateRatio tried).finished settings
      · exact isMade_operateDecimals rest
    · exact isMade_operateDecimals answered
  have integers (answered : operateIntegers command x y settings = .ok result) :
      result.IsMade := by
    unfold operateIntegers at answered
    split at answered
    · obtain ⟨attempt, tried, rest⟩ := Outcome.bind_eq_ok.mp answered
      split at rest
      · obtain rfl := Except.ok.inj rest
        exact isMade_operateInteger tried
      · exact ratios rest
    · exact ratios answered
  unfold operate at done
  split at done
  · obtain ⟨attempt, -, rest⟩ := Outcome.bind_eq_ok.mp done
    split at rest
    · obtain rfl := Except.ok.inj rest
      trivial
    · exact integers rest
  · exact integers done

/-- An operation of which an operand is a decimal answers a decimal. -/
theorem decimal_operate (inexact : (∃ value, x = .decimal value) ∨ ∃ value, y = .decimal value)
    (done : operate command x y settings = .ok result) : ∃ value, result = .decimal value := by
  rw [operate_decimal command inexact] at done
  obtain ⟨value, -, same⟩ := Outcome.bind_eq_ok.mp done
  exact ⟨_, (Except.ok.inj same).symm⟩

/-! ## Functions of one number -/

/-- The decimal value of a function is made. -/
theorem isMade_applyDecimal (done : x.applyDecimal command settings = .ok result) :
    result.IsMade := by
  obtain ⟨value, -, same⟩ := Outcome.bind_eq_ok.mp done
  obtain rfl := Except.ok.inj same
  exact isMade_ofDecimal _ _

/-- A factorial is made. -/
theorem isMade_factorial (done : x.factorial = .ok result) : result.IsMade := by
  have integer {n : ℤ} {value : Real} (found : Integer.factorial n = .ok value) : value.IsMade := by
    unfold Integer.factorial at found
    split_ifs at found
    cases found
    exact isMade_ofInt _
  unfold factorial at done
  split at done
  · split at done
    · obtain ⟨value, -, same⟩ := Outcome.bind_eq_ok.mp done
      obtain rfl := Except.ok.inj same
      exact isMade_ofDecimal _ _
    · cases done
  · cases done
  · exact integer done
  · exact integer done

/-- A square root is made. -/
theorem isMade_squareRoot (done : x.squareRoot settings = .ok result) : result.IsMade := by
  unfold squareRoot at done
  split at done
  · rename_i exact found
    obtain rfl := Except.ok.inj done
    obtain ⟨ratio, -, rooted⟩ := Option.bind_eq_some_iff.mp found
    unfold Ratio.squareRoot? at rooted
    split at rooted
    · exact isMade_ofQuotient (Outcome.toOption_eq_some.mp rooted)
    · cases rooted
  · exact isMade_applyDecimal done

/-- What a function of a number that is made answers is made. -/
theorem IsMade.apply (made : x.IsMade) (done : x.apply command settings = .ok result) :
    result.IsMade := by
  have finishing {answer : Outcome Real} (all : ∀ value, answer = .ok value → value.IsMade)
      (done : answer >>= (fun value => .ok (value.finished settings)) = .ok result) :
      result.IsMade := by
    obtain ⟨value, found, same⟩ := Outcome.bind_eq_ok.mp done
    obtain rfl := Except.ok.inj same
    exact (all value found).finished settings
  have integer (n : ℤ) (value : Real) (found : .ok (ofInt n) = (.ok value : Outcome Real)) :
      value.IsMade := Except.ok.inj found ▸ isMade_ofInt n
  unfold Real.apply at done
  cases command <;> dsimp only at done
  case negate => exact finishing (fun _ found => Except.ok.inj found ▸ made.negated) done
  case absolute =>
    split at done
    · exact finishing (fun _ found => Except.ok.inj found ▸ made.negated) done
    · exact finishing (fun _ found => Except.ok.inj found ▸ made) done
  case invert | square => exact finishing (fun _ => isMade_operate) done
  case cube =>
    obtain ⟨square, -, rest⟩ := Outcome.bind_eq_ok.mp done
    exact finishing (fun _ => isMade_operate) rest
  case not => exact finishing (integer _) done
  case factorial => exact finishing (fun _ => isMade_factorial) done
  case squareRoot => exact finishing (fun _ => isMade_squareRoot) done
  case arcCosine => exact finishing (fun _ => isMade_applyDecimal) done
  case powerOfTen =>
    split at done
    · exact finishing (fun _ => isMade_operate) done
    · exact finishing (fun _ => isMade_applyDecimal) done
  case naturalLog | commonLog | exponential | cosine | sine | tangent | arcSine | arcTangent =>
    split at done
    · exact finishing (integer _) done
    · exact finishing (fun _ => isMade_applyDecimal) done
  all_goals cases done

end Real

end Calculator
