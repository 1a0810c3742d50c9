import Calculator.Arithmetic
import Calculator.Proofs.Number.Made
import Mathlib

/-!
# The parts of complex numbers

An ordinary number is a real number that is made as real numbers are, or a complex number whose two
parts are such real numbers. Arithmetic on ordinary numbers answers ordinary numbers, with two
exceptions, where a function of a part that is below zero is complex itself: the square root of a
complex number, and the logarithm of a polar number, whose modulus is given below zero or, for a
rectangular number, half of whose sum or difference of modulus and real part is computed below zero.
-/

namespace Calculator

namespace Value

/-- A number as all numbers should be: real, with its decimals rounded to their tier, or complex
with two such real parts. -/
inductive Ordinary : Value → Prop
  | real (x : Real) (made : x.IsMade) : Ordinary (.real x)
  | complex (form : ComplexForm) (a b : Real) (madeFirst : a.IsMade) (madeSecond : b.IsMade) :
      Ordinary (.complex form (.real a) (.real b))

/-- Whether a value is a polar number whose modulus is below zero. -/
def hasNegativeModulus : Value → Bool
  | .complex .polar modulus _ => modulus.isNegative
  | _ => false

/-- A complex number that arithmetic cannot take back to the real numbers: its imaginary part is a
decimal, which is never an exact zero. -/
inductive Bent : Value → Prop
  | complex (re : Real) (im : Rounded) : Bent (.complex .rectangular (.real re) (.real (.decimal im)))

end Value

namespace Complex

open Value

variable {parts : Operations} {settings : Preferences}

/-- The commands by which complex arithmetic combines two parts. -/
def combines : Command → Bool
  | .add | .subtract | .multiply | .divide | .arcTangent2 => true
  | _ => false

/-- The functions of parts that are real wherever they are defined. -/
def staysReal : Command → Bool
  | .negate | .cosine | .sine | .exponential => true
  | _ => false

/-- What complex arithmetic relies on of the arithmetic of its parts, level by level. Operations on
real numbers are those of the numbers, and so are functions unless they are roots or logarithms
below zero. The logarithm of a number below zero is bent, a product or a sum with it is, and it has
no cosine. -/
structure Level (parts : Operations) (settings : Preferences) : Prop where
  binary {command a b z} (combining : combines command = true)
    (done : parts.binary command (.real a) (.real b) = .ok z) :
    ∃ c, z = .real c ∧ a.operate command b settings = .ok c
  unary {command a z} (real : staysReal command = true)
    (done : parts.unary command (.real a) = .ok z) :
    ∃ c, z = .real c ∧ a.apply command settings = .ok c
  root {a z} (nonneg : 0 ≤ a.sign) (done : parts.unary .squareRoot (.real a) = .ok z) :
    ∃ c, z = .real c ∧ a.apply .squareRoot settings = .ok c
  logarithm {a z} (nonneg : 0 ≤ a.sign) (done : parts.unary .naturalLog (.real a) = .ok z) :
    ∃ c, z = .real c ∧ a.apply .naturalLog settings = .ok c
  logarithm_bent {a z} (made : a.IsMade) (negative : a.sign < 0)
    (done : parts.unary .naturalLog (.real a) = .ok z) : Bent z ∧ Ordinary z
  multiply_bent {a w z} (bent : Bent w) (done : parts.binary .multiply (.real a) w = .ok z) : Bent z
  add_bent {a w z} (bent : Bent w) (done : parts.binary .add (.real a) w = .ok z) : Bent z
  cosine_bent {w} (bent : Bent w) (z) : parts.unary .cosine w ≠ .ok z

/-- The modulus of the number with two real parts. -/
def realModulus (a b : Real) (settings : Preferences) : Outcome Real := do
  let aa ← a.operate .multiply a settings
  let bb ← b.operate .multiply b settings
  (← aa.operate .add bb settings).apply .squareRoot settings

/-! ## The two forms -/

/-- A number with real parts is ordinary. -/
theorem ordinary_rectangular {a b : Real} (first : a.IsMade) (second : b.IsMade) :
    Ordinary (rectangular (.real a) (.real b)) := by
  unfold rectangular
  split
  · exact .real a first
  · exact .complex _ a b first second

/-- A number with a real modulus and a real argument is ordinary. -/
theorem ordinary_polar {a b : Real} (first : a.IsMade) (second : b.IsMade) :
    Ordinary (polar (.real a) (.real b)) := by
  unfold polar
  split
  · exact .real a first
  · exact .complex _ a b first second

/-- A real number as a complex number is ordinary. -/
theorem ordinary_withoutImaginary {a : Real} (made : a.IsMade) :
    Ordinary (withoutImaginary (.real a)) :=
  .complex _ a _ made (Real.isMade_ofInt 0)

/-- A number with a decimal for its imaginary part is bent. -/
theorem bent_rectangular (re : Real) (im : Rounded) :
    Bent (rectangular (.real re) (.real (.decimal im))) := by
  have inexact : (Value.real (.decimal im)).isExact = false := rfl
  rw [rectangular, inexact, Bool.and_false]
  exact .complex re im

section Routines

variable (level : Level parts settings) {x y z : Value}
include level

/-- An operation on two parts answers a real number that is made. -/
theorem binary_real {command : Command} (combining : combines command = true) {a b : Real}
    (done : parts.binary command (.real a) (.real b) = .ok z) :
    ∃ c : Real, z = .real c ∧ c.IsMade := by
  obtain ⟨c, rfl, operated⟩ := level.binary combining done
  exact ⟨c, rfl, Real.isMade_operate operated⟩

/-- A real function of a part answers a real number that is made. -/
theorem unary_real {command : Command} (real : staysReal command = true) {a : Real}
    (made : a.IsMade) (done : parts.unary command (.real a) = .ok z) :
    ∃ c : Real, z = .real c ∧ c.IsMade := by
  obtain ⟨c, rfl, applied⟩ := level.unary real done
  exact ⟨c, rfl, made.apply applied⟩

/-- An ordinary number has a real real part and a real imaginary part. -/
theorem rectangularParts_real (ordinary : Ordinary x) {a b : Value}
    (done : rectangularParts parts x = .ok (a, b)) :
    ∃ p q : Real, a = .real p ∧ b = .real q ∧ p.IsMade ∧ q.IsMade := by
  cases ordinary with
  | real p made =>
    obtain ⟨rfl, rfl⟩ := Prod.mk.inj (Except.ok.inj done)
    exact ⟨p, _, rfl, rfl, made, Real.isMade_ofInt 0⟩
  | complex form p q madeFirst madeSecond =>
    cases form with
    | rectangular =>
      obtain ⟨rfl, rfl⟩ := Prod.mk.inj (Except.ok.inj done)
      exact ⟨p, q, rfl, rfl, madeFirst, madeSecond⟩
    | polar =>
      obtain ⟨cosine, cosined, rest⟩ := Outcome.bind_eq_ok.mp done
      obtain ⟨sine, sined, rest⟩ := Outcome.bind_eq_ok.mp rest
      obtain ⟨re, first, rest⟩ := Outcome.bind_eq_ok.mp rest
      obtain ⟨im, second, same⟩ := Outcome.bind_eq_ok.mp rest
      obtain ⟨rfl, rfl⟩ := Prod.mk.inj (Except.ok.inj same)
      obtain ⟨c, rfl, -⟩ := unary_real level rfl madeSecond cosined
      obtain ⟨s, rfl, -⟩ := unary_real level rfl madeSecond sined
      obtain ⟨p, rfl, madeRe⟩ := binary_real level rfl first
      obtain ⟨q, rfl, madeIm⟩ := binary_real level rfl second
      exact ⟨p, q, rfl, rfl, madeRe, madeIm⟩

/-- A modulus is real and not negative. -/
theorem modulus_real {a b : Real} (done : modulus parts (.real a) (.real b) = .ok z) :
    ∃ m : Real, z = .real m ∧ realModulus a b settings = .ok m ∧ 0 ≤ m.sign ∧ m.IsMade := by
  obtain ⟨aa, first, rest⟩ := Outcome.bind_eq_ok.mp done
  obtain ⟨bb, second, rest⟩ := Outcome.bind_eq_ok.mp rest
  obtain ⟨sum, added, rooted⟩ := Outcome.bind_eq_ok.mp rest
  obtain ⟨p, rfl, left⟩ := level.binary rfl first
  obtain ⟨q, rfl, right⟩ := level.binary rfl second
  obtain ⟨s, rfl, operated⟩ := level.binary rfl added
  have nonneg : 0 ≤ s.sign := by
    refine Real.sign_operate_add_nonneg ?_ ?_ operated
    · rw [Real.sign_operate_multiply left]
      exact mul_self_nonneg _
    · rw [Real.sign_operate_multiply right]
      exact mul_self_nonneg _
  obtain ⟨m, rfl, applied⟩ := level.root nonneg rooted
  have computed : realModulus a b settings = .ok m :=
    Outcome.bind_eq_ok.mpr ⟨p, left, Outcome.bind_eq_ok.mpr ⟨q, right,
      Outcome.bind_eq_ok.mpr ⟨s, operated, applied⟩⟩⟩
  exact ⟨m, rfl, computed, Real.sign_apply_squareRoot_nonneg applied,
    (Real.isMade_operate operated).apply applied⟩

/-- An ordinary number has a real modulus and a real argument. The modulus is below zero only if it
is given so. -/
theorem polarParts_real (ordinary : Ordinary x) {a b : Value}
    (done : polarParts parts settings x = .ok (a, b)) :
    ∃ r s : Real, a = .real r ∧ b = .real s ∧ r.IsMade ∧ s.IsMade ∧
      (x.hasNegativeModulus = false → 0 ≤ r.sign) := by
  cases ordinary with
  | real p made =>
    unfold polarParts at done
    dsimp only at done
    split at done
    · rename_i negative
      obtain ⟨opposite, negated, same⟩ := Outcome.bind_eq_ok.mp done
      obtain ⟨rfl, rfl⟩ := Prod.mk.inj (Except.ok.inj same)
      obtain ⟨r, rfl, applied⟩ := level.unary rfl negated
      obtain rfl := Except.ok.inj applied
      refine ⟨_, _, rfl, rfl, made.negated.finished settings, Real.isMade_ofDecimal _ _, fun _ => ?_⟩
      rw [Real.sign_finished, Real.sign_negated]
      have := (Real.isNegative_iff p).mp negative
      omega
    · rename_i nonneg
      obtain ⟨rfl, rfl⟩ := Prod.mk.inj (Except.ok.inj done)
      refine ⟨p, _, rfl, rfl, made, Real.isMade_ofInt 0, fun _ => ?_⟩
      rwa [Real.isNegative_iff, not_lt] at nonneg
  | complex form p q madeFirst madeSecond =>
    cases form with
    | rectangular =>
      obtain ⟨length, measured, rest⟩ := Outcome.bind_eq_ok.mp done
      obtain ⟨argument, turned, same⟩ := Outcome.bind_eq_ok.mp rest
      obtain ⟨rfl, rfl⟩ := Prod.mk.inj (Except.ok.inj same)
      obtain ⟨m, rfl, -, nonneg, made⟩ := modulus_real level measured
      obtain ⟨s, rfl, madeArgument⟩ := binary_real level rfl turned
      exact ⟨m, s, rfl, rfl, made, madeArgument, fun _ => nonneg⟩
    | polar =>
      obtain ⟨rfl, rfl⟩ := Prod.mk.inj (Except.ok.inj done)
      exact ⟨p, q, rfl, rfl, madeFirst, madeSecond, (Real.isNegative_eq_false_iff p).mp⟩

/-! ## The operations -/

/-- Sums and differences are ordinary. -/
theorem ordinary_combine {command : Command} (combining : combines command = true)
    (left : Ordinary x) (right : Ordinary y) (done : combine parts command x y = .ok z) :
    Ordinary z := by
  obtain ⟨⟨a, b⟩, first, rest⟩ := Outcome.bind_eq_ok.mp done
  obtain ⟨⟨c, d⟩, second, rest⟩ := Outcome.bind_eq_ok.mp rest
  obtain ⟨re, real, rest⟩ := Outcome.bind_eq_ok.mp rest
  obtain ⟨im, imaginary, same⟩ := Outcome.bind_eq_ok.mp rest
  obtain rfl := Except.ok.inj same
  obtain ⟨p, q, rfl, rfl, -, -⟩ := rectangularParts_real level left first
  obtain ⟨p', q', rfl, rfl, -, -⟩ := rectangularParts_real level right second
  obtain ⟨u, rfl, madeRe⟩ := binary_real level combining real
  obtain ⟨v, rfl, madeIm⟩ := binary_real level combining imaginary
  exact ordinary_rectangular madeRe madeIm

/-- Products are ordinary. -/
theorem ordinary_multiply (left : Ordinary x) (right : Ordinary y)
    (done : multiply parts settings x y = .ok z) : Ordinary z := by
  unfold multiply at done
  split at done
  · obtain ⟨⟨r, s⟩, first, rest⟩ := Outcome.bind_eq_ok.mp done
    obtain ⟨⟨r', s'⟩, second, rest⟩ := Outcome.bind_eq_ok.mp rest
    obtain ⟨length, multiplied, rest⟩ := Outcome.bind_eq_ok.mp rest
    obtain ⟨argument, added, same⟩ := Outcome.bind_eq_ok.mp rest
    obtain rfl := Except.ok.inj same
    obtain ⟨p, q, rfl, rfl, -⟩ := polarParts_real level left first
    obtain ⟨p', q', rfl, rfl, -⟩ := polarParts_real level right second
    obtain ⟨u, rfl, madeLength⟩ := binary_real level rfl multiplied
    obtain ⟨v, rfl, madeArgument⟩ := binary_real level rfl added
    exact ordinary_polar madeLength madeArgument
  · obtain ⟨⟨a, b⟩, first, rest⟩ := Outcome.bind_eq_ok.mp done
    obtain ⟨⟨c, d⟩, second, rest⟩ := Outcome.bind_eq_ok.mp rest
    obtain ⟨ac, acDone, rest⟩ := Outcome.bind_eq_ok.mp rest
    obtain ⟨bd, bdDone, rest⟩ := Outcome.bind_eq_ok.mp rest
    obtain ⟨ad, adDone, rest⟩ := Outcome.bind_eq_ok.mp rest
    obtain ⟨bc, bcDone, rest⟩ := Outcome.bind_eq_ok.mp rest
    obtain ⟨re, subtracted, rest⟩ := Outcome.bind_eq_ok.mp rest
    obtain ⟨im, added, same⟩ := Outcome.bind_eq_ok.mp rest
    obtain rfl := Except.ok.inj same
    obtain ⟨p, q, rfl, rfl, -, -⟩ := rectangularParts_real level left first
    obtain ⟨p', q', rfl, rfl, -, -⟩ := rectangularParts_real level right second
    obtain ⟨_, rfl, -⟩ := binary_real level rfl acDone
    obtain ⟨_, rfl, -⟩ := binary_real level rfl bdDone
    obtain ⟨_, rfl, -⟩ := binary_real level rfl adDone
    obtain ⟨_, rfl, -⟩ := binary_real level rfl bcDone
    obtain ⟨u, rfl, madeRe⟩ := binary_real level rfl subtracted
    obtain ⟨v, rfl, madeIm⟩ := binary_real level rfl added
    exact ordinary_rectangular madeRe madeIm

/-- Quotients are ordinary. -/
theorem ordinary_divide (left : Ordinary x) (right : Ordinary y)
    (done : divide parts settings x y = .ok z) : Ordinary z := by
  unfold divide at done
  split at done
  · obtain ⟨⟨r, s⟩, first, rest⟩ := Outcome.bind_eq_ok.mp done
    obtain ⟨⟨r', s'⟩, second, rest⟩ := Outcome.bind_eq_ok.mp rest
    obtain ⟨p, q, rfl, rfl, -⟩ := polarParts_real level left first
    obtain ⟨p', q', rfl, rfl, -⟩ := polarParts_real level right second
    dsimp only at rest
    split at rest
    · cases rest
    · obtain ⟨length, divided, rest⟩ := Outcome.bind_eq_ok.mp rest
      obtain ⟨argument, subtracted, same⟩ := Outcome.bind_eq_ok.mp rest
      obtain rfl := Except.ok.inj same
      obtain ⟨u, rfl, madeLength⟩ := binary_real level rfl divided
      obtain ⟨v, rfl, madeArgument⟩ := binary_real level rfl subtracted
      exact ordinary_polar madeLength madeArgument
  · obtain ⟨⟨a, b⟩, first, rest⟩ := Outcome.bind_eq_ok.mp done
    obtain ⟨⟨c, d⟩, second, rest⟩ := Outcome.bind_eq_ok.mp rest
    obtain ⟨cc, ccDone, rest⟩ := Outcome.bind_eq_ok.mp rest
    obtain ⟨dd, ddDone, rest⟩ := Outcome.bind_eq_ok.mp rest
    obtain ⟨denominator, summed, rest⟩ := Outcome.bind_eq_ok.mp rest
    dsimp only at rest
    split at rest
    · cases rest
    · obtain ⟨ac, acDone, rest⟩ := Outcome.bind_eq_ok.mp rest
      obtain ⟨bd, bdDone, rest⟩ := Outcome.bind_eq_ok.mp rest
      obtain ⟨bc, bcDone, rest⟩ := Outcome.bind_eq_ok.mp rest
      obtain ⟨ad, adDone, rest⟩ := Outcome.bind_eq_ok.mp rest
      obtain ⟨above, added, rest⟩ := Outcome.bind_eq_ok.mp rest
      obtain ⟨beside, subtracted, rest⟩ := Outcome.bind_eq_ok.mp rest
      obtain ⟨re, realDone, rest⟩ := Outcome.bind_eq_ok.mp rest
      obtain ⟨im, imaginaryDone, same⟩ := Outcome.bind_eq_ok.mp rest
      obtain rfl := Except.ok.inj same
      obtain ⟨p, q, rfl, rfl, -, -⟩ := rectangularParts_real level left first
      obtain ⟨p', q', rfl, rfl, -, -⟩ := rectangularParts_real level right second
      obtain ⟨_, rfl, -⟩ := binary_real level rfl ccDone
      obtain ⟨_, rfl, -⟩ := binary_real level rfl ddDone
      obtain ⟨_, rfl, -⟩ := binary_real level rfl summed
      obtain ⟨_, rfl, -⟩ := binary_real level rfl acDone
      obtain ⟨_, rfl, -⟩ := binary_real level rfl bdDone
      obtain ⟨_, rfl, -⟩ := binary_real level rfl bcDone
      obtain ⟨_, rfl, -⟩ := binary_real level rfl adDone
      obtain ⟨_, rfl, -⟩ := binary_real level rfl added
      obtain ⟨_, rfl, -⟩ := binary_real level rfl subtracted
      obtain ⟨u, rfl, madeRe⟩ := binary_real level rfl realDone
      obtain ⟨v, rfl, madeIm⟩ := binary_real level rfl imaginaryDone
      exact ordinary_rectangular madeRe madeIm

/-- Powers with integer exponents are ordinary. -/
theorem ordinary_integerPower {exponent : ℤ} (ordinary : Ordinary x)
    (done : integerPower parts settings x exponent = .ok z) : Ordinary z := by
  have one : Ordinary (.ofInt 1) := .real _ (Real.isMade_ofInt 1)
  unfold integerPower at done
  dsimp only at done
  by_cases large : largestExponent < exponent.natAbs
  · rw [if_pos large] at done
    cases done
  · rw [if_neg large] at done
    obtain ⟨power, raised, rest⟩ := Outcome.bind_eq_ok.mp done
    have ordinaryPower : Ordinary power :=
      raiseOnto_induction (fun _ => Ordinary) (fun _ => Ordinary)
        (fun first second => ordinary_multiply level first second)
        (fun base => ordinary_multiply level base base)
        (i := 0) (j := 1) one ordinary raised
    split at rest
    · exact ordinary_divide level one ordinaryPower rest
    · exact Except.ok.inj rest ▸ ordinaryPower

/-- Exponentials are ordinary. -/
theorem ordinary_exponential (ordinary : Ordinary x) (done : exponential parts x = .ok z) :
    Ordinary z := by
  obtain ⟨⟨a, b⟩, divided, rest⟩ := Outcome.bind_eq_ok.mp done
  obtain ⟨scale, scaled, rest⟩ := Outcome.bind_eq_ok.mp rest
  obtain ⟨cosine, cosined, rest⟩ := Outcome.bind_eq_ok.mp rest
  obtain ⟨sine, sined, rest⟩ := Outcome.bind_eq_ok.mp rest
  obtain ⟨re, real, rest⟩ := Outcome.bind_eq_ok.mp rest
  obtain ⟨im, imaginary, same⟩ := Outcome.bind_eq_ok.mp rest
  obtain rfl := Except.ok.inj same
  obtain ⟨p, q, rfl, rfl, madeFirst, madeSecond⟩ := rectangularParts_real level ordinary divided
  obtain ⟨_, rfl, -⟩ := unary_real level rfl madeFirst scaled
  obtain ⟨_, rfl, -⟩ := unary_real level rfl madeSecond cosined
  obtain ⟨_, rfl, -⟩ := unary_real level rfl madeSecond sined
  obtain ⟨u, rfl, madeRe⟩ := binary_real level rfl real
  obtain ⟨v, rfl, madeIm⟩ := binary_real level rfl imaginary
  exact ordinary_rectangular madeRe madeIm

/-- Logarithms are ordinary, unless the modulus is below zero. -/
theorem ordinary_naturalLogarithm (ordinary : Ordinary x) (modulus : x.hasNegativeModulus = false)
    (done : naturalLogarithm parts settings x = .ok z) : Ordinary z := by
  obtain ⟨⟨length, argument⟩, measured, rest⟩ := Outcome.bind_eq_ok.mp done
  obtain ⟨r, s, rfl, rfl, madeLength, madeArgument, nonneg⟩ :=
    polarParts_real level ordinary measured
  dsimp only at rest
  split at rest
  · cases rest
  · obtain ⟨logarithm, found, same⟩ := Outcome.bind_eq_ok.mp rest
    obtain rfl := Except.ok.inj same
    obtain ⟨c, rfl, applied⟩ := level.logarithm (nonneg modulus) found
    exact ordinary_rectangular (madeLength.apply applied) madeArgument

/-! ## Powers -/

/-- The logarithm of a number whose modulus is below zero has a bent real part, unless the argument
is an exact zero and the logarithm is that bent number. -/
theorem naturalLogarithm_bent (ordinary : Ordinary x) (modulus : x.hasNegativeModulus = true)
    (done : naturalLogarithm parts settings x = .ok z) :
    Ordinary z ∧ z.isReal = false ∨
      ∃ w s, Bent w ∧ z = .complex .rectangular w (.real s) := by
  cases ordinary with
  | real p made => cases modulus
  | complex form r s madeFirst madeSecond =>
    cases form with
    | rectangular => cases modulus
    | polar =>
      obtain ⟨⟨length, argument⟩, measured, rest⟩ := Outcome.bind_eq_ok.mp done
      obtain ⟨rfl, rfl⟩ := Prod.mk.inj (Except.ok.inj measured)
      dsimp only at rest
      split at rest
      · cases rest
      · obtain ⟨logarithm, found, same⟩ := Outcome.bind_eq_ok.mp rest
        obtain rfl := Except.ok.inj same
        obtain ⟨bent, whole⟩ := level.logarithm_bent madeFirst
          ((Real.isNegative_iff r).mp modulus) found
        unfold rectangular
        split
        · refine .inl ⟨whole, ?_⟩
          cases bent
          rfl
        · exact .inr ⟨logarithm, s, bent, rfl⟩

/-- A product with a number whose real part is bent has no exponential: its imaginary part is bent
and has no cosine. -/
theorem exponential_bent {w product : Value} {s : Real} (ordinary : Ordinary y) (bent : Bent w)
    (done : multiply parts settings y (.complex .rectangular w (.real s)) = .ok product) (z : Value) :
    exponential parts product ≠ .ok z := by
  intro raised
  have straight : (isPolar y && isPolar (.complex .rectangular w (.real s))) = false :=
    Bool.and_false _
  unfold multiply at done
  rw [straight] at done
  obtain ⟨⟨a, b⟩, first, rest⟩ := Outcome.bind_eq_ok.mp done
  obtain ⟨⟨c, d⟩, second, rest⟩ := Outcome.bind_eq_ok.mp rest
  obtain ⟨ac, -, rest⟩ := Outcome.bind_eq_ok.mp rest
  obtain ⟨bd, -, rest⟩ := Outcome.bind_eq_ok.mp rest
  obtain ⟨ad, adDone, rest⟩ := Outcome.bind_eq_ok.mp rest
  obtain ⟨bc, bcDone, rest⟩ := Outcome.bind_eq_ok.mp rest
  obtain ⟨re, -, rest⟩ := Outcome.bind_eq_ok.mp rest
  obtain ⟨im, added, same⟩ := Outcome.bind_eq_ok.mp rest
  obtain rfl := Except.ok.inj same
  obtain ⟨p, q, rfl, rfl, -, -⟩ := rectangularParts_real level ordinary first
  obtain ⟨rfl, rfl⟩ := Prod.mk.inj (Except.ok.inj second)
  obtain ⟨_, rfl, -⟩ := binary_real level rfl adDone
  have bentPart := level.add_bent (level.multiply_bent bent bcDone) added
  have form : rectangular re im = .complex .rectangular re im := by
    cases bentPart
    rfl
  rw [form] at raised
  obtain ⟨⟨a, b⟩, divided, rest⟩ := Outcome.bind_eq_ok.mp raised
  obtain ⟨rfl, rfl⟩ := Prod.mk.inj (Except.ok.inj divided)
  obtain ⟨scale, -, rest⟩ := Outcome.bind_eq_ok.mp rest
  obtain ⟨cosine, cosined, -⟩ := Outcome.bind_eq_ok.mp rest
  exact level.cosine_bent bentPart cosine cosined

/-- Powers are ordinary. -/
theorem ordinary_power (left : Ordinary x) (right : Ordinary y)
    (done : power parts settings x y = .ok z) : Ordinary z := by
  unfold power at done
  split at done
  · exact ordinary_integerPower level left done
  · obtain ⟨logarithm, found, rest⟩ := Outcome.bind_eq_ok.mp done
    obtain ⟨product, multiplied, raised⟩ := Outcome.bind_eq_ok.mp rest
    have plain (ordinary : Ordinary logarithm) : Ordinary z := by
      refine ordinary_exponential level (ordinary_multiply level right ?_ multiplied) raised
      cases ordinary with
      | real p made => exact ordinary_withoutImaginary made
      | complex form p q madeFirst madeSecond => exact .complex form p q madeFirst madeSecond
    cases modulus : x.hasNegativeModulus with
    | false => exact plain (ordinary_naturalLogarithm level left modulus found)
    | true =>
      rcases naturalLogarithm_bent level left modulus found with ⟨ordinary, -⟩ | ⟨w, s, bent, rfl⟩
      · exact plain ordinary
      · exact absurd raised (exponential_bent level right bent multiplied z)

end Routines

/-! ## Functions -/

/-- The sum and the difference of the modulus and the real part of a rectangular number. Their
halves are the squares of the parts of its square root. -/
def radicands (a b : Real) (settings : Preferences) : Outcome (Real × Real) := do
  let m ← realModulus a b settings
  return (← m.operate .add a settings, ← m.operate .subtract a settings)

/-- Where a function of an ordinary complex number meets a part below zero that it takes the root or
the logarithm of. -/
inductive Exceptional (settings : Preferences) : Command → Value → Prop
  | polarRoot {x} (modulus : x.hasNegativeModulus = true) : Exceptional settings .squareRoot x
  | rectangularRoot {a b p q} (computed : radicands a b settings = .ok (p, q))
      (negative : p.isNegative = true ∨ q.isNegative = true) :
      Exceptional settings .squareRoot (.complex .rectangular (.real a) (.real b))
  | naturalLogarithm {x} (modulus : x.hasNegativeModulus = true) : Exceptional settings .naturalLog x
  | commonLogarithm {x} (modulus : x.hasNegativeModulus = true) : Exceptional settings .commonLog x

section Functions

variable (level : Level parts settings) {x y z : Value}
include level

/-- The root of half of a number that is not negative is real. -/
theorem halfRoot_real {p : Real} {half root : Value} (nonneg : 0 ≤ p.sign)
    (halved : parts.binary .divide (.real p) (.ofInt 2) = .ok half)
    (rooted : parts.unary .squareRoot half = .ok root) : ∃ c : Real, root = .real c ∧ c.IsMade := by
  obtain ⟨h, rfl, operated⟩ := level.binary rfl halved
  have nonnegHalf : 0 ≤ h.sign := by
    rw [Real.sign_operate_divide operated, Real.sign_ofInt]
    exact mul_nonneg nonneg (by decide)
  obtain ⟨c, rfl, applied⟩ := level.root nonnegHalf rooted
  exact ⟨c, rfl, (Real.isMade_operate operated).apply applied⟩

/-- Square roots are ordinary, where no part below zero is met. -/
theorem ordinary_squareRoot {form : ComplexForm} {a b : Real} (madeFirst : a.IsMade)
    (regular : ¬ Exceptional settings .squareRoot (.complex form (.real a) (.real b)))
    (done : squareRoot parts settings (.complex form (.real a) (.real b)) = .ok z) :
    Ordinary z := by
  cases form with
  | polar =>
    obtain ⟨⟨length, argument⟩, measured, rest⟩ := Outcome.bind_eq_ok.mp done
    obtain ⟨rfl, rfl⟩ := Prod.mk.inj (Except.ok.inj measured)
    obtain ⟨root, rooted, rest⟩ := Outcome.bind_eq_ok.mp rest
    obtain ⟨half, halved, same⟩ := Outcome.bind_eq_ok.mp rest
    obtain rfl := Except.ok.inj same
    have nonneg : 0 ≤ a.sign := by
      rw [← Real.isNegative_eq_false_iff, ← Bool.not_eq_true]
      exact fun negative => regular (.polarRoot negative)
    obtain ⟨c, rfl, applied⟩ := level.root nonneg rooted
    obtain ⟨d, rfl, madeArgument⟩ := binary_real level rfl halved
    exact ordinary_polar (madeFirst.apply applied) madeArgument
  | rectangular =>
    obtain ⟨⟨p, q⟩, divided, rest⟩ := Outcome.bind_eq_ok.mp done
    obtain ⟨rfl, rfl⟩ := Prod.mk.inj (Except.ok.inj divided)
    obtain ⟨m, measured, rest⟩ := Outcome.bind_eq_ok.mp rest
    obtain ⟨sum, added, rest⟩ := Outcome.bind_eq_ok.mp rest
    obtain ⟨reSquared, halvedSum, rest⟩ := Outcome.bind_eq_ok.mp rest
    obtain ⟨difference, subtracted, rest⟩ := Outcome.bind_eq_ok.mp rest
    obtain ⟨imSquared, halvedDifference, rest⟩ := Outcome.bind_eq_ok.mp rest
    obtain ⟨re, rootedSum, rest⟩ := Outcome.bind_eq_ok.mp rest
    obtain ⟨im, rootedDifference, rest⟩ := Outcome.bind_eq_ok.mp rest
    obtain ⟨c, rfl, modulus, -⟩ := modulus_real level measured
    obtain ⟨s, rfl, above⟩ := level.binary rfl added
    obtain ⟨d, rfl, below⟩ := level.binary rfl subtracted
    have computed : radicands a b settings = .ok (s, d) :=
      Outcome.bind_eq_ok.mpr ⟨c, modulus, Outcome.bind_eq_ok.mpr ⟨s, above,
        Outcome.bind_eq_ok.mpr ⟨d, below, rfl⟩⟩⟩
    have nonnegSum : 0 ≤ s.sign := by
      rw [← Real.isNegative_eq_false_iff, ← Bool.not_eq_true]
      exact fun negative => regular (.rectangularRoot computed (.inl negative))
    have nonnegDifference : 0 ≤ d.sign := by
      rw [← Real.isNegative_eq_false_iff, ← Bool.not_eq_true]
      exact fun negative => regular (.rectangularRoot computed (.inr negative))
    obtain ⟨e, rfl, madeRe⟩ := halfRoot_real level nonnegSum halvedSum rootedSum
    obtain ⟨f, rfl, madeIm⟩ := halfRoot_real level nonnegDifference halvedDifference rootedDifference
    dsimp only at rest
    split at rest
    · obtain ⟨opposite, negated, same⟩ := Outcome.bind_eq_ok.mp rest
      obtain rfl := Except.ok.inj same
      obtain ⟨g, rfl, madeOpposite⟩ := unary_real level rfl madeIm negated
      exact ordinary_rectangular madeRe madeOpposite
    · obtain rfl := Except.ok.inj rest
      exact ordinary_rectangular madeRe madeIm

/-- Functions of complex numbers are ordinary, where no part below zero is met. -/
theorem ordinary_unary {command : Command} {form : ComplexForm} {a b : Real} (madeFirst : a.IsMade)
    (madeSecond : b.IsMade)
    (regular : ¬ Exceptional settings command (.complex form (.real a) (.real b)))
    (done : unary parts settings command (.complex form (.real a) (.real b)) = .ok z) :
    Ordinary z := by
  have ordinary : Ordinary (.complex form (.real a) (.real b)) := .complex form a b madeFirst madeSecond
  cases command
  case negate =>
    obtain ⟨⟨p, q⟩, divided, rest⟩ := Outcome.bind_eq_ok.mp done
    obtain ⟨re, real, rest⟩ := Outcome.bind_eq_ok.mp rest
    obtain ⟨im, imaginary, same⟩ := Outcome.bind_eq_ok.mp rest
    obtain rfl := Except.ok.inj same
    obtain ⟨u, v, rfl, rfl, madeU, madeV⟩ := rectangularParts_real level ordinary divided
    obtain ⟨c, rfl, madeRe⟩ := unary_real level rfl madeU real
    obtain ⟨d, rfl, madeIm⟩ := unary_real level rfl madeV imaginary
    exact ordinary_rectangular madeRe madeIm
  case invert =>
    exact ordinary_divide level (ordinary_withoutImaginary (Real.isMade_ofInt 1)) ordinary done
  case square => exact ordinary_multiply level ordinary ordinary done
  case cube =>
    obtain ⟨square, squared, rest⟩ := Outcome.bind_eq_ok.mp done
    exact ordinary_multiply level (ordinary_multiply level ordinary ordinary squared) ordinary rest
  case absolute =>
    obtain ⟨⟨p, q⟩, divided, rest⟩ := Outcome.bind_eq_ok.mp done
    obtain ⟨u, v, rfl, rfl, -, -⟩ := rectangularParts_real level ordinary divided
    obtain ⟨m, rfl, -, -, made⟩ := modulus_real level rest
    exact .real m made
  case squareRoot => exact ordinary_squareRoot level madeFirst regular done
  case exponential => exact ordinary_exponential level ordinary done
  case naturalLog =>
    refine ordinary_naturalLogarithm level ordinary ?_ done
    exact Bool.eq_false_iff.mpr fun modulus => regular (.naturalLogarithm modulus)
  case commonLog =>
    obtain ⟨base, based, rest⟩ := Outcome.bind_eq_ok.mp done
    obtain ⟨logarithm, found, rest⟩ := Outcome.bind_eq_ok.mp rest
    have positive : 0 ≤ (Real.ofInt 10).sign := by
      rw [Real.sign_ofInt]
      decide
    obtain ⟨c, rfl, applied⟩ := level.logarithm positive based
    refine ordinary_divide level (ordinary_naturalLogarithm level ordinary ?_ found) ?_ rest
    · exact Bool.eq_false_iff.mpr fun modulus => regular (.commonLogarithm modulus)
    · exact ordinary_withoutImaginary ((Real.isMade_ofInt 10).apply applied)
  all_goals cases done

/-- Operations on ordinary numbers are ordinary. -/
theorem ordinary_binary {command : Command} (left : Ordinary x) (right : Ordinary y)
    (done : binary parts settings command x y = .ok z) : Ordinary z := by
  cases command
  case add | subtract => exact ordinary_combine level rfl left right done
  case multiply => exact ordinary_multiply level left right done
  case divide => exact ordinary_divide level left right done
  case power => exact ordinary_power level left right done
  all_goals cases done

end Functions

end Complex

end Calculator
