import Calculator.Arithmetic
import Calculator.Proofs.Number.Exponent
import Mathlib

/-!
# Exact complex numbers

An exact number is a real number that is exact, or a complex number with two such parts. What it
denotes is a Gaussian rational number, and where results need not be numerical, sums, products and
powers of exact numbers denote the sums, products and powers of these. The result is the one number
that arithmetic makes for what it denotes: a complex number only if the imaginary part is not zero.
-/

namespace Calculator

/-- Complex numbers with rational parts. -/
abbrev GaussianRational : Type := QuadraticAlgebra ℚ (-1) 0

namespace GaussianRational

/-- The product of rational numbers is rational. -/
theorem rational_mul (p q : ℚ) : (⟨p, 0⟩ * ⟨q, 0⟩ : GaussianRational) = ⟨p * q, 0⟩ :=
  QuadraticAlgebra.ext (by simp) (by simp)

/-- A power of a rational number is rational. -/
theorem rational_pow (p : ℚ) (exponent : ℕ) :
    (⟨p, 0⟩ ^ exponent : GaussianRational) = ⟨p ^ exponent, 0⟩ :=
  (map_pow (algebraMap ℚ GaussianRational) p exponent).symm

end GaussianRational

/-! ## Exact real numbers -/

namespace Real

/-- The rational number that an exact number denotes, zero for a decimal. -/
def rational (x : Real) : ℚ := x.rational?.getD 0

/-- An exact number denotes a rational number. -/
theorem rational?_of_isExact {x : Real} (exact : x.isExact = true) :
    x.rational? = some x.rational := by
  cases x with
  | decimal value => cases exact
  | _ => rfl

/-- An exact number is what represents the rational number that it denotes. -/
theorem ofRational_rational {x : Real} (exact : x.isExact = true) : ofRational x.rational = x :=
  ((rational?_eq_some_iff x _).mp (rational?_of_isExact exact)).symm

/-- What represents a rational number denotes it. -/
@[simp]
theorem rational_ofRational (q : ℚ) : (ofRational q).rational = q := by
  rw [rational, rational?_ofRational, Option.getD_some]

/-- What represents a rational number is exact. -/
@[simp]
theorem isExact_ofRational (q : ℚ) : (ofRational q).isExact = true := by
  have denotes := rational?_ofRational q
  cases form : ofRational q with
  | decimal value =>
    rw [form] at denotes
    cases denotes
  | _ => rfl

/-- What represents a rational number is zero if that is. -/
@[simp]
theorem isZero_ofRational (q : ℚ) : (ofRational q).isZero = decide (q = 0) := by
  have denotes := rational?_ofRational q
  rw [Bool.eq_iff_iff, decide_eq_true_eq]
  cases form : ofRational q with
  | word value =>
    rw [form] at denotes
    obtain rfl := Option.some.inj denotes
    rw [isZero, Word.isZero_iff, Int.cast_eq_zero]
  | wide value =>
    rw [form] at denotes
    obtain rfl := Option.some.inj denotes
    have wide := value.wide
    simp only [isZero, Bool.false_eq_true, Int.cast_eq_zero, false_iff]
    rintro zero
    rw [zero] at wide
    exact absurd wide (by decide)
  | fraction value =>
    rw [form] at denotes
    obtain rfl := Option.some.inj denotes
    have proper := value.proper
    have reduced := value.reduced
    simp only [isZero, Bool.false_eq_true, false_iff, div_eq_zero_iff, Int.cast_eq_zero,
      Nat.cast_eq_zero, not_or]
    refine ⟨fun zero => ?_, by omega⟩
    rw [zero, Int.natAbs_zero, Nat.gcd_zero_left] at reduced
    omega
  | decimal value =>
    rw [form] at denotes
    cases denotes

/-- A change of sign represents the opposite. -/
theorem negated_ofRational (q : ℚ) : (ofRational q).negated = ofRational (-q) := by
  rw [← rational?_eq_some_iff]
  have denotes := rational?_ofRational q
  cases form : ofRational q with
  | word value =>
    rw [form] at denotes
    obtain rfl := Option.some.inj denotes
    rw [negated, rational?, Word.toInt_negated, Int.cast_neg]
  | wide value =>
    rw [form] at denotes
    obtain rfl := Option.some.inj denotes
    rw [negated, rational?_ofInt, Int.cast_neg]
  | fraction value =>
    rw [form] at denotes
    obtain rfl := Option.some.inj denotes
    rw [negated, rational?, Fraction.negated, Int.cast_neg, neg_div]
  | decimal value =>
    rw [form] at denotes
    cases denotes

/-- The opposite of a number is exact if the number is. -/
theorem isExact_negated (x : Real) : x.negated.isExact = x.isExact := by
  cases x with
  | wide value =>
    rw [negated, ← ofRational_intCast, isExact_ofRational]
    rfl
  | _ => rfl

section Functions

variable {settings : Preferences} (symbolic : settings.numericalResults = false) {x y : Real}
include symbolic

/-- The product of exact numbers is the exact product. -/
theorem operate_multiply_exact (left : x.isExact = true) (right : y.isExact = true) :
    operate .multiply x y settings = .ok (ofRational (x.rational * y.rational)) := by
  rw [operate_eq rfl (rational?_of_isExact left) (rational?_of_isExact right) symbolic, exactResult]
  rfl

/-- The opposite of an exact number is the exact opposite. -/
theorem apply_negate_exact (exact : x.isExact = true) :
    x.apply .negate settings = .ok (ofRational (-x.rational)) := by
  have start : x.apply .negate settings = .ok (x.negated.finished settings) := rfl
  rw [start, finished_eq symbolic, ← negated_ofRational, ofRational_rational exact]

/-- The square of an exact number is the exact square. -/
theorem apply_square_exact (exact : x.isExact = true) :
    x.apply .square settings = .ok (ofRational (x.rational ^ 2)) := by
  have start : x.apply .square settings =
      (operate .multiply x x settings >>= fun result => .ok (result.finished settings)) := rfl
  rw [start, operate_multiply_exact symbolic exact exact, sq]
  exact congrArg Except.ok (finished_eq symbolic _)

/-- The cube of an exact number is the exact cube. -/
theorem apply_cube_exact (exact : x.isExact = true) :
    x.apply .cube settings = .ok (ofRational (x.rational ^ 3)) := by
  have start : x.apply .cube settings = (operate .multiply x x settings >>= fun square =>
      operate .multiply square x settings >>= fun result => .ok (result.finished settings)) := by
    simp only [apply]
    rfl
  rw [start, operate_multiply_exact symbolic exact exact]
  show (operate .multiply (ofRational _) x settings >>= fun result =>
    .ok (result.finished settings)) = _
  rw [operate_multiply_exact symbolic (isExact_ofRational _) exact, rational_ofRational, ← sq,
    ← pow_succ]
  exact congrArg Except.ok (finished_eq symbolic _)

end Functions

end Real

/-! ## Exact numbers -/

namespace Value

/-- A number without decimals: an exact real number, or a rectangular one with two such parts. -/
inductive IsGaussian : Value → Prop
  | real (x : Real) (exact : x.isExact = true) : IsGaussian (.real x)
  | complex (a b : Real) (exactFirst : a.isExact = true) (exactSecond : b.isExact = true) :
      IsGaussian (.complex .rectangular (.real a) (.real b))

/-- The Gaussian rational number that an exact number denotes. -/
def gaussian : Value → GaussianRational
  | .real x => ⟨x.rational, 0⟩
  | .complex .rectangular (.real a) (.real b) => ⟨a.rational, b.rational⟩
  | _ => 0

/-- The number that arithmetic makes for a Gaussian rational number. -/
def ofGaussian (z : GaussianRational) : Value :=
  Complex.rectangular (.real (.ofRational z.re)) (.real (.ofRational z.im))

/-- Without an imaginary part it is real. -/
theorem ofGaussian_of_im_eq_zero {z : GaussianRational} (real : z.im = 0) :
    ofGaussian z = .real (.ofRational z.re) := by
  simp [ofGaussian, Complex.rectangular, isZero, isExact, real]

/-- With an imaginary part it is complex. -/
theorem ofGaussian_of_im_ne_zero {z : GaussianRational} (complex : z.im ≠ 0) :
    ofGaussian z =
      .complex .rectangular (.real (.ofRational z.re)) (.real (.ofRational z.im)) := by
  simp [ofGaussian, Complex.rectangular, isZero, complex]

/-- It denotes the number that it is made for. -/
@[simp]
theorem gaussian_ofGaussian (z : GaussianRational) : (ofGaussian z).gaussian = z := by
  by_cases real : z.im = 0
  · rw [ofGaussian_of_im_eq_zero real, gaussian, Real.rational_ofRational]
    exact QuadraticAlgebra.ext rfl real.symm
  · rw [ofGaussian_of_im_ne_zero real, gaussian, Real.rational_ofRational,
      Real.rational_ofRational]

/-- It is exact. -/
theorem isGaussian_ofGaussian (z : GaussianRational) : IsGaussian (ofGaussian z) := by
  by_cases real : z.im = 0
  · rw [ofGaussian_of_im_eq_zero real]
    exact .real _ (Real.isExact_ofRational _)
  · rw [ofGaussian_of_im_ne_zero real]
    exact .complex _ _ (Real.isExact_ofRational _) (Real.isExact_ofRational _)

/-- An exact real number is made for what it denotes. -/
theorem ofGaussian_gaussian {x : Real} (exact : x.isExact = true) :
    ofGaussian (gaussian (.real x)) = .real x := by
  rw [ofGaussian_of_im_eq_zero rfl]
  exact congrArg Value.real (Real.ofRational_rational exact)

/-- An exact number that is zero denotes zero. -/
theorem gaussian_of_isZero {x : Value} (exact : x.IsGaussian) (zero : x.isZero = true) :
    x.gaussian = 0 := by
  cases exact with
  | real a exact =>
    rw [← Real.ofRational_rational exact] at zero
    have none := of_decide_eq_true ((Real.isZero_ofRational _).symm.trans zero)
    rw [gaussian, none]
    rfl
  | complex => cases zero

/-- An integer is exact. -/
theorem isGaussian_ofInt (value : ℤ) : IsGaussian (.ofInt value) := by
  rw [ofInt, ← Real.ofRational_intCast]
  exact .real _ (Real.isExact_ofRational _)

/-- An integer denotes its value. -/
theorem gaussian_ofInt (value : ℤ) : (ofInt value).gaussian = value := by
  rw [ofInt, gaussian, ← Real.ofRational_intCast, Real.rational_ofRational]
  rfl

/-- The number that arithmetic makes for an integer is the integer. -/
theorem ofGaussian_intCast (value : ℤ) : ofGaussian value = ofInt value := by
  rw [← gaussian_ofInt]
  exact ofGaussian_gaussian (by rw [← Real.ofRational_intCast, Real.isExact_ofRational])

end Value

/-! ## Exact parts -/

namespace Complex

open Value

variable {parts : Operations} {settings : Preferences}

/-- Operations on parts that are exact where the parts are. -/
structure ExactParts (parts : Operations) : Prop where
  add {a b : Real} (first : a.isExact = true) (second : b.isExact = true) :
    parts.binary .add (.real a) (.real b) = .ok (.real (.ofRational (a.rational + b.rational)))
  subtract {a b : Real} (first : a.isExact = true) (second : b.isExact = true) :
    parts.binary .subtract (.real a) (.real b) =
      .ok (.real (.ofRational (a.rational - b.rational)))
  multiply {a b : Real} (first : a.isExact = true) (second : b.isExact = true) :
    parts.binary .multiply (.real a) (.real b) =
      .ok (.real (.ofRational (a.rational * b.rational)))
  negate {a : Real} (exact : a.isExact = true) :
    parts.unary .negate (.real a) = .ok (.real (.ofRational (-a.rational)))

/-- An exact number is rectangular, with exact parts. -/
theorem rectangularParts_gaussian (parts : Operations) {x : Value} (exact : x.IsGaussian) :
    isPolar x = false ∧ ∃ a b : Real, rectangularParts parts x = .ok (.real a, .real b) ∧
      a.isExact = true ∧ b.isExact = true ∧ x.gaussian = ⟨a.rational, b.rational⟩ := by
  cases exact with
  | real a exact =>
    refine ⟨rfl, a, .ofInt 0, rfl, exact, rfl, ?_⟩
    rw [gaussian, ← Real.ofRational_intCast, Real.rational_ofRational, Int.cast_zero]
  | complex a b exactFirst exactSecond => exact ⟨rfl, a, b, rfl, exactFirst, exactSecond, rfl⟩

variable (exactParts : ExactParts parts) {x y : Value}
include exactParts

/-- The sum of exact numbers is the exact sum. -/
theorem combine_add (left : x.IsGaussian) (right : y.IsGaussian) :
    combine parts .add x y = .ok (ofGaussian (x.gaussian + y.gaussian)) := by
  obtain ⟨-, a, b, first, exactA, exactB, valueX⟩ := rectangularParts_gaussian parts left
  obtain ⟨-, c, d, second, exactC, exactD, valueY⟩ := rectangularParts_gaussian parts right
  rw [combine, first, second, valueX, valueY]
  show (parts.binary .add (.real a) (.real c) >>= fun re =>
    parts.binary .add (.real b) (.real d) >>= fun im => .ok (rectangular re im)) = _
  rw [exactParts.add exactA exactC, exactParts.add exactB exactD]
  rfl

/-- The difference of exact numbers is the exact difference. -/
theorem combine_subtract (left : x.IsGaussian) (right : y.IsGaussian) :
    combine parts .subtract x y = .ok (ofGaussian (x.gaussian - y.gaussian)) := by
  obtain ⟨-, a, b, first, exactA, exactB, valueX⟩ := rectangularParts_gaussian parts left
  obtain ⟨-, c, d, second, exactC, exactD, valueY⟩ := rectangularParts_gaussian parts right
  rw [combine, first, second, valueX, valueY]
  show (parts.binary .subtract (.real a) (.real c) >>= fun re =>
    parts.binary .subtract (.real b) (.real d) >>= fun im => .ok (rectangular re im)) = _
  rw [exactParts.subtract exactA exactC, exactParts.subtract exactB exactD]
  rfl

/-- The product of exact numbers is the exact product. -/
theorem multiply_exact (settings : Preferences) (left : x.IsGaussian) (right : y.IsGaussian) :
    multiply parts settings x y = .ok (ofGaussian (x.gaussian * y.gaussian)) := by
  obtain ⟨plainX, a, b, first, exactA, exactB, valueX⟩ := rectangularParts_gaussian parts left
  obtain ⟨plainY, c, d, second, exactC, exactD, valueY⟩ := rectangularParts_gaussian parts right
  rw [multiply, plainX, Bool.false_and, if_neg Bool.false_ne_true, first, second, valueX, valueY]
  show (parts.binary .multiply (.real a) (.real c) >>= fun ac =>
    parts.binary .multiply (.real b) (.real d) >>= fun bd =>
    parts.binary .multiply (.real a) (.real d) >>= fun ad =>
    parts.binary .multiply (.real b) (.real c) >>= fun bc =>
    parts.binary .subtract ac bd >>= fun re =>
    parts.binary .add ad bc >>= fun im => .ok (rectangular re im)) = _
  rw [exactParts.multiply exactA exactC, exactParts.multiply exactB exactD,
    exactParts.multiply exactA exactD, exactParts.multiply exactB exactC]
  show (parts.binary .subtract _ _ >>= fun re =>
    parts.binary .add _ _ >>= fun im => .ok (rectangular re im)) = _
  rw [exactParts.subtract (Real.isExact_ofRational _) (Real.isExact_ofRational _),
    exactParts.add (Real.isExact_ofRational _) (Real.isExact_ofRational _)]
  simp only [Real.rational_ofRational]
  have product : (⟨a.rational, b.rational⟩ : GaussianRational) * ⟨c.rational, d.rational⟩ =
      ⟨a.rational * c.rational - b.rational * d.rational,
        a.rational * d.rational + b.rational * c.rational⟩ := by
    rw [QuadraticAlgebra.mk_mul_mk]
    exact QuadraticAlgebra.ext (by ring) (by ring)
  rw [product]
  rfl

/-- Repeated squaring of an exact number makes the exact power. -/
theorem raiseOnto_multiply (settings : Preferences) (exact : x.IsGaussian) (exponent : ℕ) :
    raiseOnto (multiply parts settings) (.ofInt 1) x exponent =
      .ok (ofGaussian (x.gaussian ^ exponent)) := by
  have product {i j : ℕ} {u v : Value} (first : u = ofGaussian (x.gaussian ^ i))
      (second : v.IsGaussian ∧ v.gaussian = x.gaussian ^ j) :
      ∃ w, multiply parts settings u v = .ok w ∧ w = ofGaussian (x.gaussian ^ (i + j)) := by
    subst first
    refine ⟨_, multiply_exact exactParts settings (isGaussian_ofGaussian _) second.1, ?_⟩
    rw [gaussian_ofGaussian, second.2, pow_add]
  have square {j : ℕ} {v : Value} (base : v.IsGaussian ∧ v.gaussian = x.gaussian ^ j) :
      ∃ w, multiply parts settings v v = .ok w ∧
        (w.IsGaussian ∧ w.gaussian = x.gaussian ^ (j + j)) := by
    refine ⟨_, multiply_exact exactParts settings base.1 base.1, isGaussian_ofGaussian _, ?_⟩
    rw [gaussian_ofGaussian, base.2, pow_add]
  have one : ofInt 1 = ofGaussian (x.gaussian ^ 0) := by
    rw [pow_zero, ofGaussian_of_im_eq_zero rfl]
    rfl
  obtain ⟨power, raised, value⟩ := raiseOnto_total (multiply parts settings)
    (fun count u => u = ofGaussian (x.gaussian ^ count))
    (fun count v => v.IsGaussian ∧ v.gaussian = x.gaussian ^ count) product square exponent one
    (show x.IsGaussian ∧ x.gaussian = x.gaussian ^ 1 from ⟨exact, (pow_one _).symm⟩)
  rw [Nat.zero_add, Nat.one_mul] at value
  rw [raised, value]

/-- A power of an exact number is made of the power with the magnitude of the exponent. -/
theorem integerPower_of_bounded (settings : Preferences) (exact : x.IsGaussian) {exponent : ℤ}
    (bounded : exponent.natAbs ≤ largestExponent) :
    integerPower parts settings x exponent =
      if exponent < 0 then
        divide parts settings (.ofInt 1) (ofGaussian (x.gaussian ^ exponent.natAbs))
      else .ok (ofGaussian (x.gaussian ^ exponent.natAbs)) := by
  unfold integerPower
  rw [if_neg (Nat.not_lt.mpr bounded), raiseOnto_multiply exactParts settings exact]
  rfl

/-- The power of an exact number is the exact power, unless the exponent is too large. -/
theorem raised_integerPower (settings : Preferences) (exact : x.IsGaussian) (exponent : ℕ) :
    Raised False (ofGaussian (x.gaussian ^ exponent)) (integerPower parts settings x exponent) := by
  by_cases bounded : (exponent : ℤ).natAbs ≤ largestExponent
  · rw [integerPower_of_bounded exactParts settings exact bounded, if_neg (by omega),
      Int.natAbs_natCast]
    exact .done
  · have refused : integerPower parts settings x exponent = .error .outOfMemory := by
      unfold integerPower
      rw [if_pos (Nat.not_le.mp bounded)]
      rfl
    rw [refused]
    exact .tooLarge

end Complex

/-! ## Arithmetic -/

namespace Arithmetic

open Value

variable {settings : Preferences}

/-- An operation is one over the operations of some level on the parts. -/
theorem exists_binaryOver (command : Command) (x y : Value) (settings : Preferences) :
    ∃ level, binary command x y settings =
      binaryOver (upTo settings (level + 1)) settings command x y :=
  ⟨max x.height y.height + 6, rfl⟩

/-- A function is one over the operations of some level on the parts. -/
theorem exists_unaryOver (command : Command) (x : Value) (settings : Preferences) :
    ∃ level, unary command x settings = unaryOver (upTo settings (level + 1)) settings command x :=
  ⟨x.height + 6, rfl⟩

/-- Whether a command is a sum, a difference, a product or a power. -/
def combinesNumbers : Command → Bool
  | .add | .subtract | .multiply | .power => true
  | _ => false

/-- Sums, differences, products and powers of exact numbers are those of numbers. -/
theorem binaryOver_gaussian (parts : Operations) (settings : Preferences) {command : Command}
    (combines : combinesNumbers command = true) {x y : Value} (left : x.IsGaussian)
    (right : y.IsGaussian) :
    binaryOver parts settings command x y = numberBinary parts settings command x y := by
  cases left <;> cases right <;> cases command <;>
    first | rfl | cases combines

/-- An operation on exact numbers of which one is complex is that on complex numbers. -/
theorem numberBinary_complex (parts : Operations) (settings : Preferences) (command : Command)
    {x y : Value} (left : x.IsGaussian) (right : y.IsGaussian)
    (complex : x.isReal = false ∨ y.isReal = false) :
    numberBinary parts settings command x y = Complex.binary parts settings command x y := by
  cases left with
  | real =>
    cases right with
    | real => rcases complex with none | none <;> cases none
    | complex => rfl
  | complex => cases right <;> rfl

/-- A power of a complex number with an integer exponent is made by multiplication. -/
theorem binary_power_complex {a b : Real} (exactFirst : a.isExact = true)
    (exactSecond : b.isExact = true) (settings : Preferences) (exponent : ℤ) :
    ∃ level, binary .power (.complex .rectangular (.real a) (.real b)) (.ofInt exponent) settings =
      Complex.integerPower (upTo settings (level + 1)) settings
        (.complex .rectangular (.real a) (.real b)) exponent := by
  have base : IsGaussian (.complex .rectangular (.real a) (.real b)) :=
    .complex a b exactFirst exactSecond
  obtain ⟨level, start⟩ := exists_binaryOver .power (.complex .rectangular (.real a) (.real b))
    (.ofInt exponent) settings
  have whole : (Value.ofInt exponent).toInt? = some exponent := Real.toInt?_ofInt _
  refine ⟨level, ?_⟩
  rw [start, binaryOver_gaussian _ _ rfl base (isGaussian_ofInt exponent),
    numberBinary_complex _ _ _ base (isGaussian_ofInt exponent) (.inl rfl), Complex.binary,
    Complex.power, whole]

variable (symbolic : settings.numericalResults = false)
include symbolic

/-- The operations on exact real numbers find the exact result, at any level. -/
theorem upTo_binary_exact {command : Command} {operation : ℚ → ℚ → ℚ}
    (known : command.rational? = some operation) (level : ℕ) {a b : Real}
    (first : a.isExact = true) (second : b.isExact = true) :
    (upTo settings (level + 1)).binary command (.real a) (.real b) =
      (exactResult command operation a.rational b.rational).map .real := by
  have start : (upTo settings (level + 1)).binary command (.real a) (.real b) =
      (a.operate command b settings).map .real := by
    show binaryOver (upTo settings level) settings command (.real a) (.real b) = _
    generalize upTo settings level = parts
    cases command <;> simp only [Command.rational?, reduceCtorEq] at known <;> rfl
  rw [start, Real.operate_eq known (Real.rational?_of_isExact first)
    (Real.rational?_of_isExact second) symbolic]

/-- Those that never divide always have one. -/
theorem upTo_binary_real {command : Command} {operation : ℚ → ℚ → ℚ}
    (known : command.rational? = some operation) (total : command.divides = false) (level : ℕ)
    {a b : Real} (first : a.isExact = true) (second : b.isExact = true) :
    (upTo settings (level + 1)).binary command (.real a) (.real b) =
      .ok (.real (.ofRational (operation a.rational b.rational))) := by
  rw [upTo_binary_exact symbolic known level first second, exactResult, if_neg (by simp [total])]
  rfl

/-- The opposite of an exact real number, at any level. -/
theorem upTo_negate_real (level : ℕ) {a : Real} (exact : a.isExact = true) :
    (upTo settings (level + 1)).unary .negate (.real a) =
      .ok (.real (.ofRational (-a.rational))) := by
  refine (unaryOver_real (upTo settings level) settings (show realEverywhere .negate = true from rfl)
    a).trans ?_
  rw [Real.apply_negate_exact symbolic exact]
  rfl

/-- All levels are exact on exact parts. -/
theorem exactParts_upTo (level : ℕ) : Complex.ExactParts (upTo settings (level + 1)) where
  add first second := upTo_binary_real symbolic rfl rfl level first second
  subtract first second := upTo_binary_real symbolic rfl rfl level first second
  multiply first second := upTo_binary_real symbolic rfl rfl level first second
  negate exact := upTo_negate_real symbolic level exact

variable {x y : Value}

/-- An exact operation on exact numbers is that on real numbers or that on complex ones. -/
theorem binary_gaussian {command : Command} {operation : ℚ → ℚ → ℚ}
    (known : command.rational? = some operation) (total : command.divides = false)
    (combines : combinesNumbers command = true) (left : x.IsGaussian) (right : y.IsGaussian)
    {z : Value}
    (real : ∀ a b : Real, x = .real a → y = .real b →
      .real (.ofRational (operation a.rational b.rational)) = z)
    (complex : ∀ level, Complex.binary (upTo settings (level + 1)) settings command x y = .ok z) :
    binary command x y settings = .ok z := by
  obtain ⟨level, start⟩ := exists_binaryOver command x y settings
  cases left with
  | real a exactA =>
    cases right with
    | real b exactB =>
      rw [start, ← real a b rfl rfl]
      exact upTo_binary_real symbolic known total (level + 1) exactA exactB
    | complex c d exactC exactD =>
      rw [start, binaryOver_gaussian _ _ combines (.real a exactA) (.complex c d exactC exactD),
        numberBinary_complex _ _ _ (.real a exactA) (.complex c d exactC exactD) (.inr rfl)]
      exact complex level
  | complex a b exactA exactB =>
    rw [start, binaryOver_gaussian _ _ combines (.complex a b exactA exactB) right,
      numberBinary_complex _ _ _ (.complex a b exactA exactB) right (.inl rfl)]
    exact complex level

/-- The sum of exact numbers is the exact sum. -/
theorem binary_add (left : x.IsGaussian) (right : y.IsGaussian) :
    binary .add x y settings = .ok (ofGaussian (x.gaussian + y.gaussian)) := by
  refine binary_gaussian symbolic rfl rfl rfl left right ?_ fun level =>
    Complex.combine_add (exactParts_upTo symbolic level) left right
  rintro a b rfl rfl
  have real : (gaussian (.real a) + gaussian (.real b)).im = 0 := add_zero 0
  rw [ofGaussian_of_im_eq_zero real]
  rfl

/-- The difference of exact numbers is the exact difference. -/
theorem binary_subtract (left : x.IsGaussian) (right : y.IsGaussian) :
    binary .subtract x y settings = .ok (ofGaussian (x.gaussian - y.gaussian)) := by
  refine binary_gaussian symbolic rfl rfl rfl left right ?_ fun level =>
    Complex.combine_subtract (exactParts_upTo symbolic level) left right
  rintro a b rfl rfl
  have real : (gaussian (.real a) - gaussian (.real b)).im = 0 := sub_zero 0
  rw [ofGaussian_of_im_eq_zero real]
  rfl

/-- The product of exact numbers is the exact product. -/
theorem binary_multiply (left : x.IsGaussian) (right : y.IsGaussian) :
    binary .multiply x y settings = .ok (ofGaussian (x.gaussian * y.gaussian)) := by
  refine binary_gaussian symbolic rfl rfl rfl left right ?_ fun level =>
    Complex.multiply_exact (exactParts_upTo symbolic level) settings left right
  rintro a b rfl rfl
  rw [gaussian, gaussian, GaussianRational.rational_mul, ofGaussian_of_im_eq_zero rfl]

/-- The opposite of an exact number is the exact opposite. -/
theorem unary_negate (exact : x.IsGaussian) :
    unary .negate x settings = .ok (ofGaussian (-x.gaussian)) := by
  obtain ⟨level, start⟩ := exists_unaryOver .negate x settings
  cases exact with
  | real a exact =>
    have real : (-gaussian (.real a)).im = 0 := neg_zero
    rw [ofGaussian_of_im_eq_zero real, start]
    exact upTo_negate_real symbolic (level + 1) exact
  | complex a b exactA exactB =>
    have parted : unaryOver (upTo settings (level + 1)) settings .negate
        (.complex .rectangular (.real a) (.real b)) =
          ((upTo settings (level + 1)).unary .negate (.real a) >>= fun re =>
            (upTo settings (level + 1)).unary .negate (.real b) >>= fun im =>
              .ok (Complex.rectangular re im)) := rfl
    rw [start, parted, upTo_negate_real symbolic level exactA, upTo_negate_real symbolic level exactB]
    rfl

/-- The square of an exact number is the exact square. -/
theorem unary_square (exact : x.IsGaussian) :
    unary .square x settings = .ok (ofGaussian (x.gaussian ^ 2)) := by
  obtain ⟨level, start⟩ := exists_unaryOver .square x settings
  rw [start]
  cases exact with
  | real a exact =>
    rw [unaryOver_real _ _ rfl, Real.apply_square_exact symbolic exact, gaussian,
      GaussianRational.rational_pow, ofGaussian_of_im_eq_zero rfl]
    rfl
  | complex a b exactA exactB =>
    rw [sq]
    exact Complex.multiply_exact (exactParts_upTo symbolic level) settings
      (.complex a b exactA exactB) (.complex a b exactA exactB)

/-- The cube of an exact number is the exact cube. -/
theorem unary_cube (exact : x.IsGaussian) :
    unary .cube x settings = .ok (ofGaussian (x.gaussian ^ 3)) := by
  obtain ⟨level, start⟩ := exists_unaryOver .cube x settings
  rw [start]
  cases exact with
  | real a exact =>
    rw [unaryOver_real _ _ rfl, Real.apply_cube_exact symbolic exact, gaussian,
      GaussianRational.rational_pow, ofGaussian_of_im_eq_zero rfl]
    rfl
  | complex a b exactA exactB =>
    have multiplied {u v : Value} (left : u.IsGaussian) (right : v.IsGaussian) :=
      Complex.multiply_exact (exactParts_upTo symbolic level) settings left right
    have base : IsGaussian (.complex .rectangular (.real a) (.real b)) :=
      .complex a b exactA exactB
    have cubed : unaryOver (upTo settings (level + 1)) settings .cube
        (.complex .rectangular (.real a) (.real b)) =
          (Complex.multiply (upTo settings (level + 1)) settings
            (.complex .rectangular (.real a) (.real b))
            (.complex .rectangular (.real a) (.real b)) >>= fun square =>
              Complex.multiply (upTo settings (level + 1)) settings square
                (.complex .rectangular (.real a) (.real b))) := rfl
    rw [cubed, multiplied base base, pow_succ, sq]
    refine (multiplied (isGaussian_ofGaussian _) base).trans ?_
    rw [gaussian_ofGaussian]

/-- The power of an exact number with a natural exponent is the exact power, unless zero is raised
to zero or the power is too large. -/
theorem raised_binary_power (base : x.IsGaussian) (exponent : ℕ) :
    Raised (x = .ofInt 0 ∧ exponent = 0) (ofGaussian (x.gaussian ^ exponent))
      (binary .power x (.ofInt exponent) settings) := by
  cases base with
  | real a exact =>
    have zero (none : a.rational = 0) : Value.real a = .ofInt 0 := by
      rw [← Real.ofRational_rational exact, none]
      rfl
    rw [binary_power_integer, gaussian, GaussianRational.rational_pow, ofGaussian_of_im_eq_zero rfl]
    exact ((Real.raised_operate (Real.rational?_of_isExact exact) exponent symbolic).map _).imp
      fun indeed => ⟨zero indeed.1, indeed.2⟩
  | complex a b exactA exactB =>
    obtain ⟨level, powered⟩ := binary_power_complex exactA exactB settings exponent
    rw [powered]
    exact (Complex.raised_integerPower (exactParts_upTo symbolic level) settings
      (.complex a b exactA exactB) exponent).imp False.elim

end Arithmetic

end Calculator
