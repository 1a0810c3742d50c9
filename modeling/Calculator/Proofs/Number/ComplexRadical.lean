import Calculator.Proofs.Number.Field
import Calculator.Proofs.Number.Radical
import Mathlib

/-!
# Exact square roots of complex numbers

The square root of a complex number is put together from the roots of the half sum and of the half
difference of its modulus and its real part. Where all three roots are rational, the square of what
they make is the number again, in every quadrant and on both axes. Conversely, where the number is the
square of a Gaussian rational number, all three roots are rational, so no exact root is missed.
-/

namespace Calculator

/-! ## Principal roots -/

namespace GaussianRational

variable {z w : GaussianRational}

/-- Whether a number is the one of the two square roots of its square that is taken: the one to the
right of the imaginary axis, or on its upper half. -/
def Principal (z : GaussianRational) : Prop := 0 < z.re ∨ z.re = 0 ∧ 0 ≤ z.im

/-- A principal number has no negative real part. -/
theorem Principal.re_nonneg (principal : z.Principal) : 0 ≤ z.re := by
  rcases principal with positive | ⟨zero, -⟩
  · exact positive.le
  · exact zero.ge

/-- The parts of a square. -/
theorem mul_self_eq_iff : z * z = w ↔ z.re ^ 2 - z.im ^ 2 = w.re ∧ 2 * z.re * z.im = w.im := by
  rw [QuadraticAlgebra.ext_iff, QuadraticAlgebra.re_mul, QuadraticAlgebra.im_mul]
  constructor <;> rintro ⟨real, imaginary⟩ <;> constructor <;> linarith

/-- The principal square root of a real number that is not below zero is real. -/
theorem principal_root_of_nonneg {p : ℚ} (nonneg : 0 ≤ p) :
    (z.Principal ∧ z * z = ⟨p, 0⟩) ↔ ∃ r : ℚ, 0 ≤ r ∧ r ^ 2 = p ∧ z = ⟨r, 0⟩ := by
  rw [mul_self_eq_iff]
  constructor
  · rintro ⟨principal, real, imaginary⟩
    dsimp only at real imaginary
    have axis : z.im = 0 := by
      by_contra off
      have right : z.re = 0 := by simpa [off] using imaginary
      have positive : 0 < z.im ^ 2 := by positivity
      rw [right] at real
      linarith
    refine ⟨z.re, principal.re_nonneg, ?_, QuadraticAlgebra.ext rfl axis⟩
    rw [axis] at real
    linarith
  · rintro ⟨r, above, square, rfl⟩
    refine ⟨above.lt_or_eq.imp_right fun zero => ⟨zero.symm, le_rfl⟩, ?_, ?_⟩ <;> dsimp only <;>
      linarith

/-- The principal square root of a real number below zero is on the upper imaginary axis. -/
theorem principal_root_of_neg {p : ℚ} (negative : p < 0) :
    (z.Principal ∧ z * z = ⟨p, 0⟩) ↔ ∃ t : ℚ, 0 ≤ t ∧ t ^ 2 = -p ∧ z = ⟨0, t⟩ := by
  rw [mul_self_eq_iff]
  constructor
  · rintro ⟨principal, real, imaginary⟩
    dsimp only at real imaginary
    have right : z.re = 0 := by
      by_contra off
      have axis : z.im = 0 := by simpa [off] using imaginary
      have positive : 0 < z.re ^ 2 := by positivity
      rw [axis] at real
      linarith
    have above : 0 ≤ z.im := by
      rcases principal with positive | ⟨-, above⟩
      · exact absurd right positive.ne'
      · exact above
    refine ⟨z.im, above, ?_, QuadraticAlgebra.ext right rfl⟩
    rw [right] at real
    linarith
  · rintro ⟨t, above, square, rfl⟩
    refine ⟨.inr ⟨rfl, above⟩, ?_, ?_⟩ <;> dsimp only <;> linarith

/-- The imaginary part of a square root: the root of the half difference, with the sign of the
imaginary part of the square. -/
def signed (b t : ℚ) : ℚ := if b < 0 then -t else t

/-- The roots of the half sum and of the half difference of the modulus and the real part make the
principal square root. -/
theorem square_of_halves {m s t : ℚ} (modulus : m ^ 2 = w.re * w.re + w.im * w.im) (right : 0 ≤ s)
    (above : 0 ≤ t) (halfSum : s ^ 2 = (m + w.re) / 2) (halfDifference : t ^ 2 = (m - w.re) / 2) :
    Principal ⟨s, signed w.im t⟩ ∧ (⟨s, signed w.im t⟩ * ⟨s, signed w.im t⟩ : GaussianRational) = w := by
  have squared : (2 * s * t) ^ 2 = w.im ^ 2 := by
    calc (2 * s * t) ^ 2
      _ = 4 * s ^ 2 * t ^ 2 := by ring
      _ = m ^ 2 - w.re ^ 2 := by rw [halfSum, halfDifference]; ring
      _ = w.im ^ 2 := by rw [modulus]; ring
  have product : 2 * s * t = |w.im| := by
    rw [← abs_of_nonneg (by positivity : 0 ≤ 2 * s * t)]
    exact (sq_eq_sq_iff_abs_eq_abs _ _).mp squared
  have real : s ^ 2 - signed w.im t ^ 2 = w.re := by
    have same : signed w.im t ^ 2 = t ^ 2 := by
      unfold signed
      split <;> ring
    rw [same, halfSum, halfDifference]
    ring
  have imaginary : 2 * s * signed w.im t = w.im := by
    unfold signed
    split
    · rename_i negative
      rw [abs_of_neg negative] at product
      linarith
    · rename_i nonneg
      rwa [abs_of_nonneg (not_lt.mp nonneg)] at product
  refine ⟨?_, mul_self_eq_iff.mpr ⟨real, imaginary⟩⟩
  rcases right.lt_or_eq with positive | zero
  · exact .inl positive
  · -- On the imaginary axis the square is real, so no sign is put in front of the root.
    have axis : ¬ w.im < 0 := by
      rw [← zero, mul_zero, zero_mul] at imaginary
      exact imaginary.not_gt
    exact .inr ⟨zero.symm, by rwa [signed, if_neg axis]⟩

/-- A principal number has the root of the half sum of its square for its real part, and the root of
the half difference for its imaginary part. -/
theorem halves_of_square (principal : z.Principal) (square : z * z = w) :
    ∃ m s t : ℚ, 0 ≤ m ∧ m ^ 2 = w.re * w.re + w.im * w.im ∧ 0 ≤ s ∧ s ^ 2 = (m + w.re) / 2 ∧
      0 ≤ t ∧ t ^ 2 = (m - w.re) / 2 ∧ z = ⟨s, signed w.im t⟩ := by
  obtain ⟨real, imaginary⟩ := mul_self_eq_iff.mp square
  refine ⟨z.re ^ 2 + z.im ^ 2, z.re, |z.im|, by positivity, ?_, principal.re_nonneg, ?_,
    abs_nonneg _, ?_, QuadraticAlgebra.ext rfl ?_⟩
  · rw [← real, ← imaginary]
    ring
  · rw [← real]
    ring
  · rw [sq_abs, ← real]
    ring
  · show z.im = signed w.im |z.im|
    rw [signed, ← imaginary]
    rcases principal with positive | ⟨zero, above⟩
    · split
      · rename_i negative
        have below : z.im < 0 := by
          by_contra above
          exact negative.not_ge (mul_nonneg (by positivity) (not_lt.mp above))
        rw [abs_of_neg below, neg_neg]
      · rename_i nonneg
        have above : 0 ≤ z.im := (mul_nonneg_iff_of_pos_left (by positivity)).mp (not_lt.mp nonneg)
        rw [abs_of_nonneg above]
    · rw [zero, mul_zero, zero_mul, if_neg (lt_irrefl _), abs_of_nonneg above]

end GaussianRational

/-! ## Exact parts -/

namespace Value

/-- Whether a number is exact in all its parts, in whatever form it is given. -/
def AllExact : Value → Prop
  | .real x => x.isExact = true
  | .complex _ first second => first.AllExact ∧ second.AllExact
  | _ => False

/-- An exact number is so in all its parts. -/
theorem IsGaussian.allExact {x : Value} (exact : x.IsGaussian) : x.AllExact := by
  cases exact with
  | real a exact => exact exact
  | complex a b first second => exact ⟨first, second⟩

/-- A rectangular number is exact in all its parts if both parts are. -/
theorem allExact_rectangular (re im : Value) :
    (Complex.rectangular re im).AllExact ↔ re.AllExact ∧ im.AllExact := by
  unfold Complex.rectangular
  split
  · rename_i zero
    refine (and_iff_left ?_).symm
    obtain ⟨-, exact⟩ := Bool.and_eq_true_iff.mp zero
    cases im with
    | real x => exact exact
    | _ => cases exact
  · rfl

end Value

namespace Real

variable {settings : Preferences} {h : Rounded} {z : Real}

/-- The square root of a decimal is a decimal. -/
theorem isExact_apply_squareRoot (done : (decimal h).apply .squareRoot settings = .ok z) :
    z.isExact = false := by
  obtain ⟨root, rooted, same⟩ := Outcome.bind_eq_ok.mp done
  obtain rfl := Except.ok.inj same
  obtain ⟨value, -, same⟩ := Outcome.bind_eq_ok.mp rooted
  obtain rfl := Except.ok.inj same
  rfl

end Real

/-- The steps to the square root of a rectangular number. -/
theorem Complex.squareRoot_rectangular (parts : Operations) (settings : Preferences) (a b : Value) :
    Complex.squareRoot parts settings (.complex .rectangular a b) =
      (Complex.modulus parts a b >>= fun m =>
        parts.binary .add m a >>= fun sum =>
        parts.binary .divide sum (.ofInt 2) >>= fun reSquared =>
        parts.binary .subtract m a >>= fun difference =>
        parts.binary .divide difference (.ofInt 2) >>= fun imSquared =>
        parts.unary .squareRoot reSquared >>= fun re =>
        parts.unary .squareRoot imSquared >>= fun im =>
        if b.isNegative then parts.unary .negate im >>= fun im => .ok (Complex.rectangular re im)
        else .ok (Complex.rectangular re im)) := rfl

/-! ## Arithmetic -/

namespace Arithmetic

open Value GaussianRational

variable {parts : Operations} {settings : Preferences} {x y z : Value}

/-- The square root of a real number below zero is that of the opposite number, on the imaginary
axis. -/
theorem unaryOver_squareRoot_negative {a : Real} (negative : a.isNegative = true) :
    unaryOver parts settings .squareRoot (.real a) =
      (a.negated.apply .squareRoot settings).map fun root =>
        Complex.rectangular (.ofInt 0) (.real root) := by
  simp only [unaryOver, numberUnary, realUnary, negative]
  rfl

/-- The square root of a decimal, which is complex below zero, is not exact. -/
theorem not_allExact_squareRoot {h : Rounded}
    (done : unaryOver parts settings .squareRoot (.real (.decimal h)) = .ok z) : ¬ z.AllExact := by
  intro exact
  cases negative : (Real.decimal h).isNegative with
  | false =>
    rw [unaryOver_nonneg negative] at done
    obtain ⟨root, applied, rfl⟩ := Outcome.map_eq_ok.mp done
    exact Bool.false_ne_true ((Real.isExact_apply_squareRoot applied).symm.trans exact)
  | true =>
    rw [unaryOver_squareRoot_negative negative] at done
    obtain ⟨root, applied, rfl⟩ := Outcome.map_eq_ok.mp done
    have imaginary : root.isExact = true := ((allExact_rectangular _ _).mp exact).2
    exact Bool.false_ne_true ((Real.isExact_apply_squareRoot applied).symm.trans imaginary)

section Symbolic

variable (symbolic : settings.numericalResults = false)
include symbolic

/-- The square root of an exact number that is not below zero is exact if there is a rational one. -/
theorem unaryOver_squareRoot_exact_iff (parts : Operations) {a : Real} (exact : a.isExact = true)
    (nonneg : 0 ≤ a.rational) (z : Value) :
    (unaryOver parts settings .squareRoot (.real a) = .ok z ∧ z.AllExact) ↔
      ∃ r : ℚ, 0 ≤ r ∧ r ^ 2 = a.rational ∧ z = .real (.ofRational r) := by
  have denotes := Real.rational?_of_isExact exact
  rw [unaryOver_nonneg (Real.isNegative_of_nonneg denotes nonneg)]
  constructor
  · rintro ⟨done, exact⟩
    obtain ⟨root, applied, rfl⟩ := Outcome.map_eq_ok.mp done
    obtain ⟨r, above, square, rfl⟩ :=
      (Real.apply_squareRoot_exact_iff denotes symbolic).mp ⟨applied, exact⟩
    exact ⟨r, above, square, rfl⟩
  · rintro ⟨r, above, square, rfl⟩
    obtain ⟨applied, exact⟩ :=
      (Real.apply_squareRoot_exact_iff denotes symbolic).mpr ⟨r, above, square, rfl⟩
    exact ⟨Outcome.map_eq_ok.mpr ⟨_, applied, rfl⟩, exact⟩

/-- The square root of an exact real number is exact if the number is the square of a Gaussian
rational number, and then it is the principal one. -/
theorem unaryOver_squareRoot_real_iff {a : Real} (exact : a.isExact = true) (y : Value) :
    (unaryOver parts settings .squareRoot (.real a) = .ok y ∧ y.AllExact) ↔
      ∃ z : GaussianRational, (z.Principal ∧ z * z = ⟨a.rational, 0⟩) ∧ y = ofGaussian z := by
  have denotes := Real.rational?_of_isExact exact
  rcases le_or_gt 0 a.rational with nonneg | negative
  · rw [unaryOver_squareRoot_exact_iff symbolic parts exact nonneg]
    simp only [principal_root_of_nonneg nonneg]
    constructor
    · rintro ⟨r, above, square, rfl⟩
      exact ⟨⟨r, 0⟩, ⟨r, above, square, rfl⟩, (ofGaussian_of_im_eq_zero (z := ⟨r, 0⟩) rfl).symm⟩
    · rintro ⟨z, ⟨r, above, square, rfl⟩, rfl⟩
      exact ⟨r, above, square, ofGaussian_of_im_eq_zero rfl⟩
  · have below : a.isNegative = true := by
      rw [Real.isNegative_eq denotes]
      exact decide_eq_true negative
    have opposite : (a.negated).rational? = some (-a.rational) := by
      rw [Real.rational?_eq_some_iff, ← Real.negated_ofRational, Real.ofRational_rational exact]
    have zero : ofInt 0 = .real (.ofRational 0) := by
      rw [ofInt, ← Real.ofRational_intCast, Int.cast_zero]
    rw [unaryOver_squareRoot_negative below, zero]
    simp only [principal_root_of_neg negative]
    constructor
    · rintro ⟨done, all⟩
      obtain ⟨root, applied, rfl⟩ := Outcome.map_eq_ok.mp done
      obtain ⟨t, above, square, rfl⟩ := (Real.apply_squareRoot_exact_iff opposite symbolic).mp
        ⟨applied, ((allExact_rectangular _ _).mp all).2⟩
      exact ⟨⟨0, t⟩, ⟨t, above, square, rfl⟩, rfl⟩
    · rintro ⟨z, ⟨t, above, square, rfl⟩, rfl⟩
      obtain ⟨applied, -⟩ := (Real.apply_squareRoot_exact_iff opposite symbolic).mpr
        ⟨t, above, square, rfl⟩
      exact ⟨Outcome.map_eq_ok.mpr ⟨_, applied, rfl⟩, (isGaussian_ofGaussian _).allExact⟩

section Parts

variable (level : ℕ) {a b : Real} (exactA : a.isExact = true) (exactB : b.isExact = true)

include exactB in
/-- The imaginary part of a square root is exact if the root of the half difference is. -/
theorem signedRoot_exact_iff {q : ℚ} (nonneg : 0 ≤ q) (y : Value) :
    (((upTo settings (level + 1)).unary .squareRoot (.real (.ofRational q)) >>= fun im =>
        if b.isNegative then (upTo settings (level + 1)).unary .negate im else .ok im) = .ok y ∧
      y.AllExact) ↔
      ∃ t : ℚ, 0 ≤ t ∧ t ^ 2 = q ∧ y = .real (.ofRational (signed b.rational t)) := by
  have roots := unaryOver_squareRoot_exact_iff symbolic (upTo settings level)
    (Real.isExact_ofRational q) (by rwa [Real.rational_ofRational])
  rw [Real.rational_ofRational] at roots
  have sign : b.isNegative = decide (b.rational < 0) :=
    Real.isNegative_eq (Real.rational?_of_isExact exactB)
  have negate (t : ℚ) : (upTo settings (level + 1)).unary .negate (.real (.ofRational t)) =
      .ok (.real (.ofRational (-t))) := by
    rw [upTo_negate_real symbolic level (Real.isExact_ofRational t), Real.rational_ofRational]
  unfold signed
  rw [sign]
  constructor
  · rintro ⟨done, all⟩
    obtain ⟨im, rooted, signed⟩ := Outcome.bind_eq_ok.mp done
    obtain ⟨root, -, rfl⟩ := Outcome.map_eq_ok.mp
      ((unaryOver_nonneg (Real.isNegative_of_nonneg (Real.rational?_ofRational q) nonneg)).symm.trans
        rooted)
    by_cases negative : b.rational < 0
    · rw [if_pos (decide_eq_true negative)] at signed
      have opposite := (unaryOver_real (upTo settings level) settings
        (show realEverywhere .negate = true from rfl) root).symm.trans signed
      obtain ⟨_, applied, rfl⟩ := Outcome.map_eq_ok.mp opposite
      obtain rfl := Except.ok.inj applied
      have exact : root.isExact = true := by
        rwa [AllExact, Real.finished_eq symbolic, Real.isExact_negated] at all
      obtain ⟨t, above, square, same⟩ := (roots _).mp ⟨rooted, exact⟩
      obtain rfl := Value.real.inj same
      refine ⟨t, above, square, ?_⟩
      rw [if_pos negative, Real.finished_eq symbolic, Real.negated_ofRational]
    · rw [if_neg (by simpa using negative)] at signed
      obtain rfl := Except.ok.inj signed
      simpa only [if_neg negative] using (roots _).mp ⟨rooted, all⟩
  · rintro ⟨t, above, square, rfl⟩
    obtain ⟨rooted, exact⟩ := (roots _).mpr ⟨t, above, square, rfl⟩
    refine ⟨Outcome.bind_eq_ok.mpr ⟨_, rooted, ?_⟩, Real.isExact_ofRational _⟩
    by_cases negative : b.rational < 0
    · rw [if_pos (decide_eq_true negative), if_pos negative, negate]
    · rw [if_neg (by simpa using negative), if_neg negative]

include exactA exactB

/-- The modulus of an exact number is the root of the sum of the squares. -/
theorem modulus_exact :
    Complex.modulus (upTo settings (level + 1)) (.real a) (.real b) =
      (upTo settings (level + 1)).unary .squareRoot
        (.real (.ofRational (a.rational * a.rational + b.rational * b.rational))) :=
  Complex.denominator_exact (exactParts_upTo symbolic level) exactA exactB _

/-- With a rational modulus the halves are exact, and what is left of the square root are the roots
of these. -/
theorem squareRoot_of_modulus {r : ℚ} (nonneg : 0 ≤ r)
    (modulus : r ^ 2 = a.rational * a.rational + b.rational * b.rational) :
    Complex.squareRoot (upTo settings (level + 1)) settings
        (.complex .rectangular (.real a) (.real b)) =
      ((upTo settings (level + 1)).unary .squareRoot (.real (.ofRational ((r + a.rational) / 2))) >>=
        fun re => ((upTo settings (level + 1)).unary .squareRoot
            (.real (.ofRational ((r - a.rational) / 2))) >>= fun im =>
          if b.isNegative then (upTo settings (level + 1)).unary .negate im else .ok im) >>=
        fun im => .ok (Complex.rectangular re im)) := by
  have squares : (Real.ofRational (a.rational * a.rational + b.rational * b.rational)).rational =
      r ^ 2 := by rw [Real.rational_ofRational, modulus]
  obtain ⟨rooted, -⟩ := (unaryOver_squareRoot_exact_iff symbolic (upTo settings level)
    (Real.isExact_ofRational _) (by rw [squares]; positivity) _).mpr ⟨r, nonneg, squares.symm, rfl⟩
  have length : Complex.modulus (upTo settings (level + 1)) (.real a) (.real b) =
      .ok (.real (.ofRational r)) := (modulus_exact symbolic level exactA exactB).trans rooted
  have exactParts := exactParts_upTo symbolic level
  have half (q : ℚ) : (upTo settings (level + 1)).binary .divide (.real (.ofRational q)) (.ofInt 2) =
      .ok (.real (.ofRational (q / 2))) := by
    have two : ((Real.ofInt 2).isExact = true) ∧ (Real.ofInt 2).rational = 2 := by
      rw [← Real.ofRational_intCast, Real.rational_ofRational]
      exact ⟨Real.isExact_ofRational _, rfl⟩
    rw [ofInt, exactQuotients_upTo symbolic level (Real.isExact_ofRational q) two.1
      (by rw [two.2]; exact two_ne_zero), two.2, Real.rational_ofRational]
  rw [Complex.squareRoot_rectangular, length, Outcome.ok_bind,
    exactParts.add (Real.isExact_ofRational _) exactA, Outcome.ok_bind, half, Outcome.ok_bind,
    exactParts.subtract (Real.isExact_ofRational _) exactA, Outcome.ok_bind, half, Outcome.ok_bind,
    Real.rational_ofRational]
  simp only [bind_assoc]
  -- The sign is given in a step of its own, so the last step follows in both cases.
  refine bind_congr fun re => bind_congr fun im => ?_
  show (if b.isNegative then _ else _) = _
  split <;> rfl

/-- If the square root is exact, the modulus is rational: otherwise it is a decimal, and so are the
half sum and its root. -/
theorem rational_modulus {y : Value} (all : y.AllExact)
    (done : Complex.squareRoot (upTo settings (level + 1)) settings
      (.complex .rectangular (.real a) (.real b)) = .ok y) :
    ∃ r : ℚ, 0 ≤ r ∧ r ^ 2 = a.rational * a.rational + b.rational * b.rational := by
  rw [Complex.squareRoot_rectangular] at done
  obtain ⟨m, measured, rest⟩ := Outcome.bind_eq_ok.mp done
  obtain ⟨sum, added, rest⟩ := Outcome.bind_eq_ok.mp rest
  obtain ⟨reSquared, halved, rest⟩ := Outcome.bind_eq_ok.mp rest
  obtain ⟨difference, -, rest⟩ := Outcome.bind_eq_ok.mp rest
  obtain ⟨imSquared, -, rest⟩ := Outcome.bind_eq_ok.mp rest
  obtain ⟨re, rooted, rest⟩ := Outcome.bind_eq_ok.mp rest
  obtain ⟨im, -, rest⟩ := Outcome.bind_eq_ok.mp rest
  obtain ⟨im', rfl⟩ : ∃ im', y = Complex.rectangular re im' := by
    split at rest
    · obtain ⟨opposite, -, same⟩ := Outcome.bind_eq_ok.mp rest
      exact ⟨opposite, (Except.ok.inj same).symm⟩
    · exact ⟨im, (Except.ok.inj rest).symm⟩
  have exactRe : re.AllExact := ((allExact_rectangular re im').mp all).1
  have squares : 0 ≤ (Real.ofRational (a.rational * a.rational + b.rational * b.rational)).rational := by
    rw [Real.rational_ofRational]
    nlinarith only [mul_self_nonneg a.rational, mul_self_nonneg b.rational]
  rw [modulus_exact symbolic level exactA exactB] at measured
  obtain ⟨root, -, rfl⟩ := Outcome.map_eq_ok.mp ((unaryOver_nonneg
    (Real.isNegative_of_nonneg (Real.rational?_of_isExact (Real.isExact_ofRational _))
      squares)).symm.trans measured)
  have arithmetic := level_upTo settings (level + 1)
  cases exact : root.isExact with
  | true =>
    obtain ⟨r, nonneg, modulus, -⟩ := (unaryOver_squareRoot_exact_iff symbolic
      (upTo settings level) (Real.isExact_ofRational _) squares _).mp ⟨measured, exact⟩
    exact ⟨r, nonneg, by rwa [Real.rational_ofRational] at modulus⟩
  | false =>
    obtain ⟨h, rfl⟩ : ∃ h, root = .decimal h := by
      cases root with
      | decimal h => exact ⟨h, rfl⟩
      | _ => cases exact
    obtain ⟨_, rfl, summed⟩ := arithmetic.binary rfl added
    obtain ⟨_, rfl⟩ := Real.decimal_operate (.inl ⟨h, rfl⟩) summed
    obtain ⟨_, rfl, divided⟩ := arithmetic.binary rfl halved
    obtain ⟨_, rfl⟩ := Real.decimal_operate (.inl ⟨_, rfl⟩) divided
    exact absurd exactRe (not_allExact_squareRoot rooted)

/-- The square root of an exact complex number is exact if the number is the square of a Gaussian
rational number, and then it is the principal one. -/
theorem squareRoot_complex_iff (y : Value) :
    (Complex.squareRoot (upTo settings (level + 1)) settings
        (.complex .rectangular (.real a) (.real b)) = .ok y ∧ y.AllExact) ↔
      ∃ z : GaussianRational, (z.Principal ∧ z * z = ⟨a.rational, b.rational⟩) ∧
        y = ofGaussian z := by
  -- Both sides need a rational modulus, whose half sum and half difference are not below zero.
  have halves {r : ℚ} (nonneg : 0 ≤ r)
      (modulus : r ^ 2 = a.rational * a.rational + b.rational * b.rational) :
      0 ≤ (r + a.rational) / 2 ∧ 0 ≤ (r - a.rational) / 2 := by
    have within : |a.rational| ≤ r := by
      refine abs_le_of_sq_le_sq ?_ nonneg
      rw [modulus]
      nlinarith only [mul_self_nonneg b.rational]
    obtain ⟨below, above⟩ := abs_le.mp within
    constructor <;> linarith
  have first {q : ℚ} (nonneg : 0 ≤ q) := unaryOver_squareRoot_exact_iff symbolic
    (upTo settings level) (Real.isExact_ofRational q)
    (by rwa [Real.rational_ofRational])
  constructor
  · rintro ⟨done, all⟩
    obtain ⟨r, nonneg, modulus⟩ := rational_modulus symbolic level exactA exactB all done
    obtain ⟨nonnegSum, nonnegDifference⟩ := halves nonneg modulus
    rw [squareRoot_of_modulus symbolic level exactA exactB nonneg modulus] at done
    obtain ⟨re, firstRoot, rest⟩ := Outcome.bind_eq_ok.mp done
    obtain ⟨im, secondRoot, same⟩ := Outcome.bind_eq_ok.mp rest
    obtain rfl := Except.ok.inj same
    obtain ⟨exactRe, exactIm⟩ := (allExact_rectangular re im).mp all
    obtain ⟨s, right, halfSum, rfl⟩ := (first nonnegSum re).mp ⟨firstRoot, exactRe⟩
    obtain ⟨t, above, halfDifference, rfl⟩ :=
      (signedRoot_exact_iff symbolic level exactB nonnegDifference im).mp ⟨secondRoot, exactIm⟩
    rw [Real.rational_ofRational] at halfSum
    exact ⟨_, square_of_halves (w := ⟨a.rational, b.rational⟩) modulus right above halfSum
      halfDifference, rfl⟩
  · rintro ⟨z, ⟨principal, square⟩, rfl⟩
    obtain ⟨r, s, t, nonneg, modulus, right, halfSum, above, halfDifference, rfl⟩ :=
      halves_of_square principal square
    obtain ⟨nonnegSum, nonnegDifference⟩ := halves nonneg modulus
    obtain ⟨firstRoot, -⟩ := (first nonnegSum _).mpr
      ⟨s, right, by rwa [Real.rational_ofRational], rfl⟩
    obtain ⟨secondRoot, -⟩ :=
      (signedRoot_exact_iff symbolic level exactB nonnegDifference _).mpr
        ⟨t, above, halfDifference, rfl⟩
    rw [squareRoot_of_modulus symbolic level exactA exactB nonneg modulus]
    exact ⟨Outcome.bind_eq_ok.mpr ⟨_, firstRoot, Outcome.bind_eq_ok.mpr ⟨_, secondRoot, rfl⟩⟩,
      (isGaussian_ofGaussian _).allExact⟩

end Parts

/-- The square root of an exact number is exact if the number is the square of a Gaussian rational
number, and then it is the principal one. -/
theorem unary_squareRoot_gaussian_iff (exact : x.IsGaussian) (y : Value) :
    (unary .squareRoot x settings = .ok y ∧ y.AllExact) ↔
      ∃ z : GaussianRational, (z.Principal ∧ z * z = x.gaussian) ∧ y = ofGaussian z := by
  obtain ⟨level, start⟩ := exists_unaryOver .squareRoot x settings
  rw [start]
  cases exact with
  | real a exact => exact unaryOver_squareRoot_real_iff symbolic exact y
  | complex a b exactA exactB => exact squareRoot_complex_iff symbolic level exactA exactB y

/-- Where the square root of an exact number, real or rectangular, is exact in all its parts, it is the
principal one and its square is the number, part by part. It is so wherever the number is the square of
a Gaussian rational number. -/
theorem squareRoot_squares_back (exact : x.IsGaussian) :
    (∀ y, unary .squareRoot x settings = .ok y → y.AllExact →
      y.IsGaussian ∧ y.gaussian.Principal ∧ 0 ≤ y.gaussian.re ∧
        binary .multiply y y settings = .ok (ofGaussian x.gaussian)) ∧
    ∀ z : GaussianRational, z.Principal → z * z = x.gaussian →
      unary .squareRoot x settings = .ok (ofGaussian z) := by
  constructor
  · intro y done all
    obtain ⟨z, ⟨principal, square⟩, rfl⟩ :=
      (unary_squareRoot_gaussian_iff symbolic exact y).mp ⟨done, all⟩
    have gaussian := isGaussian_ofGaussian z
    refine ⟨gaussian, ?_, ?_, ?_⟩
    · rwa [gaussian_ofGaussian]
    · rw [gaussian_ofGaussian]
      exact principal.re_nonneg
    · rw [binary_multiply symbolic gaussian gaussian, gaussian_ofGaussian, square]
  · intro z principal square
    exact ((unary_squareRoot_gaussian_iff symbolic exact _).mpr ⟨z, ⟨principal, square⟩, rfl⟩).1

end Symbolic

/-- The square root of a number in the third quadrant is in the fourth one and squares back. -/
theorem squareRoot_squares_back_third_quadrant :
    let number (p q : ℚ) := Value.complex .rectangular (.real (.ofRational p)) (.real (.ofRational q))
    unary .squareRoot (number (-5 / 36) (-1 / 3)) {} = .ok (number (1 / 3) (-1 / 2)) ∧
      binary .multiply (number (1 / 3) (-1 / 2)) (number (1 / 3) (-1 / 2)) {} =
        .ok (number (-5 / 36) (-1 / 3)) := by
  intro number
  have made {p q : ℚ} (off : q ≠ 0) : ofGaussian ⟨p, q⟩ = number p q := ofGaussian_of_im_ne_zero off
  have exact : (number (-5 / 36) (-1 / 3)).IsGaussian :=
    .complex _ _ (Real.isExact_ofRational _) (Real.isExact_ofRational _)
  have value : (number (-5 / 36) (-1 / 3)).gaussian = ⟨-5 / 36, -1 / 3⟩ := by
    simp only [number, gaussian, Real.rational_ofRational]
  have square : (⟨1 / 3, -1 / 2⟩ * ⟨1 / 3, -1 / 2⟩ : GaussianRational) = ⟨-5 / 36, -1 / 3⟩ := by
    rw [mul_self_eq_iff]
    norm_num
  have symbolic : ({} : Preferences).numericalResults = false := rfl
  obtain ⟨back, found⟩ := squareRoot_squares_back symbolic exact
  have root := found ⟨1 / 3, -1 / 2⟩ (.inl (by norm_num)) (square.trans value.symm)
  obtain ⟨-, -, -, product⟩ := back _ root (isGaussian_ofGaussian _).allExact
  rw [value, made (by norm_num), made (by norm_num)] at product
  rw [made (by norm_num)] at root
  exact ⟨root, product⟩

end Arithmetic

end Calculator
