import Calculator.Proofs.Polynomial.Ring
import Mathlib

/-!
# The value of a polynomial as a morphism

Let names stand for exact real numbers, those that count as the same for the same number. Then every
polynomial in normal form with exact real factors has a value, and the value of a sum is the sum of
the values, although both sides look up the names that they have left, in the order in which they
have them. So it is with differences, opposites, products and powers.

Only a power that is too large to be computed may stand in the way of a value.
-/

namespace Calculator

namespace Symbol

/-- One name for all those that count as the same: the name itself, or its letters in lower case. -/
def folded (caseSensitive : Bool) (name : Symbol) : Symbol :=
  if caseSensitive then name else ⟨.ofList (Text.foldedCharacters name.name)⟩

/-- Names that count as the same have one such name. -/
theorem folded_eq_of_compare {caseSensitive : Bool} {x y : Symbol}
    (same : x.compare y caseSensitive = .eq) : x.folded caseSensitive = y.folded caseSensitive := by
  cases caseSensitive with
  | true => rw [eq_of_compare same]
  | false =>
    have letters : compareCharacters (Text.foldedCharacters x.name)
      (Text.foldedCharacters y.name) = .eq := same
    exact congrArg (fun letters => Symbol.mk (.ofList letters))
      (Std.LawfulEqCmp.eq_of_compare letters)

end Symbol

namespace Polynomial

open PolynomialOver

variable {settings : Preferences} {assignment : Symbol → Value} {p q : Polynomial}

/-- The value of a polynomial, given what names stand for. Names that count as the same are looked
up under one name. -/
def evaluateUnder (settings : Preferences) (assignment : Symbol → Value) (p : Polynomial) :
    Outcome Value :=
  evaluateAt (Arithmetic.operations settings) p
    (p.names.map fun name => assignment (name.folded settings.caseSensitive))

/-- What polynomials stand for if names stand for exact numbers. -/
def assigned (settings : Preferences) (assignment : Symbol → Value) :
    Reading Value GaussianRational :=
  exactReading (fun name => (assignment (name.folded settings.caseSensitive)).gaussian)
    fun _ => True

/-- Names that count as the same stand for the same. -/
theorem congruent_assigned :
    Congruent (assigned settings assignment).name (fun _ => True) settings.caseSensitive :=
  fun _ _ _ _ same => congrArg (fun name => (assignment name).gaussian)
    (Symbol.folded_eq_of_compare same)

/-- A polynomial in normal form stands for the sum of its terms. -/
theorem IsCanonical.means (canonical : IsCanonical (Arithmetic.operations settings) settings p)
    (assignment : Symbol → Value) :
    (assigned settings assignment).Means settings.caseSensitive p
      ((assigned settings assignment).sum p.names p.terms) where
  orderly := canonical.normal.toOrderly
  factors term among := (Value.gaussian_of_isExact (canonical.exact term among)).1
  names _ _ := trivial
  value := rfl

/-- Whether an outcome is what is made for a rational number, unless a power was too large to be
computed. -/
def Gives (outcome : Outcome Value) (value : ℚ) : Prop :=
  outcome = .ok (.ofRational value) ∨ outcome = .error .outOfMemory

section Values

variable (symbolic : settings.numericalResults = false)
variable (exact : ∀ name, (assignment name).isExact = true)
include exact

/-- The names of a polynomial stand for the values that are looked up. -/
theorem given_assigned (names : List Symbol) :
    Given (assigned settings assignment).name names
      (names.map fun name => assignment (name.folded settings.caseSensitive)) := by
  unfold Given
  rw [List.forall₂_map_right_iff, List.forall₂_same]
  exact fun name _ => ⟨(Value.gaussian_of_isExact (exact _)).1, rfl⟩

/-- A polynomial with exact real factors stands for a rational number. -/
theorem exists_rational (canonical : IsCanonical (Arithmetic.operations settings) settings p) :
    ∃ value : ℚ, (assigned settings assignment).sum p.names p.terms = ⟨value, 0⟩ := by
  have rational {value : Value} (real : value.isExact = true) :
      value.gaussian ∈ (algebraMap ℚ GaussianRational).range :=
    ⟨value.rational, (Value.gaussian_of_isExact real).2.symm⟩
  have monomial (names : List Symbol) (exponents : List UInt32) :
      (assigned settings assignment).monomial names exponents ∈
        (algebraMap ℚ GaussianRational).range := by
    fun_induction Reading.monomial with
    | case1 name names exponent exponents inductionHypothesis =>
      exact mul_mem (pow_mem (rational (exact _)) _) inductionHypothesis
    | case2 => exact one_mem _
  obtain ⟨value, same⟩ : (assigned settings assignment).sum p.names p.terms ∈
      (algebraMap ℚ GaussianRational).range := by
    refine list_sum_mem fun term among => ?_
    obtain ⟨original, listed, rfl⟩ := List.mem_map.mp among
    exact mul_mem (rational (canonical.exact original listed)) (monomial _ _)
  exact ⟨value, same.symm⟩

include symbolic

/-- The value of a polynomial is the rational number that it stands for. -/
theorem gives_of_means {value : ℚ}
    (means : (assigned settings assignment).Means settings.caseSensitive p ⟨value, 0⟩) :
    Gives (evaluateUnder settings assignment p) value := by
  have evaluated := evaluateAt_eq symbolic means (given_assigned exact p.names)
  rwa [Value.ofGaussian_of_im_eq_zero rfl] at evaluated

/-- A polynomial in normal form that has a value stands for it. -/
theorem means_of_evaluateUnder
    (canonical : IsCanonical (Arithmetic.operations settings) settings p) {value : Value}
    (evaluated : evaluateUnder settings assignment p = .ok value) :
    (assigned settings assignment).Means settings.caseSensitive p ⟨value.rational, 0⟩ := by
  obtain ⟨rational, same⟩ := exists_rational exact canonical
  have means := canonical.means assignment
  rw [same] at means
  rcases gives_of_means symbolic exact means with given | tooLarge
  · obtain rfl := Except.ok.inj (evaluated.symm.trans given)
    rwa [Value.rational_ofRational]
  · rw [tooLarge] at evaluated
    cases evaluated

end Values

/-- Let names stand for exact real numbers. Then the sum of two polynomials in normal form with
exact real factors exists, and its value is the sum of their values, each taken at what the
polynomial's own names stand for; so it is with differences, opposites, products and powers, as far
as these exist. Nothing but a power that is too large can stand in the way of such a value. -/
theorem evaluation_morphism (symbolic : settings.numericalResults = false)
    (exact : ∀ name, (assignment name).isExact = true)
    (left : IsCanonical (Arithmetic.operations settings) settings p)
    (right : IsCanonical (Arithmetic.operations settings) settings q) {a b : Value}
    (first : evaluateUnder settings assignment p = .ok a)
    (second : evaluateUnder settings assignment q = .ok b) :
    (∃ sum, add (Arithmetic.operations settings) settings p q = .ok sum ∧
      Gives (evaluateUnder settings assignment sum) (a.rational + b.rational)) ∧
    (∃ difference, subtract (Arithmetic.operations settings) settings p q = .ok difference ∧
      Gives (evaluateUnder settings assignment difference) (a.rational - b.rational)) ∧
    (∃ opposite, negate (Arithmetic.operations settings) p = .ok opposite ∧
      Gives (evaluateUnder settings assignment opposite) (-a.rational)) ∧
    (∀ product, multiply (Arithmetic.operations settings) settings p q = .ok product →
      Gives (evaluateUnder settings assignment product) (a.rational * b.rational)) ∧
    (∀ exponent result, power (Arithmetic.operations settings) settings p exponent = .ok result →
      Gives (evaluateUnder settings assignment result) (a.rational ^ exponent.toNat)) := by
  have rational := Arithmetic.areRational_operations symbolic
  have respects : (assigned settings assignment).Respects
      (factors (Arithmetic.operations settings)) settings.caseSensitive :=
    respects_exactReading symbolic congruent_assigned
  have meansLeft := means_of_evaluateUnder symbolic exact left first
  have meansRight := means_of_evaluateUnder symbolic exact right second
  have gives {r : Polynomial} {z : GaussianRational} {c : ℚ}
      (means : (assigned settings assignment).Means settings.caseSensitive r z)
      (same : z = ⟨c, 0⟩) : Gives (evaluateUnder settings assignment r) c :=
    gives_of_means symbolic exact (same ▸ means)
  refine ⟨?_, ?_, ?_, fun product done => ?_, fun exponent result done => ?_⟩
  · cases done : add (Arithmetic.operations settings) settings p q with
    | error fault => exact absurd done (add_ne_error rational left.denotes right.denotes)
    | ok sum =>
      exact ⟨sum, rfl, gives (Reading.means_add respects meansLeft meansRight done)
        (QuadraticAlgebra.ext rfl (add_zero 0))⟩
  · cases done : subtract (Arithmetic.operations settings) settings p q with
    | error fault => exact absurd done (subtract_ne_error rational left.denotes right.denotes)
    | ok difference =>
      exact ⟨difference, rfl, gives (Reading.means_subtract respects meansLeft meansRight done)
        (QuadraticAlgebra.ext rfl (sub_zero 0))⟩
  · cases done : negate (Arithmetic.operations settings) p with
    | error fault => exact absurd done (negate_ne_error rational left.denotes)
    | ok opposite =>
      exact ⟨opposite, rfl, gives (Reading.means_negate respects meansLeft done)
        (QuadraticAlgebra.ext rfl neg_zero)⟩
  · exact gives (Reading.means_multiply respects meansLeft meansRight done)
      (GaussianRational.rational_mul _ _)
  · exact gives (Reading.means_power respects (Value.isGaussian_ofInt 1)
      ((Value.gaussian_ofInt 1).trans Int.cast_one) meansLeft done)
      (GaussianRational.rational_pow _ _)

/-- In the sum of two polynomials in three names, one of the terms drops out. Its value is the sum
of their values. -/
theorem evaluation_morphism_sum :
    let p : Polynomial := ⟨[⟨"Y"⟩, ⟨"X"⟩], [⟨.ofInt 1, [1, 0]⟩, ⟨.ofInt 2, [0, 2]⟩]⟩
    let q : Polynomial := ⟨[⟨"Z"⟩, ⟨"X"⟩], [⟨.ofInt 3, [1, 1]⟩, ⟨.ofInt (-2), [0, 2]⟩]⟩
    let assignment (name : Symbol) : Value := if name = ⟨"X"⟩ then .ofInt 5 else .ofInt 7
    ∃ sum, add (Arithmetic.operations {}) {} p q = .ok sum ∧
      Gives (evaluateUnder {} assignment sum) (57 + 55) := by
  intro p q assignment
  have exact (name : Symbol) : (assignment name).isExact = true := by
    unfold assignment
    split
    · exact Value.isExact_ofInt 5
    · exact Value.isExact_ofInt 7
  have first : evaluateUnder {} assignment p = .ok (.ofInt 57) := by cbv
  have second : evaluateUnder {} assignment q = .ok (.ofInt 55) := by cbv
  have sum := (evaluation_morphism rfl exact (by decide) (by decide) first second).1
  rwa [Value.rational_ofInt, Value.rational_ofInt] at sum

end Polynomial

end Calculator
