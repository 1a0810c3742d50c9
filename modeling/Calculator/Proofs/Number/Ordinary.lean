import Calculator.Proofs.Number.Complex
import Mathlib

/-!
# Arithmetic of ordinary numbers

Complex arithmetic relies on the arithmetic of parts, which is arithmetic of values one level down.
By induction every level is as the next one needs it, and so arithmetic answers ordinary numbers
where it is given ordinary numbers, apart from the exceptional roots and logarithms.
-/

namespace Calculator

namespace Arithmetic

open Value
open Calculator.Complex

variable {parts : Operations} {settings : Preferences}

/-! ## Levels -/

/-- The operations by which complex arithmetic combines parts are those of the real numbers, where
the parts are real. -/
theorem binaryOver_real {command : Command} (combining : combines command = true) (a b : Real) :
    binaryOver parts settings command (.real a) (.real b) =
      (a.operate command b settings).map .real := by
  cases command
  case add | subtract | multiply | divide | arcTangent2 => rfl
  all_goals cases combining

/-- The functions that stay real are those of the real numbers, where the part is real. -/
theorem realEverywhere_of_staysReal {command : Command} (real : staysReal command = true) :
    realEverywhere command = true := by
  cases command <;> first | rfl | cases real

/-- Roots and logarithms are those of the real numbers, where the part is not below zero. -/
theorem unaryOver_nonneg {command : Command} {a : Real} (nonneg : a.isNegative = false) :
    unaryOver parts settings command (.real a) = (a.apply command settings).map .real := by
  cases command <;> simp only [unaryOver, numberUnary, realUnary, nonneg] <;> rfl

/-- The logarithm of a part below zero is that of a complex number. -/
theorem unaryOver_negative {a : Real} (negative : a.isNegative = true) :
    unaryOver parts settings .naturalLog (.real a) =
      naturalLogarithm parts settings (withoutImaginary (.real a)) := by
  simp only [unaryOver, numberUnary, realUnary, negative]
  rfl

/-- The angle of a point is a decimal. -/
theorem operate_arcTangent2 {x y result : Real}
    (done : x.operate .arcTangent2 y settings = .ok result) : ∃ value, result = .decimal value := by
  have decimals :
      x.operate .arcTangent2 y settings = Real.operateDecimals .arcTangent2 x y settings := by
    cases x <;> cases y <;> rfl
  rw [decimals] at done
  obtain ⟨value, -, same⟩ := Outcome.bind_eq_ok.mp done
  exact ⟨_, (Except.ok.inj same).symm⟩

/-- The logarithm of a real number below zero is bent: its imaginary part is half a turn. -/
theorem logarithm_negative (level : Level parts settings) {a : Real} {z : Value}
    (done : naturalLogarithm parts settings (withoutImaginary (.real a)) = .ok z) : Bent z := by
  obtain ⟨⟨length, argument⟩, measured, rest⟩ := Outcome.bind_eq_ok.mp done
  obtain ⟨modulus, lengthDone, rest'⟩ := Outcome.bind_eq_ok.mp measured
  obtain ⟨angle, turned, same⟩ := Outcome.bind_eq_ok.mp rest'
  obtain ⟨rfl, rfl⟩ := Prod.mk.inj (Except.ok.inj same)
  obtain ⟨m, rfl, -, nonneg, -⟩ := modulus_real level lengthDone
  obtain ⟨t, rfl, operated⟩ := level.binary rfl turned
  obtain ⟨value, rfl⟩ := operate_arcTangent2 operated
  dsimp only at rest
  split at rest
  · cases rest
  · obtain ⟨logarithm, found, same⟩ := Outcome.bind_eq_ok.mp rest
    obtain rfl := Except.ok.inj same
    obtain ⟨c, rfl, -⟩ := level.logarithm nonneg found
    exact bent_rectangular c value

/-- A product of a real and a bent number is bent. -/
theorem multiply_bent (level : Level parts settings) {a : Real} {w z : Value} (bent : Bent w)
    (done : multiply parts settings (.real a) w = .ok z) : Bent z := by
  cases bent with
  | complex re im =>
    obtain ⟨⟨_, _⟩, first, rest⟩ := Outcome.bind_eq_ok.mp done
    obtain ⟨⟨_, _⟩, second, rest⟩ := Outcome.bind_eq_ok.mp rest
    obtain ⟨rfl, rfl⟩ := Prod.mk.inj (Except.ok.inj first)
    obtain ⟨rfl, rfl⟩ := Prod.mk.inj (Except.ok.inj second)
    obtain ⟨ac, acDone, rest⟩ := Outcome.bind_eq_ok.mp rest
    obtain ⟨bd, bdDone, rest⟩ := Outcome.bind_eq_ok.mp rest
    obtain ⟨ad, adDone, rest⟩ := Outcome.bind_eq_ok.mp rest
    obtain ⟨bc, bcDone, rest⟩ := Outcome.bind_eq_ok.mp rest
    obtain ⟨u, subtracted, rest⟩ := Outcome.bind_eq_ok.mp rest
    obtain ⟨v, added, same⟩ := Outcome.bind_eq_ok.mp rest
    obtain rfl := Except.ok.inj same
    obtain ⟨_, rfl, -⟩ := level.binary rfl acDone
    obtain ⟨_, rfl, -⟩ := level.binary rfl bdDone
    obtain ⟨_, rfl, scaled⟩ := level.binary rfl adDone
    obtain ⟨_, rfl, -⟩ := level.binary rfl bcDone
    obtain ⟨value, rfl⟩ := Real.decimal_operate (.inr ⟨_, rfl⟩) scaled
    obtain ⟨p, rfl, -⟩ := level.binary rfl subtracted
    obtain ⟨q, rfl, summed⟩ := level.binary rfl added
    obtain ⟨im, rfl⟩ := Real.decimal_operate (.inl ⟨_, rfl⟩) summed
    exact bent_rectangular p im

/-- A sum of a real and a bent number is bent. -/
theorem add_bent (level : Level parts settings) {a : Real} {w z : Value} (bent : Bent w)
    (done : combine parts .add (.real a) w = .ok z) : Bent z := by
  cases bent with
  | complex re im =>
    obtain ⟨⟨_, _⟩, first, rest⟩ := Outcome.bind_eq_ok.mp done
    obtain ⟨⟨_, _⟩, second, rest⟩ := Outcome.bind_eq_ok.mp rest
    obtain ⟨rfl, rfl⟩ := Prod.mk.inj (Except.ok.inj first)
    obtain ⟨rfl, rfl⟩ := Prod.mk.inj (Except.ok.inj second)
    obtain ⟨u, real, rest⟩ := Outcome.bind_eq_ok.mp rest
    obtain ⟨v, imaginary, same⟩ := Outcome.bind_eq_ok.mp rest
    obtain rfl := Except.ok.inj same
    obtain ⟨p, rfl, -⟩ := level.binary rfl real
    obtain ⟨q, rfl, summed⟩ := level.binary rfl imaginary
    obtain ⟨im, rfl⟩ := Real.decimal_operate (.inr ⟨_, rfl⟩) summed
    exact bent_rectangular p im

/-- A level over a level is one. -/
theorem level_over (level : Level parts settings) :
    Level ⟨unaryOver parts settings, binaryOver parts settings⟩ settings where
  binary combining done := by
    obtain ⟨c, operated, rfl⟩ :=
      Outcome.map_eq_ok.mp ((binaryOver_real combining _ _).symm.trans done)
    exact ⟨c, rfl, operated⟩
  unary real done := by
    obtain ⟨c, applied, rfl⟩ := Outcome.map_eq_ok.mp
      ((unaryOver_real _ _ (realEverywhere_of_staysReal real) _).symm.trans done)
    exact ⟨c, rfl, applied⟩
  root nonneg done := by
    have positive := (Real.isNegative_eq_false_iff _).mpr nonneg
    obtain ⟨c, applied, rfl⟩ := Outcome.map_eq_ok.mp ((unaryOver_nonneg positive).symm.trans done)
    exact ⟨c, rfl, applied⟩
  logarithm nonneg done := by
    have positive := (Real.isNegative_eq_false_iff _).mpr nonneg
    obtain ⟨c, applied, rfl⟩ := Outcome.map_eq_ok.mp ((unaryOver_nonneg positive).symm.trans done)
    exact ⟨c, rfl, applied⟩
  logarithm_bent made negative done := by
    have through := (unaryOver_negative ((Real.isNegative_iff _).mpr negative)).symm.trans done
    exact ⟨logarithm_negative level through,
      ordinary_naturalLogarithm level (ordinary_withoutImaginary made) rfl through⟩
  multiply_bent bent done := by
    cases bent with
    | complex re im => exact multiply_bent level (.complex re im) done
  add_bent bent done := by
    cases bent with
    | complex re im => exact add_bent level (.complex re im) done
  cosine_bent bent z done := by
    cases bent
    cases done

/-- Every level is as complex arithmetic one level up needs it. -/
theorem level_upTo (settings : Preferences) (level : ℕ) : Level (upTo settings level) settings := by
  induction level with
  | zero =>
    constructor
    case cosine_bent => exact fun _ _ done => nomatch done
    case binary | unary => exact fun _ done => nomatch done
    case root | logarithm | multiply_bent | add_bent => exact fun _ done => nomatch done
    case logarithm_bent => exact fun _ _ done => nomatch done
  | succ level inductionHypothesis => exact level_over inductionHypothesis

/-! ## Numbers -/

section Numbers

variable (level : Level parts settings) {x y z : Value} {command : Command}
include level

/-- Functions of real numbers are ordinary. -/
theorem ordinary_realUnary {a : Real} (made : a.IsMade)
    (done : realUnary parts settings command a = .ok z) : Ordinary z := by
  have plain {b : Real} (madeB : b.IsMade)
      (answered : (b.apply command settings) >>= (fun c => .ok (.real c)) = .ok z) : Ordinary z := by
    obtain ⟨c, applied, same⟩ := Outcome.bind_eq_ok.mp answered
    obtain rfl := Except.ok.inj same
    exact .real c (madeB.apply applied)
  have through (regular : ¬ Exceptional settings command (withoutImaginary (.real a)))
      (answered : Complex.unary parts settings command (withoutImaginary (.real a)) = .ok z) :
      Ordinary z := ordinary_unary level made (Real.isMade_ofInt 0) regular answered
  unfold realUnary at done
  split at done
  · obtain ⟨root, rooted, same⟩ := Outcome.bind_eq_ok.mp done
    obtain rfl := Except.ok.inj same
    exact ordinary_rectangular (Real.isMade_ofInt 0) (made.negated.apply rooted)
  · refine through ?_ done
    rintro ⟨⟩
    contradiction
  · refine through ?_ done
    rintro ⟨⟩
    contradiction
  · exact plain made done

/-- Functions of ordinary numbers are ordinary, where no part below zero is met. -/
theorem ordinary_numberUnary (ordinary : Ordinary x) (regular : ¬ Exceptional settings command x)
    (done : numberUnary parts settings command x = .ok z) : Ordinary z := by
  cases ordinary with
  | real a made => exact ordinary_realUnary level made done
  | complex form a b madeFirst madeSecond =>
    exact ordinary_unary level madeFirst madeSecond regular done

/-- Operations on ordinary numbers are ordinary. -/
theorem ordinary_numberBinary (left : Ordinary x) (right : Ordinary y)
    (done : numberBinary parts settings command x y = .ok z) : Ordinary z := by
  unfold numberBinary at done
  split at done
  · split at done
    · exact ordinary_binary level left right done
    · obtain ⟨c, operated, rfl⟩ := Outcome.map_eq_ok.mp done
      exact .real c (Real.isMade_operate operated)
  · split at done
    · exact ordinary_binary level left right done
    · cases done

/-- Roots of ordinary numbers are ordinary. -/
theorem ordinary_nthRoot {degree : Real} (ordinary : Ordinary x)
    (done : nthRoot parts settings x degree = .ok z) : Ordinary z := by
  have power {base w : Value} (ordinaryBase : Ordinary base)
      (raised : powerOfInverse parts settings base degree = .ok w) : Ordinary w := by
    obtain ⟨inverse, inverted, rest⟩ := Outcome.bind_eq_ok.mp raised
    obtain ⟨quotient, divided, same⟩ := Outcome.bind_eq_ok.mp inverted
    obtain rfl := Except.ok.inj same
    exact ordinary_numberBinary level ordinaryBase
      (.real _ ((Real.isMade_operate divided).finished settings)) rest
  unfold nthRoot at done
  dsimp only at done
  split at done
  · cases done
  · split at done
    · split at done
      · rename_i number whole degreeWhole odd
        obtain ⟨root, rooted, rest⟩ := Outcome.bind_eq_ok.mp done
        cases ordinary with
        | real _ made =>
          refine ordinary_numberUnary level (power (.real _ made.negated) rooted) ?_ rest
          rintro ⟨⟩
      · exact power ordinary done
    · exact power ordinary done

end Numbers

/-! ## Arithmetic -/

/-- Truth and falsehood are ordinary. -/
theorem ordinary_ofBool (truth : Bool) : Ordinary (.ofBool truth) := .real _ (Real.isMade_ofInt _)

/-- A comparison answers truth or falsehood. -/
theorem ordinary_comparison {command : Command} {x y z : Value}
    (done : comparison parts command x y = .ok z) : Ordinary z := by
  have answer {α : Type} {question : Outcome α} {truth : α → Bool}
      (asked : question >>= (fun found => .ok (.ofBool (truth found))) = .ok z) : Ordinary z := by
    obtain ⟨found, -, same⟩ := Outcome.bind_eq_ok.mp asked
    exact Except.ok.inj same ▸ ordinary_ofBool _
  unfold comparison at done
  split at done
  case h_7 => cases done
  all_goals exact answer done

/-- A logical operator answers truth or falsehood. -/
theorem ordinary_logical {command : Command} {x y z : Value} (done : logical command x y = .ok z) :
    Ordinary z := by
  obtain ⟨a, -, rest⟩ := Outcome.bind_eq_ok.mp done
  obtain ⟨b, -, rest⟩ := Outcome.bind_eq_ok.mp rest
  split at rest
  case h_4 => cases rest
  all_goals exact Except.ok.inj rest ▸ ordinary_ofBool _

/-- An operation on ordinary numbers joins no texts. -/
theorem texts_ordinary {command : Command} {x y : Value} (left : Ordinary x) (right : Ordinary y) :
    texts command x y = .ok none := by
  unfold texts
  split
  · cases left
  · cases left
  · cases right
  · rfl

/-- An operation on ordinary numbers answers an ordinary number, if the numbers have no units and
are not symbolic. -/
theorem ordinary_plainBinary (level : Level parts settings) {command : Command} {x y z : Value}
    (left : Ordinary x) (right : Ordinary y)
    (done : plainBinary parts settings command x y = .ok z) : Ordinary z := by
  obtain ⟨attempt, tried, rest⟩ := Outcome.bind_eq_ok.mp done
  obtain rfl := Except.ok.inj ((texts_ordinary left right).symm.trans tried)
  dsimp only at rest
  split at rest
  · exact ordinary_comparison rest
  · split at rest
    · exact ordinary_logical rest
    · exact ordinary_logical rest
    · exact ordinary_logical rest
    · split at rest
      · exact ordinary_nthRoot level left rest
      · cases rest
    · exact ordinary_numberBinary level left right rest

/-- An operation on ordinary numbers answers an ordinary number, unless it holds them together. -/
theorem ordinary_computed (level : Level parts settings) {command : Command} {x y z : Value}
    (noEquation : command ≠ .equation) (noBinding : command ≠ .whereBound) (left : Ordinary x)
    (right : Ordinary y) (done : binaryOver parts settings command x y = .ok z) : Ordinary z := by
  have general (answered : generalBinary parts settings command x y = .ok z) : Ordinary z := by
    have plain : generalBinary parts settings command x y =
        plainBinary parts settings command x y := by
      cases left <;> cases right <;> rfl
    exact ordinary_plainBinary level left right (plain ▸ answered)
  unfold binaryOver at done
  split at done
  · exact absurd rfl noEquation
  · exact absurd rfl noBinding
  · cases left
  · cases right
  · exact general done

/-- An operation on ordinary numbers answers an ordinary number, if it answers a number. -/
theorem ordinary_binaryOver (level : Level parts settings) {command : Command} {x y z : Value}
    (left : Ordinary x) (right : Ordinary y)
    (done : binaryOver parts settings command x y = .ok z) (number : z.isNumber = true) :
    Ordinary z := by
  refine ordinary_computed level ?_ ?_ left right done
  · rintro rfl
    obtain rfl := Except.ok.inj done
    cases number
  · rintro rfl
    obtain rfl := Except.ok.inj done
    cases number

/-- A function of an ordinary number answers an ordinary number, where no part below zero is met. -/
theorem ordinary_unaryOver (level : Level parts settings) {command : Command} {x z : Value}
    (ordinary : Ordinary x) (regular : ¬ Exceptional settings command x)
    (done : unaryOver parts settings command x = .ok z) : Ordinary z := by
  have numbers : unaryOver parts settings command x = numberUnary parts settings command x := by
    cases ordinary <;> rfl
  rw [numbers] at done
  exact ordinary_numberUnary level ordinary regular done

end Arithmetic

end Calculator
