import Calculator.Proofs.Polynomial.Canonical
import Mathlib

/-!
# The ring of polynomials

A sum of polynomials in normal form is the normal form of the sum of the elements that they denote,
and so it is with differences, products and powers. Sums and differences always have a normal form.
Products and powers have one unless an exponent is too large for a word, and then their calculation
fails for this reason. So the laws of the ring are laws of the operations, and what they compute is
the same to the last term, whichever way it is computed.
-/

namespace Calculator

namespace Polynomial

open MvPolynomial (coeff degreeOf)
open PolynomialOver

variable {operations : Operations} {settings : Preferences} {p q result : Polynomial}
variable {f g : MvPolynomial Symbol ℚ} {Knows : Symbol → Prop}

/-! ## Degrees -/

/-- The exponent of a name in a term is at most the degree of the element in that name, over
whatever names the exponents are spread. -/
theorem Denotes.exponent_le (denotes : Denotes operations settings p f) {marks : List Bool}
    {names : List Symbol} (distinct : names.Nodup) (length : names.length = marks.length)
    (same : List.Forall₂ (fun name other => elementReading.name name = elementReading.name other)
      (select marks names) p.names) {term : Term Value} (among : term ∈ spreadTerms marks p.terms)
    {place : ℕ} (inside : place < names.length) :
    (term.exponents.getD place 0).toNat ≤ degreeOf names[place] f := by
  obtain ⟨original, listed, rfl⟩ := List.mem_map.mp among
  have spreading : powers names (spread marks original.exponents) =
      powers p.names original.exponents := by
    have monomials := Reading.monomial_spread length (denotes.means.aligned original listed) same
    rw [monomial_eq, monomial_eq] at monomials
    exact MvPolynomial.monomial_left_injective one_ne_zero monomials
  have aligned : (spread marks original.exponents).length = names.length := by
    rw [length_spread, length]
  obtain ⟨coefficient, nonzero⟩ := denotes.coeff_of_mem listed
  rw [← powers_getElem distinct aligned inside, spreading]
  exact MvPolynomial.monomial_le_degreeOf _
    (MvPolynomial.mem_support_iff.mpr (coefficient.trans_ne nonzero))

/-- The powers in a term are words. -/
theorem Denotes.powers_lt (denotes : Denotes operations settings p f) {term : Term Value}
    (listed : term ∈ p.terms) (name : Symbol) :
    powers p.names term.exponents name < UInt32.size := by
  by_cases among : name ∈ p.names
  · obtain ⟨place, inside, rfl⟩ := List.mem_iff_getElem.mp among
    rw [powers_getElem (nodup_of_namesDescend denotes.normal.names)
      (denotes.means.aligned term listed) inside]
    exact UInt32.toNat_lt_size _
  · rw [powers_of_not_mem among]
    decide

/-- The degrees of an element that a polynomial denotes are words. -/
theorem Denotes.degreeOf_lt (denotes : Denotes operations settings p f) (name : Symbol) :
    degreeOf name f < UInt32.size := by
  refine (MvPolynomial.degreeOf_lt_iff (by decide)).mpr fun m support => ?_
  obtain ⟨term, listed, rfl⟩ := denotes.exists_of_coeff (MvPolynomial.mem_support_iff.mp support)
  exact denotes.powers_lt listed name

/-! ## Sums -/

section Sums

variable (rational : operations.AreRational)
include rational

/-- Terms with exact factors can be combined. -/
theorem combineOnto_ne_error {last : Term Value} {terms : List (Term Value)} {fault : Fault}
    (exact : ∀ term ∈ last :: terms, term.factor.isExact = true) :
    combineOnto (factors operations) last terms ≠ .error fault := by
  induction terms generalizing last with
  | nil => nofun
  | cons term terms inductionHypothesis =>
    obtain ⟨first, others⟩ := List.forall_mem_cons.mp exact
    obtain ⟨second, rest⟩ := List.forall_mem_cons.mp others
    rw [combineOnto]
    split
    · have sum : (factors operations).add last.factor term.factor = .ok _ :=
        rational.add first second
      rw [sum, Outcome.ok_bind]
      exact inductionHypothesis (List.forall_mem_cons.mpr ⟨Value.isExact_ofRational _, rest⟩)
    · intro failed
      rcases Outcome.bind_eq_error.mp failed with here | ⟨_, -, ⟨⟩⟩
      exact inductionHypothesis others here

/-- Terms with exact factors have a normal form. -/
theorem normalize_ne_error {names : List Symbol} {terms : List (Term Value)} {fault : Fault}
    (exact : ∀ term ∈ terms, term.factor.isExact = true) :
    normalize (factors operations) names terms ≠ .error fault := by
  have sorted : ∀ term ∈ sortTerms terms, term.factor.isExact = true :=
    fun term among => exact term (List.mem_mergeSort.mp among)
  intro failed
  rcases Outcome.bind_eq_error.mp failed with combining | ⟨_, -, ⟨⟩⟩
  cases order : sortTerms terms with
  | nil =>
    rw [order] at combining
    cases combining
  | cons first others =>
    rw [order] at combining sorted
    exact combineOnto_ne_error rational sorted combining

/-- Polynomials in normal form have a sum. -/
theorem add_ne_error {fault : Fault} (left : Denotes operations settings p f)
    (right : Denotes operations settings q g) : add operations settings p q ≠ .error fault := by
  refine normalize_ne_error rational fun term among => ?_
  have both := List.mem_append.mp among
  exact both.elim (factors_spreadTerms (·.isExact = true) left.exact term)
    (factors_spreadTerms (·.isExact = true) right.exact term)

/-- Polynomials in normal form have an opposite. -/
theorem negate_ne_error {fault : Fault} (denotes : Denotes operations settings p f) :
    negate operations p ≠ .error fault := by
  intro failed
  rcases Outcome.bind_eq_error.mp failed with changed | ⟨_, -, ⟨⟩⟩
  obtain ⟨term, among, failing⟩ := Outcome.exists_of_mapM_eq_error changed
  have opposite : (factors operations).negate term.factor = .ok _ :=
    rational.negate (denotes.exact term among)
  rw [opposite] at failing
  cases failing

/-- Polynomials in normal form have a difference. -/
theorem subtract_ne_error {fault : Fault} (left : Denotes operations settings p f)
    (right : Denotes operations settings q g) :
    subtract operations settings p q ≠ .error fault := by
  intro failed
  rcases Outcome.bind_eq_error.mp failed with negating | ⟨opposite, negated, adding⟩
  · exact negate_ne_error rational right negating
  · exact add_ne_error rational left (right.negate rational negated).denotes adding

end Sums

/-! ## Products -/

/-- Two exponents have no sum only if it is too large. -/
theorem addExponents_eq_error {x y : UInt32} {fault : Fault}
    (failed : addExponents x y = .error fault) :
    fault = .badArgumentValue ∧ UInt32.size ≤ x.toNat + y.toNat := by
  unfold addExponents at failed
  split at failed
  · cases failed
  · rename_i large
    exact ⟨(Except.error.inj failed).symm, not_lt.mp large⟩

/-- The entries of a zipped row are those at some place. -/
theorem exists_place_of_mem_zip {lefts rights : List UInt32} {x y : UInt32}
    (among : (x, y) ∈ lefts.zip rights) :
    ∃ place, place < lefts.length ∧ lefts.getD place 0 = x ∧ rights.getD place 0 = y := by
  obtain ⟨place, inside, found⟩ := List.mem_iff_getElem.mp among
  rw [List.getElem_zip, Prod.mk.injEq] at found
  rw [List.length_zip] at inside
  refine ⟨place, by omega, ?_, ?_⟩
  · rw [List.getD_eq_getElem _ _ (by omega), found.1]
  · rw [List.getD_eq_getElem _ _ (by omega), found.2]

section Products

variable (rational : operations.AreRational)
variable (apart : Distinguishes settings.caseSensitive Knows)
include rational

/-- Two terms with exact factors have no product only if the sum of two exponents is too large. -/
theorem multiplyTerms_eq_error {left right : Term Value} {fault : Fault}
    (first : left.factor.isExact = true) (second : right.factor.isExact = true)
    (failed : multiplyTerms (factors operations) left right = .error fault) :
    fault = .badArgumentValue ∧ ∃ place, place < left.exponents.length ∧ UInt32.size ≤
      (left.exponents.getD place 0).toNat + (right.exponents.getD place 0).toNat := by
  have product : (factors operations).multiply left.factor right.factor = .ok _ :=
    rational.multiply first second
  rcases Outcome.bind_eq_error.mp failed with adding | ⟨_, -, rest⟩
  · obtain ⟨⟨x, y⟩, among, failing⟩ := Outcome.exists_of_mapM_eq_error adding
    obtain ⟨place, inside, rfl, rfl⟩ := exists_place_of_mem_zip among
    obtain ⟨known, large⟩ := addExponents_eq_error failing
    exact ⟨known, place, inside, large⟩
  · rw [product] at rest
    cases rest

include apart

/-- Polynomials in normal form have no product only if they are not zero and their degrees in some
name are too large together. -/
theorem multiply_eq_error_of_over {fault : Fault}
    (left : DenotesOver Knows operations settings p f)
    (right : DenotesOver Knows operations settings q g)
    (failed : multiply operations settings p q = .error fault) :
    fault = .badArgumentValue ∧ f ≠ 0 ∧ g ≠ 0 ∧
      ∃ name, UInt32.size ≤ degreeOf name f + degreeOf name g := by
  have respects := respects_elementReadingOver rational apart
  have distinct := nodup_of_namesDescend
    (namesDescend_mergeVariables left.normal.names right.normal.names)
  rcases Outcome.bind_eq_error.mp failed with multiplying | ⟨products, multiplied, rest⟩
  · obtain ⟨x, first, row⟩ := Outcome.exists_of_mapM_eq_error multiplying
    obtain ⟨y, second, failing⟩ := Outcome.exists_of_mapM_eq_error row
    obtain ⟨known, place, inside, large⟩ := multiplyTerms_eq_error rational
      (left.means.spreadTerms _ x first).2 (right.means.spreadTerms _ y second).2 failing
    rw [aligned_spreadTerms x first, List.length_map] at inside
    have within : place < ((mergeVariables settings.caseSensitive p.names q.names).map
        Prod.fst).length := by rwa [List.length_map]
    have own := left.exponent_le distinct (by simp)
      (by rw [Reading.select_mergeVariables_left]; exact List.forall₂_same.mpr fun _ _ => rfl)
      first within
    have other := right.exponent_le distinct (by simp)
      (Reading.select_mergeVariables_right respects left.means.names right.means.names)
      second within
    have nonzero {r : Polynomial} {h : MvPolynomial Symbol ℚ} {marks : List Bool}
        {term : Term Value} (denotes : Denotes operations settings r h)
        (among : term ∈ spreadTerms marks r.terms) : h ≠ 0 := by
      rintro rfl
      obtain ⟨original, listed, -⟩ := List.mem_map.mp among
      obtain ⟨coefficient, apart⟩ := denotes.coeff_of_mem listed
      exact apart (coefficient.symm.trans (MvPolynomial.coeff_zero _))
    exact ⟨known, nonzero left.toDenotes first, nonzero right.toDenotes second, _,
      large.trans (Nat.add_le_add own other)⟩
  · have formed := Reading.sum_flatten_products respects
      ((mergeVariables settings.caseSensitive p.names q.names).map Prod.fst)
      (fun x first => by simpa using left.means.spreadTerms _ x first)
      (fun y second => by simpa using right.means.spreadTerms _ y second) multiplied
    exact absurd rest (normalize_ne_error rational fun term among => (formed.1 term among).2)

/-- A power is multiplied together unless the degree in some name becomes too large. -/
theorem raiseOnto_eq_error_of_over {fault : Fault} {exponent : ℕ}
    (start : DenotesOver Knows operations settings p f)
    (base : DenotesOver Knows operations settings q g)
    (failed : raiseOnto (multiply operations settings) p q exponent = .error fault) :
    fault = .badArgumentValue ∧
      ∃ name, UInt32.size ≤ degreeOf name f + exponent * degreeOf name g := by
  induction exponent using Nat.strong_induction_on generalizing p q f g with
  | _ exponent inductionHypothesis =>
    rw [raiseOnto_eq] at failed
    split at failed
    · cases failed
    · rename_i positive
      rcases Outcome.bind_eq_error.mp failed with product | ⟨next, multiplied, rest⟩
      · split at product
        · obtain ⟨known, -, -, name, large⟩ :=
            multiply_eq_error_of_over rational apart start base product
          refine ⟨known, name, large.trans (Nat.add_le_add_left ?_ _)⟩
          exact Nat.le_mul_of_pos_left _ (Nat.pos_of_ne_zero positive)
        · cases product
      · -- The last binary digit of the exponent is worth one factor of the base, or none.
        have denotesNext : DenotesOver Knows operations settings next (f * g ^ (exponent % 2)) := by
          split at multiplied
          · rename_i odd
            rw [odd, pow_one]
            exact start.multiply rational apart base multiplied
          · rename_i even
            obtain rfl := Except.ok.inj multiplied
            rwa [Nat.mod_two_ne_one.mp even, pow_zero, mul_one]
        split at rest
        · cases rest
        · rename_i more
          have digits := Nat.mod_add_div exponent 2
          rcases Outcome.bind_eq_error.mp rest with squaring | ⟨square, squared, raising⟩
          · obtain ⟨known, -, -, name, large⟩ :=
              multiply_eq_error_of_over rational apart base base squaring
            refine ⟨known, name, large.trans (le_add_of_nonneg_of_le (Nat.zero_le _) ?_)⟩
            rw [← two_mul]
            exact Nat.mul_le_mul_right _ (by omega)
          · have smaller : exponent / 2 < exponent := by omega
            obtain ⟨known, name, large⟩ := inductionHypothesis _ smaller denotesNext
              (base.multiply rational apart base squared) raising
            refine ⟨known, name, large.trans ?_⟩
            have first : degreeOf name (f * g ^ (exponent % 2)) ≤
                degreeOf name f + exponent % 2 * degreeOf name g :=
              (MvPolynomial.degreeOf_mul_le ..).trans
                (Nat.add_le_add_left (MvPolynomial.degreeOf_pow_le ..) _)
            have second : degreeOf name (g * g) ≤ 2 * degreeOf name g := by
              rw [two_mul]
              exact MvPolynomial.degreeOf_mul_le ..
            calc degreeOf name (f * g ^ (exponent % 2)) + exponent / 2 * degreeOf name (g * g)
                ≤ (degreeOf name f + exponent % 2 * degreeOf name g) +
                    exponent / 2 * (2 * degreeOf name g) :=
                  Nat.add_le_add first (Nat.mul_le_mul_left _ second)
              _ = degreeOf name f + (exponent % 2 + 2 * (exponent / 2)) * degreeOf name g := by ring
              _ = degreeOf name f + exponent * degreeOf name g := by rw [digits]

/-- The polynomial that consists of one denotes one. -/
theorem denotesOver_one :
    DenotesOver Knows operations settings (constant (factors operations) (.ofInt 1)) 1 := by
  have one := denotesOver_ofConstant rational apart (Value.isExact_ofInt 1)
  rwa [Value.rational_ofInt, Int.cast_one, map_one] at one

/-- A power fails only if zero is raised to zero or a degree becomes too large. -/
theorem power_eq_error_of_over {fault : Fault} {exponent : UInt32}
    (base : DenotesOver Knows operations settings p f)
    (defined : exponent ≠ 0 ∨ p.isZero = false)
    (failed : power operations settings p exponent = .error fault) :
    fault = .badArgumentValue ∧ ∃ name, UInt32.size ≤ exponent.toNat * degreeOf name f := by
  have defined' : ¬ (decide (exponent = 0) && p.isZero) = true := by
    rcases defined with apart | apart
    · simp [apart]
    · simp [apart]
  unfold power PolynomialOver.power at failed
  rw [if_neg defined'] at failed
  have one := denotesOver_one rational apart
  obtain ⟨known, name, large⟩ := raiseOnto_eq_error_of_over rational apart one base failed
  rw [MvPolynomial.degreeOf_one, zero_add] at large
  exact ⟨known, name, large⟩

end Products

/-! ## The operations -/

section Operations

/-- A computation that makes polynomials that denote an element, and fails only if no polynomial
does, makes the normal form of the element. -/
theorem eq_ok_iff_denotes {outcome : Outcome Polynomial}
    (sound : ∀ other, outcome = .ok other → Denotes operations settings other f)
    (fails : ∀ fault, outcome = .error fault → ¬ Denotes operations settings result f) :
    outcome = .ok result ↔ Denotes operations settings result f := by
  refine ⟨sound result, fun denotes => ?_⟩
  cases outcome with
  | error fault => exact absurd denotes (fails fault rfl)
  | ok other => rw [(sound other rfl).unique denotes]

variable (rational : operations.AreRational) (sensitive : settings.caseSensitive = true)
include rational sensitive

/-- Polynomials in normal form have no product only if they are not zero and their degrees in some
name are too large together. -/
theorem multiply_eq_error {fault : Fault} (left : Denotes operations settings p f)
    (right : Denotes operations settings q g)
    (failed : multiply operations settings p q = .error fault) :
    fault = .badArgumentValue ∧ f ≠ 0 ∧ g ≠ 0 ∧
      ∃ name, UInt32.size ≤ degreeOf name f + degreeOf name g :=
  multiply_eq_error_of_over rational (distinguishes_of_sensitive sensitive _) left.over right.over
    failed

/-- A power fails only if zero is raised to zero or a degree becomes too large. -/
theorem power_eq_error {fault : Fault} {exponent : UInt32} (base : Denotes operations settings p f)
    (defined : exponent ≠ 0 ∨ p.isZero = false)
    (failed : power operations settings p exponent = .error fault) :
    fault = .badArgumentValue ∧ ∃ name, UInt32.size ≤ exponent.toNat * degreeOf name f :=
  power_eq_error_of_over rational (distinguishes_of_sensitive sensitive _) base.over defined failed

/-- The sum is the normal form of the sum. -/
theorem add_eq_ok_iff (left : Denotes operations settings p f)
    (right : Denotes operations settings q g) :
    add operations settings p q = .ok result ↔ Denotes operations settings result (f + g) :=
  eq_ok_iff_denotes (fun _ => denotes_add rational sensitive left right)
    fun _ failed => absurd failed (add_ne_error rational left right)

/-- The difference is the normal form of the difference. -/
theorem subtract_eq_ok_iff (left : Denotes operations settings p f)
    (right : Denotes operations settings q g) :
    subtract operations settings p q = .ok result ↔ Denotes operations settings result (f - g) :=
  eq_ok_iff_denotes (fun _ => denotes_subtract rational sensitive left right)
    fun _ failed => absurd failed (subtract_ne_error rational left right)

/-- The product is the normal form of the product, if that has one. -/
theorem multiply_eq_ok_iff (left : Denotes operations settings p f)
    (right : Denotes operations settings q g) :
    multiply operations settings p q = .ok result ↔ Denotes operations settings result (f * g) := by
  refine eq_ok_iff_denotes (fun _ => denotes_multiply rational sensitive left right) ?_
  intro fault failed denotes
  obtain ⟨-, nonzero, nonzeroOther, name, large⟩ :=
    multiply_eq_error rational sensitive left right failed
  have degree := denotes.degreeOf_lt name
  rw [MvPolynomial.degreeOf_mul_eq nonzero nonzeroOther] at degree
  omega

/-- The power is the normal form of the power, if that has one. -/
theorem power_eq_ok_iff {exponent : UInt32} (base : Denotes operations settings p f)
    (defined : exponent ≠ 0 ∨ p.isZero = false) :
    power operations settings p exponent = .ok result ↔
      Denotes operations settings result (f ^ exponent.toNat) := by
  refine eq_ok_iff_denotes (fun _ => denotes_power rational sensitive base) ?_
  intro fault failed denotes
  obtain ⟨-, name, large⟩ := power_eq_error rational sensitive base defined failed
  have degree := denotes.degreeOf_lt name
  by_cases zero : f = 0
  · rw [zero, MvPolynomial.degreeOf_zero, Nat.mul_zero] at large
    exact absurd large (by decide)
  · rw [MvPolynomial.degreeOf_pow_eq _ _ _ zero] at degree
    omega

end Operations

/-! ## The laws -/

/-- The laws of a commutative ring, as equalities of polynomials in normal form. A calculation that
fails on one side of a law fails on the other side, too, in the same way. -/
structure RingLaws (operations : Operations) (settings : Preferences) : Prop where
  /-- There always is a sum, and its order does not matter. -/
  add_comm {p q : Polynomial} (left : IsCanonical operations settings p)
    (right : IsCanonical operations settings q) :
    ∃ sum, IsCanonical operations settings sum ∧
      add operations settings p q = .ok sum ∧ add operations settings q p = .ok sum
  /-- Sums may be formed in any grouping. -/
  add_assoc {p q r : Polynomial} (first : IsCanonical operations settings p)
    (second : IsCanonical operations settings q) (third : IsCanonical operations settings r) :
    (add operations settings p q >>= fun sum => add operations settings sum r) =
      (add operations settings q r >>= fun sum => add operations settings p sum)
  /-- The order of a product does not matter. -/
  multiply_comm {p q : Polynomial} (left : IsCanonical operations settings p)
    (right : IsCanonical operations settings q) :
    multiply operations settings p q = multiply operations settings q p
  /-- Products may be formed in any grouping. -/
  multiply_assoc {p q r s t : Polynomial} (first : IsCanonical operations settings p)
    (second : IsCanonical operations settings q) (third : IsCanonical operations settings r)
    (front : multiply operations settings p q = .ok s)
    (back : multiply operations settings q r = .ok t) :
    multiply operations settings s r = multiply operations settings p t
  /-- A product with a sum is the sum of the products. -/
  multiply_add {p q r s t : Polynomial} (first : IsCanonical operations settings p)
    (second : IsCanonical operations settings q) (third : IsCanonical operations settings r)
    (front : multiply operations settings p q = .ok s)
    (back : multiply operations settings p r = .ok t) :
    (add operations settings q r >>= fun sum => multiply operations settings p sum) =
      add operations settings s t
  /-- The difference of a polynomial and itself has no terms. -/
  subtract_self {p : Polynomial} (canonical : IsCanonical operations settings p) :
    subtract operations settings p p = .ok .zero
  /-- A power with the sum of two exponents is the product of both powers. -/
  power_add {p : Polynomial} {m n : UInt32} (canonical : IsCanonical operations settings p)
    (nonzero : p ≠ .zero) (fits : m.toNat + n.toNat < UInt32.size) :
    power operations settings p (m + n) =
      (power operations settings p m >>= fun first =>
        power operations settings p n >>= fun second => multiply operations settings first second)

section Laws

variable (rational : operations.AreRational) (sensitive : settings.caseSensitive = true)
include rational sensitive

/-- There always is a sum. -/
theorem exists_add (left : Denotes operations settings p f)
    (right : Denotes operations settings q g) :
    ∃ sum, add operations settings p q = .ok sum ∧ Denotes operations settings sum (f + g) := by
  cases sum : add operations settings p q with
  | error fault => exact absurd sum (add_ne_error rational left right)
  | ok result => exact ⟨result, rfl, denotes_add rational sensitive left right sum⟩

/-- Products of the same elements are the same. -/
theorem multiply_congr {p' q' : Polynomial} {f' g' : MvPolynomial Symbol ℚ}
    (left : Denotes operations settings p f) (right : Denotes operations settings q g)
    (left' : Denotes operations settings p' f') (right' : Denotes operations settings q' g')
    (same : f * g = f' * g') :
    multiply operations settings p q = multiply operations settings p' q' := by
  refine Outcome.eq_of_results .badArgumentValue (fun _ failed => ?_) (fun _ failed => ?_)
    fun result => ?_
  · exact (multiply_eq_error rational sensitive left right failed).1
  · exact (multiply_eq_error rational sensitive left' right' failed).1
  · rw [multiply_eq_ok_iff rational sensitive left right,
      multiply_eq_ok_iff rational sensitive left' right', same]

omit rational sensitive in
/-- The polynomial without terms denotes zero. -/
theorem denotes_zero : Denotes operations settings .zero 0 where
  normal := {
    names := List.Pairwise.nil
    aligned := by simp [rows, zero]
    descend := by simp [rows, zero]
    used := by simp [zero]
    nonzero := by simp [zero] }
  exact := List.forall_mem_nil _
  element := rfl

omit rational sensitive in
/-- A polynomial in normal form that is not the one without terms has terms and does not denote
zero. -/
theorem Denotes.nonzero (denotes : Denotes operations settings p f) (apart : p ≠ .zero) :
    p.isZero = false ∧ f ≠ 0 := by
  have nonzero : f ≠ 0 := by
    rintro rfl
    exact apart (denotes.unique denotes_zero)
  refine ⟨?_, nonzero⟩
  rw [PolynomialOver.isZero, List.isEmpty_eq_false_iff]
  intro none
  rw [← denotes.element, Polynomial.element, none] at nonzero
  exact nonzero rfl

/-- There is a power, unless the degree in some name becomes too large. -/
theorem exists_power {exponent : UInt32} (base : Denotes operations settings p f)
    (defined : p.isZero = false)
    (small : ∀ name, exponent.toNat * degreeOf name f < UInt32.size) :
    ∃ result, power operations settings p exponent = .ok result := by
  cases power : power operations settings p exponent with
  | error fault =>
    obtain ⟨-, name, large⟩ := power_eq_error rational sensitive base (.inr defined) power
    exact absurd (small name) (not_lt.mpr large)
  | ok result => exact ⟨result, rfl⟩

/-- A power of a polynomial with terms with the sum of two exponents is the product of both
powers. -/
theorem power_add {m n : UInt32} (base : Denotes operations settings p f) (apart : p ≠ .zero)
    (fits : m.toNat + n.toNat < UInt32.size) :
    power operations settings p (m + n) =
      (power operations settings p m >>= fun first =>
        power operations settings p n >>= fun second =>
          multiply operations settings first second) := by
  obtain ⟨defined, nonzero⟩ := base.nonzero apart
  have sum : (m + n).toNat = m.toNat + n.toNat := by rw [UInt32.toNat_add, Nat.mod_eq_of_lt fits]
  have fails (exponent : UInt32) (other : Fault)
      (failed : power operations settings p exponent = .error other) : other = .badArgumentValue :=
    (power_eq_error rational sensitive base (.inr defined) failed).1
  refine Outcome.eq_of_results .badArgumentValue (fails _) (fun other failed => ?_) fun result => ?_
  · rcases Outcome.bind_eq_error.mp failed with first | ⟨s, raised, rest⟩
    · exact fails m other first
    · rcases Outcome.bind_eq_error.mp rest with second | ⟨t, raisedOther, product⟩
      · exact fails n other second
      · exact (multiply_eq_error rational sensitive (denotes_power rational sensitive base raised)
          (denotes_power rational sensitive base raisedOther) product).1
  · rw [power_eq_ok_iff rational sensitive base (.inr defined), sum, pow_add]
    constructor
    · intro denotes
      have degrees (name : Symbol) :
          m.toNat * degreeOf name f + n.toNat * degreeOf name f < UInt32.size := by
        have degree := denotes.degreeOf_lt name
        rwa [← pow_add, MvPolynomial.degreeOf_pow_eq _ _ _ nonzero, add_mul] at degree
      obtain ⟨s, raised⟩ := exists_power rational sensitive base defined fun name =>
        (Nat.le_add_right _ _).trans_lt (degrees name)
      obtain ⟨t, raisedOther⟩ := exists_power rational sensitive base defined fun name =>
        (Nat.le_add_left _ _).trans_lt (degrees name)
      rw [raised, raisedOther, Outcome.ok_bind, Outcome.ok_bind,
        multiply_eq_ok_iff rational sensitive (denotes_power rational sensitive base raised)
          (denotes_power rational sensitive base raisedOther)]
      exact denotes
    · intro done
      obtain ⟨s, raised, rest⟩ := Outcome.bind_eq_ok.mp done
      obtain ⟨t, raisedOther, product⟩ := Outcome.bind_eq_ok.mp rest
      exact denotes_multiply rational sensitive (denotes_power rational sensitive base raised)
        (denotes_power rational sensitive base raisedOther) product

/-- The operations on polynomials obey the laws of the ring. -/
theorem ringLaws : RingLaws operations settings where
  add_comm left right := by
    obtain ⟨sum, added, denotes⟩ := exists_add rational sensitive left.denotes right.denotes
    refine ⟨sum, denotes.toIsCanonical, added, ?_⟩
    rwa [add_eq_ok_iff rational sensitive right.denotes left.denotes, add_comm]
  add_assoc {p q r} first second third := by
    obtain ⟨s, front, denotesFront⟩ := exists_add rational sensitive first.denotes second.denotes
    obtain ⟨t, back, denotesBack⟩ := exists_add rational sensitive second.denotes third.denotes
    obtain ⟨u, whole, denotes⟩ := exists_add rational sensitive denotesFront third.denotes
    rw [front, back, Outcome.ok_bind, Outcome.ok_bind, whole, eq_comm,
      add_eq_ok_iff rational sensitive first.denotes denotesBack, ← add_assoc]
    exact denotes
  multiply_comm left right :=
    multiply_congr rational sensitive left.denotes right.denotes right.denotes left.denotes
      (mul_comm _ _)
  multiply_assoc first second third front back :=
    multiply_congr rational sensitive
      (denotes_multiply rational sensitive first.denotes second.denotes front) third.denotes
      first.denotes (denotes_multiply rational sensitive second.denotes third.denotes back)
      (mul_assoc _ _ _)
  multiply_add {p q r s t} first second third front back := by
    have left := denotes_multiply rational sensitive first.denotes second.denotes front
    have right := denotes_multiply rational sensitive first.denotes third.denotes back
    obtain ⟨u, sum, denotes⟩ := exists_add rational sensitive second.denotes third.denotes
    obtain ⟨v, whole, denotesWhole⟩ := exists_add rational sensitive left right
    rw [sum, Outcome.ok_bind, whole, multiply_eq_ok_iff rational sensitive first.denotes denotes,
      mul_add]
    exact denotesWhole
  subtract_self canonical := by
    rw [subtract_eq_ok_iff rational sensitive canonical.denotes canonical.denotes, sub_self]
    exact denotes_zero
  power_add canonical := power_add rational sensitive canonical.denotes

end Laws

end Polynomial

end Calculator
