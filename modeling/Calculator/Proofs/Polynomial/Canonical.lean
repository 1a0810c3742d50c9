import Calculator.Proofs.Polynomial.Element
import Mathlib

/-!
# The normal form is canonical

A row of exponents over names without repetition is a monomial, and no other row over these names is
the same monomial. So the terms of a polynomial in normal form are the monomials of the element that
it denotes, with their coefficients for factors, and its names are those that some monomial has. Two
polynomials in normal form that denote the same element have the same names and the same terms, and
since both stand in descending order they are equal.
-/

namespace Calculator

namespace Polynomial

open MvPolynomial (coeff degreeOf)
open PolynomialOver

/-! ## Monomials -/

/-- The powers of all names in a row of exponents. -/
noncomputable def powers : List Symbol → List UInt32 → Symbol →₀ ℕ
  | name :: names, exponent :: exponents =>
      Finsupp.single name exponent.toNat + powers names exponents
  | _, _ => 0

variable {names : List Symbol} {exponents others : List UInt32}

/-- A name that is not in the row has no power. -/
theorem powers_of_not_mem {name : Symbol} (absent : name ∉ names) :
    powers names exponents name = 0 := by
  induction names generalizing exponents with
  | nil => rfl
  | cons first names inductionHypothesis =>
    cases exponents with
    | nil => rfl
    | cons exponent exponents =>
      have apart := List.ne_of_not_mem_cons absent
      rw [powers, Finsupp.add_apply, inductionHypothesis (List.not_mem_of_not_mem_cons absent),
        Finsupp.single_eq_of_ne apart]

/-- The name at a place has the exponent at that place. -/
theorem powers_getElem (distinct : names.Nodup) (aligned : exponents.length = names.length)
    {place : ℕ} (inside : place < names.length) :
    powers names exponents names[place] = (exponents.getD place 0).toNat := by
  induction names generalizing exponents place with
  | nil => cases inside
  | cons first names inductionHypothesis =>
    obtain ⟨exponent, exponents, rfl⟩ := List.exists_cons_of_length_eq_add_one aligned
    obtain ⟨absent, rest⟩ := List.nodup_cons.mp distinct
    rw [powers, Finsupp.add_apply]
    cases place with
    | zero => simp [powers_of_not_mem absent]
    | succ place =>
      have within : place < names.length := Nat.lt_of_succ_lt_succ inside
      have apart : names[place] ≠ first := fun same => absent (same ▸ List.getElem_mem within)
      have tail := inductionHypothesis rest (Nat.succ.inj aligned) within
      simpa [Finsupp.single_eq_of_ne apart] using tail

/-- Different rows of exponents have different powers. -/
theorem powers_injective (distinct : names.Nodup) (aligned : exponents.length = names.length)
    (alignedOther : others.length = names.length)
    (same : powers names exponents = powers names others) : exponents = others := by
  refine List.ext_getElem (aligned.trans alignedOther.symm) fun place inside insideOther => ?_
  have within : place < names.length := aligned ▸ inside
  have powered := congrArg (· names[place]) same
  simp only [powers_getElem distinct aligned within, powers_getElem distinct alignedOther within,
    List.getD_eq_getElem _ _ inside, List.getD_eq_getElem _ _ insideOther] at powered
  exact UInt32.toNat_inj.mp powered

/-- A row of exponents stands for the monomial of its powers. -/
theorem monomial_eq (names : List Symbol) (exponents : List UInt32) :
    elementReading.monomial names exponents = MvPolynomial.monomial (powers names exponents) 1 := by
  induction names generalizing exponents with
  | nil => rfl
  | cons name names inductionHypothesis =>
    cases exponents with
    | nil => rfl
    | cons exponent exponents =>
      rw [Reading.monomial, inductionHypothesis, powers]
      have power : elementReading.name name ^ exponent.toNat =
          MvPolynomial.monomial (Finsupp.single name exponent.toNat) 1 :=
        MvPolynomial.X_pow_eq_monomial
      rw [power, MvPolynomial.monomial_mul, one_mul]

/-- A term stands for its factor times the monomial. -/
theorem term_eq (names : List Symbol) (term : Term Value) :
    elementReading.term names term =
      MvPolynomial.monomial (powers names term.exponents) term.factor.rational := by
  rw [Reading.term, monomial_eq]
  exact (MvPolynomial.C_mul_monomial ..).trans (by rw [mul_one])

/-! ## Coefficients -/

/-- Only terms with the powers of a monomial add to its coefficient. -/
theorem exists_of_coeff_sum {terms : List (Term Value)} {m : Symbol →₀ ℕ}
    (nonzero : coeff m (elementReading.sum names terms) ≠ 0) :
    ∃ term ∈ terms, powers names term.exponents = m := by
  induction terms with
  | nil => exact absurd (MvPolynomial.coeff_zero m) nonzero
  | cons term terms inductionHypothesis =>
    by_cases here : powers names term.exponents = m
    · exact ⟨term, List.mem_cons_self, here⟩
    · rw [Reading.sum_cons, MvPolynomial.coeff_add, term_eq, MvPolynomial.coeff_monomial,
        if_neg here, zero_add] at nonzero
      obtain ⟨other, among, same⟩ := inductionHypothesis nonzero
      exact ⟨other, List.mem_cons_of_mem term among, same⟩

/-- The coefficient of a term's monomial is its factor, if no two terms are alike. -/
theorem coeff_sum_of_mem {terms : List (Term Value)} (distinct : names.Nodup)
    (aligned : ∀ term ∈ terms, term.exponents.length = names.length)
    (unlike : terms.Pairwise fun left right => left.exponents ≠ right.exponents)
    {term : Term Value} (among : term ∈ terms) :
    coeff (powers names term.exponents) (elementReading.sum names terms) =
      term.factor.rational := by
  induction terms with
  | nil => cases among
  | cons first terms inductionHypothesis =>
    obtain ⟨apart, unlikeRest⟩ := List.pairwise_cons.mp unlike
    obtain ⟨alignedFirst, alignedRest⟩ := List.forall_mem_cons.mp aligned
    rw [Reading.sum_cons, MvPolynomial.coeff_add, term_eq, MvPolynomial.coeff_monomial]
    rcases List.mem_cons.mp among with rfl | later
    · -- No other term has the same powers.
      have none : coeff (powers names term.exponents) (elementReading.sum names terms) = 0 := by
        by_contra nonzero
        obtain ⟨other, listed, same⟩ := exists_of_coeff_sum nonzero
        exact apart other listed
          (powers_injective distinct (alignedRest other listed) alignedFirst same).symm
      rw [if_pos rfl, none, add_zero]
    · have different : powers names first.exponents ≠ powers names term.exponents := fun same =>
        apart term later (powers_injective distinct alignedFirst (alignedRest term later) same)
      rw [if_neg different, zero_add]
      exact inductionHypothesis alignedRest unlikeRest later

/-! ## Uniqueness -/

variable {operations : Operations} {settings : Preferences} {p q : Polynomial}
variable {f : MvPolynomial Symbol ℚ}

/-- Names in descending order do not repeat. -/
theorem nodup_of_namesDescend {caseSensitive : Bool} (descend : NamesDescend caseSensitive names) :
    names.Nodup := by
  refine descend.imp ?_
  rintro name _ above rfl
  have self : name.compare name caseSensitive = .eq :=
    @Std.ReflCmp.compare_self _ (fun left right : Symbol => left.compare right caseSensitive) _ _
  rw [self] at above
  cases above

/-- No two terms of a polynomial in normal form are alike. -/
theorem Denotes.unlike (denotes : Denotes operations settings p f) :
    p.terms.Pairwise fun left right => left.exponents ≠ right.exponents := by
  refine (List.pairwise_map.mp denotes.normal.descend).imp fun {left right} above same => ?_
  rw [same, @Std.ReflCmp.compare_self _ orderExponents] at above
  cases above

/-- The factor of a term is the coefficient of its monomial, which is not zero. -/
theorem Denotes.coeff_of_mem (denotes : Denotes operations settings p f) {term : Term Value}
    (among : term ∈ p.terms) :
    coeff (powers p.names term.exponents) f = term.factor.rational ∧ term.factor.rational ≠ 0 := by
  refine ⟨?_, fun zero => ?_⟩
  · rw [← denotes.element]
    exact coeff_sum_of_mem (nodup_of_namesDescend denotes.normal.names) denotes.means.aligned
      denotes.unlike among
  · have isZero := (Value.isZero_iff (denotes.exact term among)).mpr zero
    exact Bool.false_ne_true ((denotes.normal.nonzero term among).symm.trans isZero)

/-- Every monomial of the element is that of a term. -/
theorem Denotes.exists_of_coeff (denotes : Denotes operations settings p f) {m : Symbol →₀ ℕ}
    (nonzero : coeff m f ≠ 0) : ∃ term ∈ p.terms, powers p.names term.exponents = m := by
  rw [← denotes.element] at nonzero
  exact exists_of_coeff_sum nonzero

/-- The names are those that some monomial of the element has. -/
theorem Denotes.mem_names (denotes : Denotes operations settings p f) (name : Symbol) :
    name ∈ p.names ↔ ∃ m, coeff m f ≠ 0 ∧ m name ≠ 0 := by
  have distinct := nodup_of_namesDescend denotes.normal.names
  constructor
  · intro among
    obtain ⟨place, inside, rfl⟩ := List.mem_iff_getElem.mp among
    obtain ⟨row, listed, positive⟩ := denotes.normal.used place inside
    obtain ⟨term, found, rfl⟩ := List.mem_map.mp listed
    obtain ⟨coefficient, nonzero⟩ := denotes.coeff_of_mem found
    refine ⟨_, coefficient ▸ nonzero, ?_⟩
    rw [powers_getElem distinct (denotes.means.aligned term found) inside]
    exact (UInt32.lt_iff_toNat_lt.mp positive).ne'
  · rintro ⟨m, nonzero, power⟩
    obtain ⟨term, -, rfl⟩ := denotes.exists_of_coeff nonzero
    by_contra absent
    exact power (powers_of_not_mem absent)

/-- Rows that descend are equal if they have the same members. -/
theorem eq_of_descend {Item Key : Type} {order : Key → Key → Ordering} [Std.OrientedCmp order]
    (key : Item → Key) {first second : List Item}
    (descend : first.Pairwise fun left right => order (key left) (key right) = .gt)
    (descendOther : second.Pairwise fun left right => order (key left) (key right) = .gt)
    (same : ∀ item, item ∈ first ↔ item ∈ second) : first = second := by
  have asymmetric (left right : Item) (above : order (key left) (key right) = .gt) :
      order (key right) (key left) ≠ .gt := by
    rw [@Std.OrientedCmp.eq_swap _ order, above]
    decide
  have antisymmetric : Std.Antisymm fun left right => order (key left) (key right) = .gt :=
    ⟨fun left right above below => absurd below (asymmetric left right above)⟩
  have irreflexive : Std.Irrefl fun left right => order (key left) (key right) = .gt :=
    ⟨fun item above => asymmetric item item above above⟩
  exact descend.eq_of_mem_iff descendOther same

/-- The terms of a polynomial in normal form are among those of any other one with the same names
that denotes the same element. -/
theorem Denotes.mem_terms (first : Denotes operations settings p f)
    (second : Denotes operations settings q f) (names : p.names = q.names) {term : Term Value}
    (among : term ∈ p.terms) : term ∈ q.terms := by
  obtain ⟨coefficient, nonzero⟩ := first.coeff_of_mem among
  obtain ⟨other, listed, same⟩ := second.exists_of_coeff (coefficient.trans_ne nonzero)
  rw [← names] at same
  have exponents : other.exponents = term.exponents :=
    powers_injective (nodup_of_namesDescend first.normal.names)
      ((second.means.aligned other listed).trans (congrArg List.length names.symm))
      (first.means.aligned term among) same
  have factors : other.factor = term.factor := by
    have value := (second.coeff_of_mem listed).1
    rw [← names, same, coefficient] at value
    rw [← Value.ofRational_rational (second.exact other listed), ← value,
      Value.ofRational_rational (first.exact term among)]
  have equal : other = term := by
    cases other
    cases term
    simp_all only
  exact equal ▸ listed

/-- Polynomials in normal form that denote the same element are equal. -/
theorem Denotes.unique (first : Denotes operations settings p f)
    (second : Denotes operations settings q f) : p = q := by
  have names : p.names = q.names := by
    refine @eq_of_descend _ _ (fun left right : Symbol => left.compare right settings.caseSensitive)
      _ id _ _ first.normal.names second.normal.names fun name => ?_
    rw [first.mem_names, second.mem_names]
  have terms : p.terms = q.terms := by
    refine eq_of_descend Term.exponents (List.pairwise_map.mp first.normal.descend)
      (List.pairwise_map.mp second.normal.descend) fun term => ⟨?_, ?_⟩
    · exact first.mem_terms second names
    · exact second.mem_terms first names.symm
  cases p
  cases q
  rw [PolynomialOver.mk.injEq]
  exact ⟨names, terms⟩

end Polynomial

end Calculator
