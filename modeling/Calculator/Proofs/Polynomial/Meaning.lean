import Calculator.Proofs.Polynomial.Normal
import Mathlib

/-!
# What polynomials stand for

Where factors and names stand for elements of a commutative ring, so does a polynomial: for the sum
of its terms, each of which is its factor times powers of the names. To merge names, to sort and
combine terms and to leave out what is zero does not change that, so wherever the operations on
polynomials have a result, they are the operations of the ring, as long as those on factors are.
-/

namespace Calculator

namespace PolynomialOver

variable {Factor R : Type}

/-- What factors and names stand for, as far as they are understood. -/
structure Reading (Factor R : Type) where
  /-- The element that a factor stands for. -/
  factor : Factor → R
  /-- The element that a name stands for. -/
  name : Symbol → R
  /-- Whether a factor is understood. -/
  Reads : Factor → Prop
  /-- Whether a name is understood. -/
  Knows : Symbol → Prop

namespace Reading

variable [CommRing R] (reading : Reading Factor R)

/-- The product of powers of names. -/
def monomial : List Symbol → List UInt32 → R
  | name :: names, exponent :: exponents =>
    reading.name name ^ exponent.toNat * monomial names exponents
  | _, _ => 1

/-- The product of a factor and powers of names. -/
def term (names : List Symbol) (term : Term Factor) : R :=
  reading.factor term.factor * reading.monomial names term.exponents

/-- The sum of terms. -/
def sum (names : List Symbol) (terms : List (Term Factor)) : R :=
  (terms.map (reading.term names)).sum

/-- Whether the arithmetic of factors is that of the ring, where it has a result. -/
structure Respects (operations : FactorOperations Factor) (caseSensitive : Bool) : Prop where
  add {x y z} (left : reading.Reads x) (right : reading.Reads y)
    (done : operations.add x y = .ok z) :
    reading.Reads z ∧ reading.factor z = reading.factor x + reading.factor y
  multiply {x y z} (left : reading.Reads x) (right : reading.Reads y)
    (done : operations.multiply x y = .ok z) :
    reading.Reads z ∧ reading.factor z = reading.factor x * reading.factor y
  negate {x z} (reads : reading.Reads x) (done : operations.negate x = .ok z) :
    reading.Reads z ∧ reading.factor z = -reading.factor x
  isZero {x} (reads : reading.Reads x) (zero : operations.isZero x = true) : reading.factor x = 0
  name {x y} (left : reading.Knows x) (right : reading.Knows y)
    (same : x.compare y caseSensitive = .eq) : reading.name x = reading.name y

/-- An orderly polynomial of factors and names that are understood, and what it stands for. -/
structure Means (caseSensitive : Bool) (p : PolynomialOver Factor) (value : R) : Prop where
  orderly : Orderly caseSensitive p
  factors : ∀ term ∈ p.terms, reading.Reads term.factor
  names : ∀ name ∈ p.names, reading.Knows name
  value : reading.sum p.names p.terms = value

section Sums

variable {reading}

@[simp]
theorem sum_nil (names : List Symbol) : reading.sum names [] = 0 := rfl

@[simp]
theorem sum_cons (names : List Symbol) (term : Term Factor) (terms : List (Term Factor)) :
    reading.sum names (term :: terms) = reading.term names term + reading.sum names terms := rfl

@[simp]
theorem sum_append (names : List Symbol) (left right : List (Term Factor)) :
    reading.sum names (left ++ right) = reading.sum names left + reading.sum names right := by
  rw [sum, sum, sum, List.map_append, List.sum_append]

/-- The order of terms does not matter. -/
theorem sum_sortTerms (names : List Symbol) (terms : List (Term Factor)) :
    reading.sum names (sortTerms terms) = reading.sum names terms :=
  ((List.mergeSort_perm terms _).map (reading.term names)).sum_eq

/-- Terms may be put in another form that stands for the same. -/
theorem sum_map {names names' : List Symbol} {form : Term Factor → Term Factor}
    {terms : List (Term Factor)}
    (same : ∀ term ∈ terms, reading.term names' (form term) = reading.term names term) :
    reading.sum names' (terms.map form) = reading.sum names terms := by
  rw [sum, sum, List.map_map]
  exact congrArg List.sum (List.map_congr_left same)

end Sums

/-! ## Names -/

section Names

variable {reading} {caseSensitive : Bool}

/-- Exponents that are spread over more names have the same product, if the names at the marked
places stand for what their own names do. -/
theorem monomial_spread {marks : List Bool} {names own : List Symbol} {exponents : List UInt32}
    (length : names.length = marks.length) (aligned : exponents.length = own.length)
    (same : List.Forall₂ (fun name other => reading.name name = reading.name other)
      (select marks names) own) :
    reading.monomial names (spread marks exponents) = reading.monomial own exponents := by
  induction marks generalizing names own exponents with
  | nil =>
    obtain rfl := List.eq_nil_of_length_eq_zero length
    obtain rfl : own = [] := by cases same; rfl
    rfl
  | cons mark marks inductionHypothesis =>
    obtain ⟨name, names, rfl⟩ := List.exists_cons_of_length_eq_add_one length
    cases mark with
    | true =>
      cases same with
      | cons first rest =>
        obtain ⟨exponent, exponents, rfl⟩ := List.exists_cons_of_length_eq_add_one aligned
        rw [spread, monomial, monomial, first,
          inductionHypothesis (Nat.succ.inj length) (Nat.succ.inj aligned) rest]
    | false =>
      have zero : spread (false :: marks) exponents = 0 :: spread marks exponents := by
        rw [spread]
        nofun
      rw [zero, monomial, UInt32.toNat_zero, pow_zero, one_mul]
      exact inductionHypothesis (Nat.succ.inj length) aligned same

/-- Exponents of which some are left out have the same product, if those were zero. -/
theorem monomial_select {marks : List Bool} {names : List Symbol} {exponents : List UInt32}
    (length : names.length = marks.length) (aligned : exponents.length = marks.length)
    (zero : ∀ place : ℕ, marks[place]? = some false → exponents[place]? = some 0) :
    reading.monomial (select marks names) (select marks exponents) =
      reading.monomial names exponents := by
  induction marks generalizing names exponents with
  | nil =>
    obtain rfl := List.eq_nil_of_length_eq_zero length
    rfl
  | cons mark marks inductionHypothesis =>
    obtain ⟨name, names, rfl⟩ := List.exists_cons_of_length_eq_add_one length
    obtain ⟨exponent, exponents, rfl⟩ := List.exists_cons_of_length_eq_add_one aligned
    have rest := inductionHypothesis (Nat.succ.inj length) (Nat.succ.inj aligned)
      fun place unmarked => zero (place + 1) unmarked
    cases mark with
    | true => rw [select, select, monomial, monomial, rest]
    | false =>
      obtain rfl : exponent = 0 := Option.some.inj (zero 0 rfl)
      rw [select, select, monomial, rest, UInt32.toNat_zero, pow_zero, one_mul]

/-- The marks of the first row are at its names. -/
theorem select_mergeVariables_left (xs ys : List Symbol) :
    select ((mergeVariables caseSensitive xs ys).map fun entry => entry.2.1)
      ((mergeVariables caseSensitive xs ys).map Prod.fst) = xs := by
  fun_induction mergeVariables caseSensitive xs ys <;>
    simp_all only [List.map_nil, List.map_cons, select]

variable {operations : FactorOperations Factor}

/-- The marks of the second row are at names that stand for what its own names do. -/
theorem select_mergeVariables_right (respects : reading.Respects operations caseSensitive)
    {xs ys : List Symbol} (left : ∀ x ∈ xs, reading.Knows x) (right : ∀ y ∈ ys, reading.Knows y) :
    List.Forall₂ (fun name other => reading.name name = reading.name other)
      (select ((mergeVariables caseSensitive xs ys).map fun entry => entry.2.2)
        ((mergeVariables caseSensitive xs ys).map Prod.fst)) ys := by
  fun_induction mergeVariables caseSensitive xs ys with
  | case1 => exact .nil
  | case2 x xs inductionHypothesis =>
    exact inductionHypothesis (List.forall_mem_cons.mp left).2 right
  | case3 y ys inductionHypothesis =>
    exact .cons rfl (inductionHypothesis left (List.forall_mem_cons.mp right).2)
  | case4 x xs y ys order inductionHypothesis =>
    exact inductionHypothesis (List.forall_mem_cons.mp left).2 right
  | case5 x xs y ys order inductionHypothesis =>
    exact .cons rfl (inductionHypothesis left (List.forall_mem_cons.mp right).2)
  | case6 x xs y ys order inductionHypothesis =>
    obtain ⟨first, lefts⟩ := List.forall_mem_cons.mp left
    obtain ⟨second, rights⟩ := List.forall_mem_cons.mp right
    exact .cons (respects.name first second order) (inductionHypothesis lefts rights)

/-- Over a merged row of names, terms over the first row stand for what they did. -/
theorem sum_spreadTerms_left {xs ys : List Symbol} {terms : List (Term Factor)}
    (aligned : ∀ term ∈ terms, term.exponents.length = xs.length) :
    reading.sum ((mergeVariables caseSensitive xs ys).map Prod.fst)
        (spreadTerms ((mergeVariables caseSensitive xs ys).map fun entry => entry.2.1) terms) =
      reading.sum xs terms := by
  refine sum_map fun term among => congrArg (reading.factor term.factor * ·) ?_
  refine monomial_spread (by simp) (aligned term among) ?_
  rw [select_mergeVariables_left]
  exact List.forall₂_same.mpr fun _ _ => rfl

/-- Over a merged row of names, terms over the second row stand for what they did. -/
theorem sum_spreadTerms_right (respects : reading.Respects operations caseSensitive)
    {xs ys : List Symbol} (left : ∀ x ∈ xs, reading.Knows x) (right : ∀ y ∈ ys, reading.Knows y)
    {terms : List (Term Factor)} (aligned : ∀ term ∈ terms, term.exponents.length = ys.length) :
    reading.sum ((mergeVariables caseSensitive xs ys).map Prod.fst)
        (spreadTerms ((mergeVariables caseSensitive xs ys).map fun entry => entry.2.2) terms) =
      reading.sum ys terms := by
  refine sum_map fun term among => congrArg (reading.factor term.factor * ·) ?_
  exact monomial_spread (by simp) (aligned term among)
    (select_mergeVariables_right respects left right)

end Names

/-! ## Terms -/

section Terms

variable {reading} {operations : FactorOperations Factor} {caseSensitive : Bool}
variable (respects : reading.Respects operations caseSensitive)
include respects

/-- Like terms may be added. -/
theorem sum_combineOnto {names : List Symbol} {last : Term Factor} {terms combined : List (Term Factor)}
    (all : ∀ term ∈ last :: terms, reading.Reads term.factor)
    (done : combineOnto operations last terms = .ok combined) :
    reading.sum names combined = reading.sum names (last :: terms) := by
  induction terms generalizing last combined with
  | nil =>
    obtain rfl : [last] = combined := Except.ok.inj done
    rfl
  | cons term terms inductionHypothesis =>
    obtain ⟨reads, rest⟩ := List.forall_mem_cons.mp all
    rw [combineOnto] at done
    split at done
    · rename_i like
      obtain ⟨factor, added, combinedRest⟩ := Outcome.bind_eq_ok.mp done
      obtain ⟨readsSum, sum⟩ := respects.add reads (rest term List.mem_cons_self) added
      rw [inductionHypothesis (List.forall_mem_cons.mpr ⟨readsSum, (List.forall_mem_cons.mp rest).2⟩)
        combinedRest, sum_cons, sum_cons, sum_cons, ← add_assoc]
      rw [Reading.term, Reading.term, Reading.term, sum, ← like, add_mul]
    · obtain ⟨others, combinedRest, same⟩ := Outcome.bind_eq_ok.mp done
      obtain rfl : last :: others = combined := Except.ok.inj same
      rw [sum_cons, sum_cons, inductionHypothesis rest combinedRest]

/-- Terms that are zero may be left out. -/
theorem sum_filter {names : List Symbol} {terms : List (Term Factor)}
    (all : ∀ term ∈ terms, reading.Reads term.factor) :
    reading.sum names (terms.filter fun term => !operations.isZero term.factor) =
      reading.sum names terms := by
  induction terms with
  | nil => rfl
  | cons term terms inductionHypothesis =>
    obtain ⟨reads, rest⟩ := List.forall_mem_cons.mp all
    rw [List.filter_cons, sum_cons]
    cases zero : operations.isZero term.factor with
    | false => rw [Bool.not_false, if_pos rfl, sum_cons, inductionHypothesis rest]
    | true =>
      rw [Bool.not_true, if_neg Bool.false_ne_true, inductionHypothesis rest, Reading.term,
        respects.isZero reads zero, zero_mul, zero_add]

/-- Sorted and combined, terms stand for what they did. -/
theorem sum_combine {names : List Symbol} {terms combined : List (Term Factor)}
    (all : ∀ term ∈ terms, reading.Reads term.factor)
    (done : combine operations (sortTerms terms) = .ok combined) :
    (∀ term ∈ combined, reading.Reads term.factor) ∧
      reading.sum names combined = reading.sum names terms := by
  have sorted : ∀ term ∈ sortTerms terms, reading.Reads term.factor :=
    fun term among => all term (List.mem_mergeSort.mp among)
  rw [← sum_sortTerms names terms]
  cases order : sortTerms terms with
  | nil =>
    rw [order] at done
    obtain rfl : [] = combined := Except.ok.inj done
    exact ⟨fun _ none => (nomatch none), rfl⟩
  | cons first others =>
    rw [order] at done sorted
    exact ⟨combineOnto_factors reading.Reads (fun left right added =>
      (respects.add left right added).1) sorted done, sum_combineOnto respects sorted done⟩

/-- A normal form stands for what its terms did. -/
theorem sum_normalize {names : List Symbol} {terms : List (Term Factor)} {p : PolynomialOver Factor}
    (aligned : ∀ term ∈ terms, term.exponents.length = names.length)
    (all : ∀ term ∈ terms, reading.Reads term.factor)
    (done : normalize operations names terms = .ok p) :
    reading.sum p.names p.terms = reading.sum names terms := by
  obtain ⟨kept, used, normalized, rfl⟩ := exists_normalized aligned done
  obtain ⟨combined, combining, rfl⟩ := normalized.combined
  obtain ⟨reads, sum⟩ := sum_combine respects all combining
  rw [← sum, ← sum_filter respects reads]
  refine sum_map fun term among => congrArg (reading.factor term.factor * ·) ?_
  exact monomial_select normalized.length.symm (normalized.aligned term among)
    fun place unmarked => normalized.unmarked place unmarked term among

omit respects in
/-- The sum of exponents is that of the numbers. -/
theorem toNat_addExponents {x y z : UInt32} (done : addExponents x y = .ok z) :
    z.toNat = x.toNat + y.toNat := by
  unfold addExponents at done
  split at done
  · rename_i fits
    obtain rfl := Except.ok.inj done
    rw [UInt32.toNat_add, Nat.mod_eq_of_lt fits]
  · cases done

omit respects in
/-- The product of the powers of names with summed exponents is the product of both products. -/
theorem monomial_addExponents {names : List Symbol} {lefts rights sums : List UInt32}
    (left : lefts.length = names.length) (right : rights.length = names.length)
    (done : (lefts.zip rights).mapM (fun (x, y) => addExponents x y) = .ok sums) :
    reading.monomial names sums = reading.monomial names lefts * reading.monomial names rights := by
  have steps := Outcome.forall₂_of_mapM done
  clear done
  induction names generalizing lefts rights sums with
  | nil => simp only [monomial, mul_one]
  | cons name names inductionHypothesis =>
    obtain ⟨x, lefts, rfl⟩ := List.exists_cons_of_length_eq_add_one left
    obtain ⟨y, rights, rfl⟩ := List.exists_cons_of_length_eq_add_one right
    rw [List.zip_cons_cons] at steps
    cases steps with
    | cons first rest =>
      rw [monomial, monomial, monomial, toNat_addExponents first, pow_add,
        inductionHypothesis (Nat.succ.inj left) (Nat.succ.inj right) rest]
      ring

/-- The product of two terms stands for the product. -/
theorem term_multiplyTerms {names : List Symbol} {x y z : Term Factor}
    (left : x.exponents.length = names.length) (right : y.exponents.length = names.length)
    (readsLeft : reading.Reads x.factor) (readsRight : reading.Reads y.factor)
    (done : multiplyTerms operations x y = .ok z) :
    reading.Reads z.factor ∧ z.exponents.length = names.length ∧
      reading.term names z = reading.term names x * reading.term names y := by
  obtain ⟨exponents, factor⟩ := multiplyTerms_eq_ok done
  obtain ⟨reads, product⟩ := respects.multiply readsLeft readsRight factor
  have length := (Outcome.forall₂_of_mapM exponents).length_eq
  rw [List.length_zip, left, right, Nat.min_self] at length
  refine ⟨reads, length.symm, ?_⟩
  rw [Reading.term, Reading.term, Reading.term, product, monomial_addExponents left right exponents]
  ring

/-- The products of a term with all terms of a row stand for its product with their sum. -/
theorem sum_products {names : List Symbol} {x : Term Factor} {rights products : List (Term Factor)}
    (left : x.exponents.length = names.length) (readsLeft : reading.Reads x.factor)
    (right : ∀ y ∈ rights, y.exponents.length = names.length ∧ reading.Reads y.factor)
    (done : rights.mapM (multiplyTerms operations x) = .ok products) :
    (∀ z ∈ products, z.exponents.length = names.length ∧ reading.Reads z.factor) ∧
      reading.sum names products = reading.term names x * reading.sum names rights := by
  have steps := Outcome.forall₂_of_mapM done
  clear done
  induction steps with
  | nil => exact ⟨fun _ none => (nomatch none), (mul_zero _).symm⟩
  | cons formed _ inductionHypothesis =>
    obtain ⟨⟨length, readsRight⟩, others⟩ := List.forall_mem_cons.mp right
    obtain ⟨all, sum⟩ := inductionHypothesis others
    obtain ⟨reads, aligned, product⟩ :=
      term_multiplyTerms respects left length readsLeft readsRight formed
    refine ⟨List.forall_mem_cons.mpr ⟨⟨aligned, reads⟩, all⟩, ?_⟩
    rw [sum_cons, sum_cons, product, sum, mul_add]

/-- The products of all pairs of terms stand for the product of the sums. -/
theorem sum_flatten_products (names : List Symbol) {lefts rights : List (Term Factor)}
    {products : List (List (Term Factor))}
    (left : ∀ x ∈ lefts, x.exponents.length = names.length ∧ reading.Reads x.factor)
    (right : ∀ y ∈ rights, y.exponents.length = names.length ∧ reading.Reads y.factor)
    (done : lefts.mapM (fun x => rights.mapM (multiplyTerms operations x)) = .ok products) :
    (∀ z ∈ products.flatten, z.exponents.length = names.length ∧ reading.Reads z.factor) ∧
      reading.sum names products.flatten = reading.sum names lefts * reading.sum names rights := by
  have steps := Outcome.forall₂_of_mapM done
  clear done
  induction steps with
  | nil => exact ⟨fun _ none => (nomatch none), (zero_mul _).symm⟩
  | cons row _ inductionHypothesis =>
    obtain ⟨⟨length, readsLeft⟩, others⟩ := List.forall_mem_cons.mp left
    obtain ⟨all, sum⟩ := inductionHypothesis others
    obtain ⟨first, product⟩ := sum_products respects length readsLeft right row
    rw [List.flatten_cons]
    refine ⟨List.forall_mem_append.mpr ⟨first, all⟩, ?_⟩
    rw [sum_append, sum_cons, product, sum, add_mul]

end Terms

/-! ## The operations -/

section Operations

variable {reading} {operations : FactorOperations Factor} {caseSensitive : Bool}
variable {p q result : PolynomialOver Factor} {a b : R}

/-- Every term of a polynomial that is understood has an exponent for every name. -/
theorem Means.aligned (means : reading.Means caseSensitive p a) :
    ∀ term ∈ p.terms, term.exponents.length = p.names.length :=
  fun _ among => means.orderly.aligned _ (List.mem_map_of_mem among)

/-- The terms of a polynomial that is understood, spread over more names, are understood. -/
theorem Means.spreadTerms (means : reading.Means caseSensitive p a) (marks : List Bool) :
    ∀ term ∈ spreadTerms marks p.terms,
      term.exponents.length = marks.length ∧ reading.Reads term.factor :=
  fun term among => ⟨aligned_spreadTerms term among,
    factors_spreadTerms reading.Reads means.factors term among⟩

/-- A polynomial that consists of one factor stands for what that stands for. -/
theorem means_constant (respects : reading.Respects operations caseSensitive) {factor : Factor}
    (reads : reading.Reads factor) :
    reading.Means caseSensitive (constant operations factor) (reading.factor factor) := by
  have orderly : Orderly caseSensitive (constant operations factor) :=
    (normal_constant factor).toOrderly
  unfold constant at orderly ⊢
  split at orderly
  · rename_i zero
    rw [if_pos zero]
    exact ⟨orderly, by simp [PolynomialOver.zero], by simp [PolynomialOver.zero],
      (respects.isZero reads zero).symm⟩
  · rename_i apart
    rw [if_neg apart]
    exact ⟨orderly, by simpa using reads, by simp, by simp [Reading.term, monomial]⟩

variable (respects : reading.Respects operations caseSensitive)
include respects

/-- A normal form over a merged row of names that are understood is understood. -/
theorem means_normalize (left : reading.Means caseSensitive p a)
    (right : reading.Means caseSensitive q b) {terms : List (Term Factor)} {value : R}
    (formed : ∀ term ∈ terms, term.exponents.length =
      ((mergeVariables caseSensitive p.names q.names).map Prod.fst).length ∧
        reading.Reads term.factor)
    (sum : reading.sum ((mergeVariables caseSensitive p.names q.names).map Prod.fst) terms = value)
    (done : normalize operations ((mergeVariables caseSensitive p.names q.names).map Prod.fst)
      terms = .ok result) : reading.Means caseSensitive result value where
  orderly := (normal_normalize (namesDescend_mergeVariables left.orderly.names right.orderly.names)
    (fun term among => (formed term among).1) done).toOrderly
  factors := factors_normalize reading.Reads (fun x y added => (respects.add x y added).1)
    (fun term among => (formed term among).2) done
  names name among := by
    obtain ⟨entry, listed, rfl⟩ := List.mem_map.mp (mem_names_normalize done name among)
    rcases mem_mergeVariables listed with first | second
    · exact left.names _ first
    · exact right.names _ second
  value := (sum_normalize respects (fun term among => (formed term among).1)
    (fun term among => (formed term among).2) done).trans sum

/-- A sum stands for the sum. -/
theorem means_add (left : reading.Means caseSensitive p a) (right : reading.Means caseSensitive q b)
    (done : add operations caseSensitive p q = .ok result) :
    reading.Means caseSensitive result (a + b) := by
  refine means_normalize respects left right (fun term among => ?_) ?_ done
  · rcases List.mem_append.mp among with first | second
    · simpa using left.spreadTerms _ term first
    · simpa using right.spreadTerms _ term second
  · rw [sum_append, sum_spreadTerms_left left.aligned,
      sum_spreadTerms_right respects left.names right.names right.aligned, left.value, right.value]

/-- The opposite stands for the opposite. -/
theorem means_negate (means : reading.Means caseSensitive p a)
    (done : negate operations p = .ok result) : reading.Means caseSensitive result (-a) := by
  obtain ⟨names, changed⟩ := negate_eq_ok done
  have all : (∀ term ∈ result.terms, reading.Reads term.factor) ∧
      reading.sum p.names result.terms = -reading.sum p.names p.terms := by
    have reads := means.factors
    generalize p.terms = before, result.terms = after at changed reads
    induction changed with
    | nil => exact ⟨fun _ none => (nomatch none), neg_zero.symm⟩
    | cons first _ inductionHypothesis =>
      obtain ⟨readsFirst, others⟩ := List.forall_mem_cons.mp reads
      obtain ⟨all, sum⟩ := inductionHypothesis others
      obtain ⟨readsNegated, opposite⟩ := respects.negate readsFirst first.1
      refine ⟨List.forall_mem_cons.mpr ⟨readsNegated, all⟩, ?_⟩
      rw [sum_cons, sum_cons, sum, Reading.term, Reading.term, opposite, first.2]
      ring
  exact {
    orderly := orderly_negate means.orderly done
    factors := all.1
    names := names ▸ means.names
    value := by rw [names, all.2, means.value] }

/-- A difference stands for the difference. -/
theorem means_subtract (left : reading.Means caseSensitive p a)
    (right : reading.Means caseSensitive q b)
    (done : subtract operations caseSensitive p q = .ok result) :
    reading.Means caseSensitive result (a - b) := by
  obtain ⟨opposite, negated, added⟩ := Outcome.bind_eq_ok.mp done
  rw [sub_eq_add_neg]
  exact means_add respects left (means_negate respects right negated) added

/-- A product stands for the product. -/
theorem means_multiply (left : reading.Means caseSensitive p a)
    (right : reading.Means caseSensitive q b)
    (done : multiply operations caseSensitive p q = .ok result) :
    reading.Means caseSensitive result (a * b) := by
  obtain ⟨products, multiplied, rest⟩ := Outcome.bind_eq_ok.mp done
  obtain ⟨formed, product⟩ := sum_flatten_products respects
    ((mergeVariables caseSensitive p.names q.names).map Prod.fst)
    (fun term among => by simpa using left.spreadTerms _ term among)
    (fun term among => by simpa using right.spreadTerms _ term among) multiplied
  refine means_normalize respects left right formed ?_ rest
  rw [product, sum_spreadTerms_left left.aligned,
    sum_spreadTerms_right respects left.names right.names right.aligned, left.value, right.value]

/-- A power stands for the power. -/
theorem means_power {unit : Factor} {exponent : UInt32} (one : reading.Reads unit)
    (value : reading.factor unit = 1) (base : reading.Means caseSensitive p a)
    (done : power operations caseSensitive unit p exponent = .ok result) :
    reading.Means caseSensitive result (a ^ exponent.toNat) := by
  unfold power at done
  split at done
  · cases done
  · have start : reading.Means caseSensitive (constant operations unit) (a ^ 0) := by
      rw [pow_zero, ← value]
      exact means_constant respects one
    have raised := raiseOnto_induction (fun count q => reading.Means caseSensitive q (a ^ count))
      (fun count q => reading.Means caseSensitive q (a ^ count))
      (fun first second multiplied => by
        rw [pow_add]
        exact means_multiply respects first second multiplied)
      (fun first multiplied => by
        rw [pow_add]
        exact means_multiply respects first first multiplied)
      (i := 0) (j := 1) start (by rwa [pow_one]) done
    rwa [Nat.zero_add, Nat.one_mul] at raised

end Operations

end Reading

end PolynomialOver

end Calculator
