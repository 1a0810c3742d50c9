import Calculator.Proofs.Outcome
import Calculator.Proofs.Polynomial.Order
import Mathlib

/-!
# The normal form of polynomials

A polynomial is orderly if its names descend, every term has one exponent for every name, the rows
of exponents descend, and every name has a positive exponent in some term. It is normal if no
factor is zero, besides. Sums, products and powers are put into normal form, whatever the
arithmetic of the factors; a change of sign skips that and keeps what it finds. So a polynomial
that is made of names and real numbers by these operations is normal. Complex numbers are another
matter: one may be zero without being taken for zero, until its sign is changed.
-/

namespace Calculator

namespace PolynomialOver

variable {Factor : Type} {operations : FactorOperations Factor} {caseSensitive : Bool}

/-- The rows of exponents of the terms. -/
def rows (p : PolynomialOver Factor) : List (List UInt32) := p.terms.map Term.exponents

/-- Whether names and exponents are in the order that all operations rely on. No two rows are
alike, so no two terms are; and a name that no term needs does not occur. -/
structure Orderly (caseSensitive : Bool) (p : PolynomialOver Factor) : Prop where
  names : NamesDescend caseSensitive p.names
  aligned : ∀ row ∈ p.rows, row.length = p.names.length
  descend : p.rows.Pairwise fun left right => orderExponents left right = .gt
  used : ∀ place < p.names.length, ∃ row ∈ p.rows, 0 < row.getD place 0

/-- An orderly polynomial without zeros among its factors. -/
structure Normal (operations : FactorOperations Factor) (caseSensitive : Bool)
    (p : PolynomialOver Factor) : Prop extends Orderly caseSensitive p where
  nonzero : ∀ term ∈ p.terms, operations.isZero term.factor = false

instance (p : PolynomialOver Factor) : Decidable (Orderly caseSensitive p) :=
  decidable_of_iff
    (NamesDescend caseSensitive p.names ∧ (∀ row ∈ p.rows, row.length = p.names.length) ∧
      (p.rows.Pairwise fun left right => orderExponents left right = .gt) ∧
      ∀ place < p.names.length, ∃ row ∈ p.rows, 0 < row.getD place 0)
    ⟨fun ⟨names, aligned, descend, used⟩ => ⟨names, aligned, descend, used⟩,
      fun orderly => ⟨orderly.names, orderly.aligned, orderly.descend, orderly.used⟩⟩

instance (p : PolynomialOver Factor) : Decidable (Normal operations caseSensitive p) :=
  decidable_of_iff
    (Orderly caseSensitive p ∧ ∀ term ∈ p.terms, operations.isZero term.factor = false)
    ⟨fun ⟨orderly, nonzero⟩ => ⟨orderly, nonzero⟩,
      fun normal => ⟨normal.toOrderly, normal.nonzero⟩⟩

/-! ## Putting terms into order -/

/-- Sorting makes the rows of exponents fall. -/
theorem sortTerms_falls (terms : List (Term Factor)) :
    (sortTerms terms).Pairwise fun left right =>
      (orderExponents left.exponents right.exponents).isGE = true := by
  have reading (left right : Term Factor) :
      (orderExponents left.exponents right.exponents != .lt) =
        (orderExponents left.exponents right.exponents).isGE := by
    cases orderExponents left.exponents right.exponents <;> rfl
  unfold sortTerms
  simp only [reading]
  refine List.pairwise_mergeSort (fun a b c first second => ?_) (fun a b => ?_) terms
  · exact Std.TransCmp.isGE_trans first second
  · rw [@Std.OrientedCmp.eq_swap _ orderExponents _ a.exponents]
    cases orderExponents b.exponents a.exponents <;> rfl

/-- Of rows that fall, only neighbours can be alike. Once these are combined, the rows descend.
Combining makes no new rows. -/
theorem combineOnto_descends {last : Term Factor} {terms combined : List (Term Factor)}
    (falls : (last :: terms).Pairwise fun left right =>
      (orderExponents left.exponents right.exponents).isGE = true)
    (done : combineOnto operations last terms = .ok combined) :
    (combined.map Term.exponents).Pairwise (fun left right => orderExponents left right = .gt) ∧
      ∀ row ∈ combined.map Term.exponents, row ∈ (last :: terms).map Term.exponents := by
  induction terms generalizing last combined with
  | nil =>
    obtain rfl : [last] = combined := Except.ok.inj done
    exact ⟨List.pairwise_singleton _ _, fun _ => id⟩
  | cons term terms inductionHypothesis =>
    obtain ⟨below, rest⟩ := List.pairwise_cons.mp falls
    rw [combineOnto] at done
    split at done
    · rename_i alike
      obtain ⟨factor, -, combinedRest⟩ := Outcome.bind_eq_ok.mp done
      have fallsRest : (⟨factor, last.exponents⟩ :: terms).Pairwise fun left right : Term Factor =>
          (orderExponents left.exponents right.exponents).isGE = true := by
        refine .cons (fun other among => ?_) (List.pairwise_cons.mp rest).2
        exact below other (List.mem_cons_of_mem term among)
      obtain ⟨descend, among⟩ := inductionHypothesis fallsRest combinedRest
      refine ⟨descend, fun row found => ?_⟩
      rcases List.mem_cons.mp (among row found) with rfl | others
      · exact List.mem_cons_self
      · exact List.mem_cons_of_mem _ (List.mem_cons_of_mem _ others)
    · rename_i apart
      obtain ⟨others, combinedRest, same⟩ := Outcome.bind_eq_ok.mp done
      obtain rfl : last :: others = combined := Except.ok.inj same
      obtain ⟨descend, among⟩ := inductionHypothesis rest combinedRest
      have above : orderExponents last.exponents term.exponents = .gt := by
        cases order : orderExponents last.exponents term.exponents with
        | lt => simpa [order] using below term List.mem_cons_self
        | eq => exact absurd (Std.LawfulEqCmp.eq_of_compare order) apart
        | gt => rfl
      refine ⟨.cons (fun row found => ?_) descend, fun row found => ?_⟩
      · obtain ⟨other, listed, rfl⟩ := List.mem_map.mp (among row found)
        rcases List.mem_cons.mp listed with rfl | later
        · exact above
        · exact Std.TransCmp.gt_of_gt_of_isGE above ((List.pairwise_cons.mp rest).1 other later)
      · rcases List.mem_cons.mp found with rfl | later
        · exact List.mem_cons_self
        · exact List.mem_cons_of_mem _ (among row later)

/-- Sorted and combined, the rows of exponents descend, and none is new. -/
theorem combine_sortTerms_descends {terms combined : List (Term Factor)}
    (done : combine operations (sortTerms terms) = .ok combined) :
    (combined.map Term.exponents).Pairwise (fun left right => orderExponents left right = .gt) ∧
      ∀ row ∈ combined.map Term.exponents, row ∈ terms.map Term.exponents := by
  have falls := sortTerms_falls terms
  have listed : ∀ row ∈ (sortTerms terms).map Term.exponents, row ∈ terms.map Term.exponents :=
    fun _ among => ((List.mergeSort_perm terms _).map Term.exponents).mem_iff.mp among
  cases sorted : sortTerms terms with
  | nil =>
    rw [sorted] at done
    obtain rfl : [] = combined := Except.ok.inj done
    exact ⟨.nil, fun _ none => nomatch none⟩
  | cons first others =>
    rw [sorted] at done falls listed
    obtain ⟨descend, among⟩ := combineOnto_descends falls done
    exact ⟨descend, fun row found => listed row (among row found)⟩

/-- What holds of all factors holds of the combined ones, if sums keep it. -/
theorem combineOnto_factors (Holds : Factor → Prop)
    (sum : ∀ {x y z}, Holds x → Holds y → operations.add x y = .ok z → Holds z)
    {last : Term Factor} {terms combined : List (Term Factor)}
    (all : ∀ term ∈ last :: terms, Holds term.factor)
    (done : combineOnto operations last terms = .ok combined) :
    ∀ term ∈ combined, Holds term.factor := by
  induction terms generalizing last combined with
  | nil =>
    obtain rfl : [last] = combined := Except.ok.inj done
    exact all
  | cons term terms inductionHypothesis =>
    obtain ⟨holds, rest⟩ := List.forall_mem_cons.mp all
    rw [combineOnto] at done
    split at done
    · obtain ⟨factor, added, combinedRest⟩ := Outcome.bind_eq_ok.mp done
      refine inductionHypothesis (List.forall_mem_cons.mpr ⟨?_, ?_⟩) combinedRest
      · exact sum holds (rest term List.mem_cons_self) added
      · exact (List.forall_mem_cons.mp rest).2
    · obtain ⟨others, combinedRest, same⟩ := Outcome.bind_eq_ok.mp done
      obtain rfl : last :: others = combined := Except.ok.inj same
      exact List.forall_mem_cons.mpr ⟨holds, inductionHypothesis rest combinedRest⟩

/-! ## Names that are used -/

/-- A name is used if some term has it with a positive exponent, or if it was used before. -/
theorem foldl_used (terms : List (Term Factor)) (before : List Bool)
    (aligned : ∀ term ∈ terms, term.exponents.length = before.length) (place : ℕ)
    (inside : place < before.length) :
    (terms.foldl (fun used term => List.zipWith (fun u e => u || 0 < e) used term.exponents)
      before)[place]? =
        some (before.getD place false ||
          terms.any fun term => decide (0 < term.exponents.getD place 0)) := by
  induction terms generalizing before with
  | nil => simp [inside]
  | cons term terms inductionHypothesis =>
    obtain ⟨first, rest⟩ := List.forall_mem_cons.mp aligned
    have length : (List.zipWith (fun u e => u || decide (0 < e)) before term.exponents).length =
        before.length := by
      rw [List.length_zipWith, first, Nat.min_self]
    rw [List.foldl_cons, inductionHypothesis _ (by rwa [length]) (by rwa [length])]
    have insideFirst : place < term.exponents.length := first ▸ inside
    simp [inside, insideFirst, Bool.or_assoc]

/-- The marks of the names that are used. -/
theorem getElem?_usedVariables {count : ℕ} {terms : List (Term Factor)}
    (aligned : ∀ term ∈ terms, term.exponents.length = count) {place : ℕ} (inside : place < count) :
    (usedVariables count terms)[place]? =
      some (terms.any fun term => decide (0 < term.exponents.getD place 0)) := by
  have start : (List.replicate count false).length = count := List.length_replicate
  rw [usedVariables, foldl_used terms _ (by rwa [start]) place (by rwa [start])]
  simp

/-- There is a mark for every name. -/
theorem length_usedVariables {count : ℕ} {terms : List (Term Factor)}
    (aligned : ∀ term ∈ terms, term.exponents.length = count) :
    (usedVariables count terms).length = count := by
  unfold usedVariables
  have kept : ∀ before : List Bool, before.length = count → (terms.foldl (fun used term =>
      List.zipWith (fun u e => u || decide (0 < e)) used term.exponents) before).length = count := by
    induction terms with
    | nil => exact fun _ => id
    | cons term terms inductionHypothesis =>
      obtain ⟨first, rest⟩ := List.forall_mem_cons.mp aligned
      intro before length
      refine inductionHypothesis rest _ ?_
      rw [List.length_zipWith, length, first, Nat.min_self]
  exact kept _ List.length_replicate

/-! ## The normal form -/

/-- How a normal form comes of terms over a row of names: they are sorted and combined, those whose
factor is zero are left out, and so are the names that none of the others has. -/
structure Normalized (operations : FactorOperations Factor) (names : List Symbol)
    (terms kept : List (Term Factor)) (used : List Bool) : Prop where
  combined : ∃ combined, combine operations (sortTerms terms) = .ok combined ∧
    kept = combined.filter fun term => !operations.isZero term.factor
  length : used.length = names.length
  aligned : ∀ term ∈ kept, term.exponents.length = used.length
  marked : ∀ place : ℕ, used[place]? = some true → ∃ term ∈ kept, 0 < term.exponents.getD place 0
  unmarked : ∀ place : ℕ, used[place]? = some false →
    ∀ term ∈ kept, term.exponents[place]? = some 0

/-- A normal form has the terms that are left with their exponents for the names that are left. -/
theorem exists_normalized {names : List Symbol} {terms : List (Term Factor)}
    {p : PolynomialOver Factor}
    (aligned : ∀ term ∈ terms, term.exponents.length = names.length)
    (done : normalize operations names terms = .ok p) :
    ∃ kept used, Normalized operations names terms kept used ∧
      p = ⟨select used names, kept.map fun term => ⟨term.factor, select used term.exponents⟩⟩ := by
  obtain ⟨combined, combining, same⟩ := Outcome.bind_eq_ok.mp done
  obtain ⟨-, among⟩ := combine_sortTerms_descends combining
  set kept := combined.filter fun term => !operations.isZero term.factor with keptEq
  have alignedKept : ∀ term ∈ kept, term.exponents.length = names.length := by
    intro term found
    obtain ⟨original, listed, row⟩ := List.mem_map.mp
      (among _ (List.mem_map_of_mem (List.mem_of_mem_filter found)))
    exact row ▸ aligned original listed
  have length : (usedVariables names.length kept).length = names.length :=
    length_usedVariables alignedKept
  have read {place : ℕ} {mark : Bool} (found : (usedVariables names.length kept)[place]? = some mark) :
      place < names.length ∧ (kept.any fun term => decide (0 < term.exponents.getD place 0)) = mark := by
    have inside : place < names.length := length ▸ (List.getElem?_eq_some_iff.mp found).1
    rw [getElem?_usedVariables alignedKept inside] at found
    exact ⟨inside, Option.some.inj found⟩
  refine ⟨kept, usedVariables names.length kept, ⟨⟨combined, combining, keptEq⟩, length,
    fun term found => (alignedKept term found).trans length.symm, fun place found => ?_,
    fun place found term listed => ?_⟩, (Except.ok.inj same).symm⟩
  · obtain ⟨term, listed, positive⟩ := List.any_eq_true.mp (read found).2
    exact ⟨term, listed, of_decide_eq_true positive⟩
  · obtain ⟨inside, unused⟩ := read found
    have insideRow : place < term.exponents.length := by rwa [alignedKept term listed]
    have zero := List.any_eq_false.mp unused term listed
    rw [List.getElem?_eq_getElem insideRow, Option.some.injEq]
    rw [List.getD_eq_getElem _ _ insideRow] at zero
    simpa using zero

/-- The names of a normal form are among those it is made over. -/
theorem mem_names_normalize {names : List Symbol} {terms : List (Term Factor)}
    {p : PolynomialOver Factor} (done : normalize operations names terms = .ok p) :
    ∀ name ∈ p.names, name ∈ names := by
  obtain ⟨combined, -, same⟩ := Outcome.bind_eq_ok.mp done
  obtain rfl := Except.ok.inj same
  exact fun name among => (sublist_select _ names).mem among

/-- The rows of exponents that are left descend. -/
theorem Normalized.descend {names : List Symbol} {terms kept : List (Term Factor)}
    {used : List Bool} (normalized : Normalized operations names terms kept used) :
    (kept.map fun term => select used term.exponents).Pairwise
      fun left right => orderExponents left right = .gt := by
  obtain ⟨combined, combining, rfl⟩ := normalized.combined
  obtain ⟨falling, -⟩ := combine_sortTerms_descends combining
  have descending := falling.sublist ((List.filter_sublist
    (p := fun term => !operations.isZero term.factor)).map Term.exponents)
  rw [List.pairwise_map] at descending ⊢
  refine descending.imp_of_mem fun {left right} first second order => ?_
  rw [orderExponents_select (normalized.aligned left first) (normalized.aligned right second)]
  · exact order
  · intro place unmarked
    rw [normalized.unmarked place unmarked left first, normalized.unmarked place unmarked right second]

/-- Every term that is left has an exponent for each name that is left. -/
theorem aligned_normalize {names : List Symbol} {terms : List (Term Factor)}
    {p : PolynomialOver Factor} (aligned : ∀ term ∈ terms, term.exponents.length = names.length)
    (done : normalize operations names terms = .ok p) :
    ∀ row ∈ p.rows, row.length = p.names.length := by
  obtain ⟨kept, used, normalized, rfl⟩ := exists_normalized aligned done
  intro row found
  obtain ⟨_, left, rfl⟩ := List.mem_map.mp found
  obtain ⟨term, listed, rfl⟩ := List.mem_map.mp left
  rw [length_select (normalized.aligned term listed), length_select normalized.length.symm]

/-- Terms over a descending row of names have a normal form. -/
theorem normal_normalize {names : List Symbol} {terms : List (Term Factor)}
    {p : PolynomialOver Factor} (descend : NamesDescend caseSensitive names)
    (aligned : ∀ term ∈ terms, term.exponents.length = names.length)
    (done : normalize operations names terms = .ok p) : Normal operations caseSensitive p := by
  have alignedLeft := aligned_normalize aligned done
  obtain ⟨kept, used, normalized, rfl⟩ := exists_normalized aligned done
  have rows : (⟨select used names, kept.map fun term =>
      ⟨term.factor, select used term.exponents⟩⟩ : PolynomialOver Factor).rows =
        kept.map fun term => select used term.exponents := by
    simp [PolynomialOver.rows, Function.comp_def]
  constructor
  · constructor
    · exact descend.sublist (sublist_select used names)
    · exact alignedLeft
    · rw [rows]
      exact normalized.descend
    · intro place inside
      rw [length_select normalized.length.symm] at inside
      obtain ⟨origin, marked, place⟩ := exists_place inside
      obtain ⟨term, listed, positive⟩ := normalized.marked origin marked
      rw [rows]
      refine ⟨_, List.mem_map_of_mem listed, ?_⟩
      rwa [List.getD_eq_getElem?_getD, place _ (normalized.aligned term listed),
        ← List.getD_eq_getElem?_getD]
  · intro term found
    obtain ⟨original, listed, rfl⟩ := List.mem_map.mp found
    obtain ⟨combined, -, rfl⟩ := normalized.combined
    simpa using (List.mem_filter.mp listed).2

/-- What holds of all factors holds of those in normal form, if sums keep it. -/
theorem factors_normalize (Holds : Factor → Prop)
    (sum : ∀ {x y z}, Holds x → Holds y → operations.add x y = .ok z → Holds z)
    {names : List Symbol} {terms : List (Term Factor)} {p : PolynomialOver Factor}
    (all : ∀ term ∈ terms, Holds term.factor) (done : normalize operations names terms = .ok p) :
    ∀ term ∈ p.terms, Holds term.factor := by
  obtain ⟨combined, combining, same⟩ := Outcome.bind_eq_ok.mp done
  have kept : ∀ term ∈ combined, Holds term.factor := by
    have sorted : ∀ term ∈ sortTerms terms, Holds term.factor :=
      fun term among => all term (List.mem_mergeSort.mp among)
    cases order : sortTerms terms with
    | nil =>
      rw [order] at combining
      obtain rfl : [] = combined := Except.ok.inj combining
      exact fun _ none => nomatch none
    | cons first others =>
      rw [order] at combining sorted
      exact combineOnto_factors Holds sum sorted combining
  obtain rfl := Except.ok.inj same
  intro term found
  obtain ⟨original, listed, rfl⟩ := List.mem_map.mp found
  exact kept original (List.mem_of_mem_filter listed)

/-! ## The operations -/

section Operations

variable {p q result : PolynomialOver Factor}

/-- Terms over more variables have an exponent for each of them. -/
theorem aligned_spreadTerms {marks : List Bool} {terms : List (Term Factor)} :
    ∀ term ∈ spreadTerms marks terms, term.exponents.length = marks.length := by
  intro term found
  obtain ⟨original, -, rfl⟩ := List.mem_map.mp found
  exact length_spread marks original.exponents

/-- Spreading keeps the factors. -/
theorem factors_spreadTerms (Holds : Factor → Prop) {marks : List Bool} {terms : List (Term Factor)}
    (all : ∀ term ∈ terms, Holds term.factor) :
    ∀ term ∈ spreadTerms marks terms, Holds term.factor := by
  intro term found
  obtain ⟨original, listed, rfl⟩ := List.mem_map.mp found
  exact all original listed

/-- A constant is in normal form. -/
theorem normal_constant (factor : Factor) :
    Normal operations caseSensitive (constant operations factor) := by
  unfold constant
  split
  · exact ⟨⟨.nil, by simp [rows, zero], by simp [rows, zero], by simp [zero]⟩, by simp [zero]⟩
  · rename_i apart
    exact ⟨⟨.nil, by simp [rows], by simp [rows], by simp⟩, by simpa using apart⟩

/-- The terms of a sum have an exponent for each name of it. -/
theorem aligned_addends (caseSensitive : Bool) (p q : PolynomialOver Factor) :
    let merged := mergeVariables caseSensitive p.names q.names
    ∀ term ∈ spreadTerms (merged.map fun entry => entry.2.1) p.terms ++
        spreadTerms (merged.map fun entry => entry.2.2) q.terms,
      term.exponents.length = (merged.map Prod.fst).length := by
  intro merged term found
  rcases List.mem_append.mp found with first | second
  · simpa using aligned_spreadTerms term first
  · simpa using aligned_spreadTerms term second

/-- A sum is in normal form. -/
theorem normal_add (left : NamesDescend caseSensitive p.names)
    (right : NamesDescend caseSensitive q.names)
    (done : add operations caseSensitive p q = .ok result) :
    Normal operations caseSensitive result :=
  normal_normalize (namesDescend_mergeVariables left right) (aligned_addends caseSensitive p q) done

/-- The terms of a sum have an exponent for each name that is left of it. -/
theorem aligned_add (done : add operations caseSensitive p q = .ok result) :
    ∀ row ∈ result.rows, row.length = result.names.length :=
  aligned_normalize (aligned_addends caseSensitive p q) done

/-- What holds of the factors of two polynomials holds of those of their sum. -/
theorem factors_add (Holds : Factor → Prop)
    (sum : ∀ {x y z}, Holds x → Holds y → operations.add x y = .ok z → Holds z)
    (left : ∀ term ∈ p.terms, Holds term.factor) (right : ∀ term ∈ q.terms, Holds term.factor)
    (done : add operations caseSensitive p q = .ok result) :
    ∀ term ∈ result.terms, Holds term.factor := by
  refine factors_normalize Holds sum (fun term found => ?_) done
  rcases List.mem_append.mp found with first | second
  · exact factors_spreadTerms Holds left term first
  · exact factors_spreadTerms Holds right term second

/-- The product of two terms has the product for a factor, and as many exponents as they have. -/
theorem multiplyTerms_eq_ok {left right product : Term Factor}
    (done : multiplyTerms operations left right = .ok product) :
    (left.exponents.zip right.exponents).mapM (fun (x, y) => addExponents x y) =
        .ok product.exponents ∧
      operations.multiply left.factor right.factor = .ok product.factor := by
  obtain ⟨exponents, added, rest⟩ := Outcome.bind_eq_ok.mp done
  obtain ⟨factor, multiplied, same⟩ := Outcome.bind_eq_ok.mp rest
  obtain rfl := Except.ok.inj same
  exact ⟨added, multiplied⟩

/-- A product is the normal form of the products of all pairs of terms. -/
theorem multiply_eq_ok (done : multiply operations caseSensitive p q = .ok result) :
    ∃ products, normalize operations
        ((mergeVariables caseSensitive p.names q.names).map Prod.fst) products = .ok result ∧
      ∀ product ∈ products,
        ∃ left ∈ spreadTerms ((mergeVariables caseSensitive p.names q.names).map
            fun entry => entry.2.1) p.terms,
          ∃ right ∈ spreadTerms ((mergeVariables caseSensitive p.names q.names).map
              fun entry => entry.2.2) q.terms,
            multiplyTerms operations left right = .ok product := by
  obtain ⟨products, multiplied, rest⟩ := Outcome.bind_eq_ok.mp done
  refine ⟨products.flatten, rest, fun product found => ?_⟩
  obtain ⟨row, listed, among⟩ := List.mem_flatten.mp found
  obtain ⟨left, first, inner⟩ := Outcome.exists_of_mem_mapM multiplied listed
  obtain ⟨right, second, formed⟩ := Outcome.exists_of_mem_mapM inner among
  exact ⟨left, first, right, second, formed⟩

/-- A product is a normal form of terms that have an exponent for each of their names. -/
theorem exists_products (done : multiply operations caseSensitive p q = .ok result) :
    ∃ products, normalize operations
        ((mergeVariables caseSensitive p.names q.names).map Prod.fst) products = .ok result ∧
      ∀ product ∈ products, product.exponents.length =
        ((mergeVariables caseSensitive p.names q.names).map Prod.fst).length := by
  obtain ⟨products, normalized, pairs⟩ := multiply_eq_ok done
  refine ⟨products, normalized, fun product found => ?_⟩
  obtain ⟨x, first, y, second, formed⟩ := pairs product found
  have length := (Outcome.forall₂_of_mapM (multiplyTerms_eq_ok formed).1).length_eq
  rw [List.length_zip, aligned_spreadTerms x first, aligned_spreadTerms y second] at length
  simpa using length.symm

/-- A product is in normal form. -/
theorem normal_multiply (left : NamesDescend caseSensitive p.names)
    (right : NamesDescend caseSensitive q.names)
    (done : multiply operations caseSensitive p q = .ok result) :
    Normal operations caseSensitive result := by
  obtain ⟨products, normalized, aligned⟩ := exists_products done
  exact normal_normalize (namesDescend_mergeVariables left right) aligned normalized

/-- The terms of a product have an exponent for each name that is left of it. -/
theorem aligned_multiply (done : multiply operations caseSensitive p q = .ok result) :
    ∀ row ∈ result.rows, row.length = result.names.length := by
  obtain ⟨products, normalized, aligned⟩ := exists_products done
  exact aligned_normalize aligned normalized

/-- What holds of the factors of two polynomials holds of those of their product. -/
theorem factors_multiply (Holds : Factor → Prop)
    (sum : ∀ {x y z}, Holds x → Holds y → operations.add x y = .ok z → Holds z)
    (product : ∀ {x y z}, Holds x → Holds y → operations.multiply x y = .ok z → Holds z)
    (left : ∀ term ∈ p.terms, Holds term.factor) (right : ∀ term ∈ q.terms, Holds term.factor)
    (done : multiply operations caseSensitive p q = .ok result) :
    ∀ term ∈ result.terms, Holds term.factor := by
  obtain ⟨products, normalized, pairs⟩ := multiply_eq_ok done
  refine factors_normalize Holds sum (fun term found => ?_) normalized
  obtain ⟨x, first, y, second, formed⟩ := pairs term found
  exact product (factors_spreadTerms Holds left x first) (factors_spreadTerms Holds right y second)
    (multiplyTerms_eq_ok formed).2

/-- A power is in normal form. -/
theorem normal_power {unit : Factor} {exponent : UInt32} (base : NamesDescend caseSensitive p.names)
    (done : power operations caseSensitive unit p exponent = .ok result) :
    Normal operations caseSensitive result := by
  unfold power at done
  split at done
  · cases done
  · exact raiseOnto_induction (fun _ => Normal operations caseSensitive)
      (fun _ q => NamesDescend caseSensitive q.names)
      (fun first second => normal_multiply first.names second)
      (fun first multiplied => (normal_multiply first first multiplied).names)
      (i := 0) (j := 1) (normal_constant unit) base done

/-- The terms of a power have an exponent for each name that is left of it. -/
theorem aligned_power {unit : Factor} {exponent : UInt32}
    (done : power operations caseSensitive unit p exponent = .ok result) :
    ∀ row ∈ result.rows, row.length = result.names.length := by
  unfold power at done
  split at done
  · cases done
  · have start : Normal operations caseSensitive (constant operations unit) := normal_constant unit
    exact raiseOnto_induction
      (fun _ (q : PolynomialOver Factor) => ∀ row ∈ q.rows, row.length = q.names.length)
      (fun _ _ => True) (fun _ _ => aligned_multiply) (fun _ _ => trivial)
      (i := 0) (j := 1) start.aligned trivial done

/-- What holds of one and of the factors of a polynomial holds of those of its powers. -/
theorem factors_power (Holds : Factor → Prop)
    (sum : ∀ {x y z}, Holds x → Holds y → operations.add x y = .ok z → Holds z)
    (product : ∀ {x y z}, Holds x → Holds y → operations.multiply x y = .ok z → Holds z)
    {unit : Factor} {exponent : UInt32} (one : Holds unit)
    (base : ∀ term ∈ p.terms, Holds term.factor)
    (done : power operations caseSensitive unit p exponent = .ok result) :
    ∀ term ∈ result.terms, Holds term.factor := by
  unfold power at done
  split at done
  · cases done
  · have start : ∀ term ∈ (constant operations unit).terms, Holds term.factor := by
      unfold constant
      split
      · exact fun _ none => nomatch none
      · simpa using one
    exact raiseOnto_induction (fun _ q => ∀ term ∈ q.terms, Holds term.factor)
      (fun _ q => ∀ term ∈ q.terms, Holds term.factor)
      (fun first second => factors_multiply Holds sum product first second)
      (fun first multiplied => factors_multiply Holds sum product first first multiplied)
      (i := 0) (j := 1) start base done

/-- A change of sign changes the sign of every factor. -/
theorem negate_eq_ok (done : negate operations p = .ok result) :
    result.names = p.names ∧ List.Forall₂ (fun before after : Term Factor =>
      operations.negate before.factor = .ok after.factor ∧ after.exponents = before.exponents)
      p.terms result.terms := by
  obtain ⟨terms, mapped, same⟩ := Outcome.bind_eq_ok.mp done
  obtain rfl := Except.ok.inj same
  refine ⟨rfl, (Outcome.forall₂_of_mapM mapped).imp fun before after changed => ?_⟩
  obtain ⟨factor, negated, form⟩ := Outcome.bind_eq_ok.mp changed
  obtain rfl := Except.ok.inj form
  exact ⟨negated, rfl⟩

/-- A change of sign keeps the exponents. -/
theorem rows_negate (done : negate operations p = .ok result) : result.rows = p.rows := by
  obtain ⟨-, terms⟩ := negate_eq_ok done
  unfold rows
  generalize p.terms = before, result.terms = after at terms ⊢
  induction terms with
  | nil => rfl
  | cons changed _ inductionHypothesis => simp only [List.map_cons, changed.2, inductionHypothesis]

/-- A change of sign keeps the order. -/
theorem orderly_negate (orderly : Orderly caseSensitive p)
    (done : negate operations p = .ok result) : Orderly caseSensitive result := by
  obtain ⟨names, -⟩ := negate_eq_ok done
  have rows := rows_negate done
  exact {
    names := names ▸ orderly.names
    aligned := by
      rw [rows, names]
      exact orderly.aligned
    descend := rows ▸ orderly.descend
    used := by
      rw [rows, names]
      exact orderly.used }

/-- Every factor after a change of sign is the opposite of one before it. -/
theorem exists_of_mem_negate (done : negate operations p = .ok result) {term : Term Factor}
    (among : term ∈ result.terms) :
    ∃ before ∈ p.terms, operations.negate before.factor = .ok term.factor := by
  obtain ⟨length, changed⟩ := List.forall₂_iff_get.mp (negate_eq_ok done).2
  obtain ⟨place, inside, rfl⟩ := List.mem_iff_getElem.mp among
  have insideBefore : place < p.terms.length := length ▸ inside
  exact ⟨_, List.getElem_mem insideBefore, (changed place insideBefore inside).1⟩

end Operations

end PolynomialOver

end Calculator
