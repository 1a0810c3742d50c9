import Calculator.Polynomial
import Calculator.Proofs.Symbol
import Mathlib

/-!
# The orders of variables and of terms

Names are compared character by character and exponents place by place. Both are lexicographic
orders, so rows that descend under them can be merged, sorted and thinned out: two descending rows
of names merge into a descending row, and rows of exponents keep their order when a place that is
the same in all of them is left out.
-/

namespace Calculator

namespace PolynomialOver

/-! ## Names -/

/-- Whether a row of names descends. No two names in such a row are the same. -/
def NamesDescend (caseSensitive : Bool) (names : List Symbol) : Prop :=
  names.Pairwise fun left right => left.compare right caseSensitive = .gt

instance (caseSensitive : Bool) : DecidablePred (NamesDescend caseSensitive) := fun names =>
  inferInstanceAs (Decidable (names.Pairwise fun left right =>
    left.compare right caseSensitive = .gt))

/-- A name of a merged row comes from one of the rows. -/
theorem mem_mergeVariables {caseSensitive : Bool} {xs ys : List Symbol} {entry : Symbol × Bool × Bool}
    (among : entry ∈ mergeVariables caseSensitive xs ys) : entry.1 ∈ xs ∨ entry.1 ∈ ys := by
  fun_induction mergeVariables caseSensitive xs ys with
  | case1 => cases among
  | case2 x xs inductionHypothesis =>
    rcases List.mem_cons.mp among with rfl | rest
    · exact .inl List.mem_cons_self
    · exact (inductionHypothesis rest).imp_left (List.mem_cons_of_mem x)
  | case3 y ys inductionHypothesis =>
    rcases List.mem_cons.mp among with rfl | rest
    · exact .inr List.mem_cons_self
    · exact (inductionHypothesis rest).imp_right (List.mem_cons_of_mem y)
  | case4 x xs y ys order inductionHypothesis =>
    rcases List.mem_cons.mp among with rfl | rest
    · exact .inl List.mem_cons_self
    · exact (inductionHypothesis rest).imp_left (List.mem_cons_of_mem x)
  | case5 x xs y ys order inductionHypothesis =>
    rcases List.mem_cons.mp among with rfl | rest
    · exact .inr List.mem_cons_self
    · exact (inductionHypothesis rest).imp_right (List.mem_cons_of_mem y)
  | case6 x xs y ys order inductionHypothesis =>
    rcases List.mem_cons.mp among with rfl | rest
    · exact .inl List.mem_cons_self
    · exact (inductionHypothesis rest).imp (List.mem_cons_of_mem x) (List.mem_cons_of_mem y)

/-- A name that is above all names of two rows is above the merged row. -/
theorem above_mergeVariables {caseSensitive : Bool} {name : Symbol} {xs ys : List Symbol}
    (left : ∀ x ∈ xs, name.compare x caseSensitive = .gt)
    (right : ∀ y ∈ ys, name.compare y caseSensitive = .gt) :
    ∀ other ∈ (mergeVariables caseSensitive xs ys).map Prod.fst,
      name.compare other caseSensitive = .gt := by
  intro other among
  obtain ⟨entry, found, rfl⟩ := List.mem_map.mp among
  exact (mem_mergeVariables found).elim (left _) (right _)

/-- Descending rows of names merge into a descending row. -/
theorem namesDescend_mergeVariables {caseSensitive : Bool} {xs ys : List Symbol}
    (left : NamesDescend caseSensitive xs) (right : NamesDescend caseSensitive ys) :
    NamesDescend caseSensitive ((mergeVariables caseSensitive xs ys).map Prod.fst) := by
  fun_induction mergeVariables caseSensitive xs ys with
  | case1 => exact .nil
  | case2 x xs inductionHypothesis =>
    obtain ⟨above, rest⟩ := List.pairwise_cons.mp left
    exact .cons (above_mergeVariables above fun _ none => nomatch none)
      (inductionHypothesis rest right)
  | case3 y ys inductionHypothesis =>
    obtain ⟨above, rest⟩ := List.pairwise_cons.mp right
    exact .cons (above_mergeVariables (fun _ none => nomatch none) above)
      (inductionHypothesis left rest)
  | case4 x xs y ys order inductionHypothesis =>
    obtain ⟨above, rest⟩ := List.pairwise_cons.mp left
    have below := (List.pairwise_cons.mp right).1
    refine .cons (above_mergeVariables above ?_) (inductionHypothesis rest right)
    exact List.forall_mem_cons.mpr ⟨order, fun z among => Symbol.compare_trans order (below z among)⟩
  | case5 x xs y ys order inductionHypothesis =>
    obtain ⟨above, rest⟩ := List.pairwise_cons.mp right
    have below := (List.pairwise_cons.mp left).1
    have reversed : y.compare x caseSensitive = .gt := by
      rw [Symbol.compare_swap, order]
      rfl
    refine .cons (above_mergeVariables ?_ above) (inductionHypothesis left rest)
    exact List.forall_mem_cons.mpr
      ⟨reversed, fun z among => Symbol.compare_trans reversed (below z among)⟩
  | case6 x xs y ys order inductionHypothesis =>
    obtain ⟨above, rest⟩ := List.pairwise_cons.mp left
    obtain ⟨below, others⟩ := List.pairwise_cons.mp right
    refine .cons (above_mergeVariables above fun z among => ?_) (inductionHypothesis rest others)
    exact Symbol.compare_trans_of_same order (below z among)

/-! ## Rows of exponents -/

/-- Exponents are compared as numbers, and the first difference decides. -/
theorem orderExponents_eq : orderExponents = List.compareLex compare := by
  funext left right
  induction left generalizing right with
  | nil => cases right <;> rfl
  | cons first lefts inductionHypothesis =>
    cases right with
    | nil => rfl
    | cons second rights =>
      rw [orderExponents, List.compareLex_cons_cons, inductionHypothesis rights]
      cases compare first second <;> rfl

instance : Std.TransCmp orderExponents :=
  orderExponents_eq ▸ (inferInstance : Std.TransCmp (List.compareLex (compare (α := UInt32))))

instance : Std.LawfulEqCmp orderExponents :=
  orderExponents_eq ▸ (inferInstance : Std.LawfulEqCmp (List.compareLex (compare (α := UInt32))))

/-- A spread row has an exponent for every mark. -/
@[simp]
theorem length_spread (marks : List Bool) (exponents : List UInt32) :
    (spread marks exponents).length = marks.length := by
  fun_induction spread marks exponents <;> simp_all

/-- A row of which the marked entries are selected has as many entries as there are marks. -/
theorem length_select {α : Type} {marks : List Bool} {row : List α}
    (aligned : row.length = marks.length) : (select marks row).length = marks.count true := by
  fun_induction select marks row with
  | case1 marks x row inductionHypothesis =>
    rw [List.length_cons, List.count_cons_self, inductionHypothesis (Nat.succ.inj aligned)]
  | case2 marks x row inductionHypothesis =>
    rw [List.count_cons_of_ne (by decide), inductionHypothesis (Nat.succ.inj aligned)]
  | case3 marks row first second => cases marks with
    | nil => rfl
    | cons mark marks =>
      cases row with
      | nil => cases aligned
      | cons x row => cases mark <;> simp_all

/-- Every selected place is a marked place of the whole row, the same one in every row. -/
theorem exists_place {marks : List Bool} {place : ℕ} (inside : place < marks.count true) :
    ∃ origin : ℕ, marks[origin]? = some true ∧
      ∀ {α : Type} (row : List α), row.length = marks.length →
        (select marks row)[place]? = row[origin]? := by
  induction marks generalizing place with
  | nil => simp at inside
  | cons mark marks inductionHypothesis =>
    cases mark with
    | false =>
      rw [List.count_cons_of_ne (by decide)] at inside
      obtain ⟨origin, marked, same⟩ := inductionHypothesis inside
      refine ⟨origin + 1, marked, fun row aligned => ?_⟩
      cases row with
      | nil => cases aligned
      | cons x row => exact same row (Nat.succ.inj aligned)
    | true =>
      rw [List.count_cons_self] at inside
      cases place with
      | zero =>
        refine ⟨0, rfl, fun row aligned => ?_⟩
        cases row with
        | nil => cases aligned
        | cons x row => rfl
      | succ place =>
        obtain ⟨origin, marked, same⟩ := inductionHypothesis (Nat.lt_of_succ_lt_succ inside)
        refine ⟨origin + 1, marked, fun row aligned => ?_⟩
        cases row with
        | nil => cases aligned
        | cons x row => exact same row (Nat.succ.inj aligned)

/-- A selected entry is an entry. -/
theorem sublist_select {α : Type} (marks : List Bool) (row : List α) :
    List.Sublist (select marks row) row := by
  fun_induction select marks row with
  | case1 marks x row inductionHypothesis => exact inductionHypothesis.cons_cons x
  | case2 marks x row inductionHypothesis => exact inductionHypothesis.cons x
  | case3 => exact List.nil_sublist _

/-- Rows of exponents that are the same at the places left out keep their order. -/
theorem orderExponents_select {marks : List Bool} {left right : List UInt32}
    (alignedLeft : left.length = marks.length) (alignedRight : right.length = marks.length)
    (same : ∀ place : ℕ, marks[place]? = some false → left[place]? = right[place]?) :
    orderExponents (select marks left) (select marks right) = orderExponents left right := by
  induction marks generalizing left right with
  | nil =>
    rw [List.length_eq_zero_iff.mp alignedLeft, List.length_eq_zero_iff.mp alignedRight]
    rfl
  | cons mark marks inductionHypothesis =>
    cases left with
    | nil => cases alignedLeft
    | cons x left =>
      cases right with
      | nil => cases alignedRight
      | cons y right =>
        have rest := inductionHypothesis (Nat.succ.inj alignedLeft) (Nat.succ.inj alignedRight)
          fun place => same (place + 1)
        cases mark with
        | true => rw [select, select, orderExponents, orderExponents, rest]
        | false =>
          obtain rfl : x = y := Option.some.inj (same 0 rfl)
          rw [select, select, rest, orderExponents, @Std.ReflCmp.compare_self _ (compare (α := UInt32))]

end PolynomialOver

end Calculator
