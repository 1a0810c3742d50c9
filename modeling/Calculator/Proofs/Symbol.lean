import Calculator.Symbol
import Mathlib

/-!
# The order of names

Names are compared by the characters that count: those of the name, or the same in lower case, each put
into it on its own. They are compared by code point, and the first difference decides. This is a total
order of the characters; so to denote the same thing is an equivalence of names, and the order of names
is one of what they denote.
-/

namespace Calculator.Symbol

/-! ## Characters -/

/-- Characters are compared by their code points, and the first difference decides. -/
theorem compareCharacters_eq : compareCharacters = List.compareLex (compareOn Char.toNat) := by
  funext left right
  induction left generalizing right with
  | nil => cases right <;> rfl
  | cons first lefts inductionHypothesis =>
    cases right with
    | nil => rfl
    | cons second rights =>
      rw [compareCharacters, List.compareLex_cons_cons, compareOn, inductionHypothesis rights]
      cases Ord.compare first.toNat second.toNat <;> rfl

instance : Std.TransCmp compareCharacters :=
  compareCharacters_eq ▸ (inferInstance : Std.TransCmp (List.compareLex (compareOn Char.toNat)))

instance : Std.LawfulEqCmp (compareOn Char.toNat) where
  eq_of_compare {a b} same := by
    have codes : Ord.compare a.toNat b.toNat = .eq := same
    exact Char.toNat_inj.mp (Std.LawfulEqCmp.eq_of_compare codes)

instance : Std.LawfulEqCmp compareCharacters :=
  compareCharacters_eq ▸ (inferInstance : Std.LawfulEqCmp (List.compareLex (compareOn Char.toNat)))

/-! ## Names -/

/-- The characters that count when a name is compared. -/
def key (name : Symbol) (caseSensitive : Bool) : List Char :=
  if caseSensitive then name.name.toList else Text.foldedCharacters name.name

/-- Names are compared by the characters that count. -/
theorem compare_eq (left right : Symbol) (caseSensitive : Bool) :
    left.compare right caseSensitive =
      compareCharacters (left.key caseSensitive) (right.key caseSensitive) := by
  cases caseSensitive <;> rfl

/-- The order of names is that of their characters, which are put into lower case or not. -/
instance (caseSensitive : Bool) :
    Std.TransCmp fun left right : Symbol => left.compare right caseSensitive where
  eq_swap {left right} := by
    cases caseSensitive <;> exact @Std.OrientedCmp.eq_swap _ compareCharacters _ _ _
  isLE_trans {left middle right} := by
    cases caseSensitive <;> exact @Std.TransCmp.isLE_trans _ compareCharacters _ _ _ _

variable {first second third : Symbol} {caseSensitive : Bool}

/-- A name above a name is above all that the latter is above. -/
theorem compare_trans (left : first.compare second caseSensitive = .gt)
    (right : second.compare third caseSensitive = .gt) : first.compare third caseSensitive = .gt :=
  @Std.TransCmp.gt_trans _ (fun left right : Symbol => left.compare right caseSensitive) _ _ _ _
    left right

/-- A name that is the same as another one is above all that the latter is above. -/
theorem compare_trans_of_same (left : first.compare second caseSensitive = .eq)
    (right : second.compare third caseSensitive = .gt) : first.compare third caseSensitive = .gt :=
  @Std.TransCmp.gt_of_eq_of_gt _ (fun left right : Symbol => left.compare right caseSensitive) _ _ _
    _ left right

/-- Of two different names one is above the other. -/
theorem compare_swap (first second : Symbol) (caseSensitive : Bool) :
    first.compare second caseSensitive = (second.compare first caseSensitive).swap :=
  @Std.OrientedCmp.eq_swap _ (fun left right : Symbol => left.compare right caseSensitive) _ _ _

/-! ## Names that are the same -/

/-- Two names denote the same thing if neither is above the other. -/
theorem sameAs_iff_compare :
    first.sameAs second caseSensitive = true ↔ first.compare second caseSensitive = .eq := by
  rw [sameAs, beq_iff_eq]

/-- Two names denote the same thing if the characters that count are the same. -/
theorem sameAs_iff {left right : Symbol} {caseSensitive : Bool} :
    left.sameAs right caseSensitive = true ↔ left.key caseSensitive = right.key caseSensitive := by
  rw [sameAs_iff_compare, compare_eq, Std.LawfulEqCmp.compare_eq_iff_eq]

/-- A name denotes the same thing as itself. -/
theorem sameAs_self (name : Symbol) (caseSensitive : Bool) :
    name.sameAs name caseSensitive = true :=
  sameAs_iff.mpr rfl

/-- To denote the same thing is an equivalence of names. -/
theorem sameAs_equivalence (caseSensitive : Bool) :
    Equivalence fun left right : Symbol => left.sameAs right caseSensitive = true where
  refl name := sameAs_self name caseSensitive
  symm same := sameAs_iff.mpr (sameAs_iff.mp same).symm
  trans first second := sameAs_iff.mpr ((sameAs_iff.mp first).trans (sameAs_iff.mp second))

/-- Names that denote the same thing are compared alike with every name, on either side. -/
theorem compare_congr (same : first.sameAs second caseSensitive = true) (other : Symbol) :
    first.compare other caseSensitive = second.compare other caseSensitive ∧
      other.compare first caseSensitive = other.compare second caseSensitive := by
  simp only [compare_eq, sameAs_iff.mp same, and_self]

/-- Where capital letters count, names that are the same are one name. -/
theorem eq_of_compare {x y : Symbol} (same : x.compare y true = .eq) : x = y := by
  have names := String.toList_inj.mp (sameAs_iff.mp (sameAs_iff_compare.mpr same))
  cases x
  exact congrArg Symbol.mk names

end Calculator.Symbol
