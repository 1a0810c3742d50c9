import Calculator.Proofs.Encoding.RoundTrip
import Calculator.Proofs.Expression.Plain
import Mathlib

/-!
# What is left of a computation

When everything in an expression has been computed that can be, a plain value is left, or names that
stand for nothing and operators above them. Such a value is settled: each operator in it has an
operand that is symbolic, or it is an equation. Arithmetic of settled values computes where both
operands are plain, and holds its operands together otherwise. So its results are settled again, and
to compute a settled value once more changes nothing.
-/

namespace Calculator

namespace Value

open Arithmetic (symbolicBinary symbolicUnary)

/-- What is left of an expression in names of a kind when all has been computed that can be. -/
inductive Settled (Free : Symbol → Prop) : Value → Prop
  | plain {value : Value} (plain : Plain value) : Settled Free value
  | name {name : Symbol} (free : Free name) : Settled Free (.expression [.symbol name])
  | unary {command : Command} {x : Value} (one : command.operands = 1) (operand : Settled Free x)
      (symbolic : x.isSymbolic = true) : Settled Free (symbolicUnary command x)
  | binary {command : Command} {x y : Value} (two : command.operands = 2)
      (noBinding : command ≠ .whereBound) (left : Settled Free x) (right : Settled Free y)
      (held : command = .equation ∨ (x.isSymbolic || y.isSymbolic) = true) :
      Settled Free (symbolicBinary command x y)

/-- What stands among the items that are left: plain values, names of the kind, and operators other
than the one that binds. -/
inductive Remains (Free : Symbol → Prop) : Value → Prop
  | plain {value : Value} (plain : Plain value) : Remains Free value
  | name {name : Symbol} (free : Free name) : Remains Free (.symbol name)
  | operator {command : Command} (takes : 0 < command.operands)
      (noBinding : command ≠ .whereBound) : Remains Free (.command command)

variable {Free : Symbol → Prop} {value x y : Value} {command : Command}

/-- What is settled is plain or an expression. -/
theorem Settled.plain_or_expression (settled : Settled Free value) :
    Plain value ∨ ∃ items, value = .expression items := by
  cases settled with
  | plain plain => exact .inl plain
  | name => exact .inr ⟨_, rfl⟩
  | unary => exact .inr ⟨_, rfl⟩
  | binary => exact .inr ⟨_, rfl⟩

/-- What is settled and not symbolic is plain. -/
theorem Settled.plain_of_isSymbolic (settled : Settled Free value)
    (computed : value.isSymbolic = false) : Plain value := by
  rcases settled.plain_or_expression with plain | ⟨items, rfl⟩
  · exact plain
  · cases computed

/-- What is settled and symbolic is an expression. -/
theorem Settled.exists_items (settled : Settled Free value) (symbolic : value.isSymbolic = true) :
    ∃ items, value = .expression items := by
  rcases settled.plain_or_expression with plain | expression
  · rw [plain.isSymbolic] at symbolic
    cases symbolic
  · exact expression

/-- The items of what is settled are what may be left. -/
theorem Settled.remains (settled : Settled Free value) :
    ∀ item ∈ value.postfixItems, Remains Free item := by
  induction settled with
  | plain plain =>
    rw [plain.postfixItems]
    exact List.forall_mem_singleton.mpr (.plain plain)
  | name free => exact List.forall_mem_singleton.mpr (.name free)
  | unary one _ _ operand =>
    have takes : 0 < _ := one ▸ Nat.one_pos
    refine List.forall_mem_append.mpr ⟨operand, List.forall_mem_singleton.mpr (.operator takes ?_)⟩
    rintro rfl
    cases one
  | binary two noBinding _ _ _ left right =>
    have takes : 0 < _ := two ▸ Nat.two_pos
    exact List.forall_mem_append.mpr ⟨List.forall_mem_append.mpr ⟨left, right⟩,
      List.forall_mem_singleton.mpr (.operator takes noBinding)⟩

/-- What may be left is well formed. -/
theorem Remains.wellFormed (remains : Remains Free value) : value.WellFormed := by
  cases remains with
  | plain plain => exact plain.wellFormed
  | name => exact .symbol _
  | operator => exact .command _

/-- What is settled is well formed. -/
theorem Settled.wellFormed (settled : Settled Free value) : value.WellFormed := by
  rcases settled.plain_or_expression with plain | ⟨items, rfl⟩
  · exact plain.wellFormed
  · exact .sequence _ _ fun item among => (settled.remains item among).wellFormed

/-- But for units there is no binding in what may be left. -/
theorem Remains.no_binding (remains : Remains Free value) :
    ¬ IsPart false (.command .whereBound) value := by
  cases remains with
  | plain plain => exact plain.no_command _
  | name => rintro ⟨⟩
  | operator _ noBinding =>
    rintro ⟨⟩
    exact noBinding rfl

/-- But for units there is no binding in what is settled. -/
theorem Settled.no_binding (settled : Settled Free value) :
    ¬ IsPart false (.command .whereBound) value := by
  rcases settled.plain_or_expression with plain | ⟨items, rfl⟩
  · exact plain.no_command _
  · rintro (_ | _ | _ | ⟨among, inside⟩)
    exact (settled.remains _ among).no_binding inside

/-! ## Parts of what can be decoded -/

/-- A row with fewer items has a shorter encoding. -/
theorem length_encodeItems_le {row items : List Value} (fewer : row.Sublist items) :
    (Encoding.encodeItems row).length ≤ (Encoding.encodeItems items).length := by
  induction fewer with
  | slnil => exact le_rfl
  | cons item _ inductionHypothesis =>
    rw [Encoding.encodeItems, List.length_append]
    exact inductionHypothesis.trans (Nat.le_add_left _ _)
  | cons_cons item _ inductionHypothesis =>
    rw [Encoding.encodeItems, Encoding.encodeItems, List.length_append, List.length_append]
    exact Nat.add_le_add_left inductionHypothesis _

/-- What is settled can be decoded if an expression can that has all of its items. -/
theorem Settled.conforming (settled : Settled Free value) {items : List Value}
    (inside : value.postfixItems.Sublist items)
    (whole : Encoding.Conforming (.expression items)) : Encoding.Conforming value := by
  have shallow := (nestingOfItems_le_iff items _).mp whole.shallow
  have short : (Encoding.encode (.expression items)).length < 2 ^ 64 := whole.addressable
  rw [expression, ← Encoding.encode_expression, List.length_append, Encoding.counted,
    List.length_append] at short
  refine ⟨settled.wellFormed, ?_, ?_⟩
  · rcases settled.plain_or_expression with plain | ⟨row, rfl⟩
    · rw [plain.postfixItems] at inside
      exact Nat.le_of_succ_le (shallow _ (inside.subset List.mem_cons_self))
    · exact (nestingOfItems_le_iff row _).mpr fun item among =>
        shallow item (inside.subset among)
  · have fewer := length_encodeItems_le inside
    have mark := Leb128.write_length_mono fewer
    rw [Encoding.Addressable]
    rcases settled.plain_or_expression with plain | ⟨row, rfl⟩
    · have part := Encoding.encode_length_le_encodeItems _ value
        (plain.postfixItems ▸ List.mem_cons_self)
      omega
    · rw [expression, ← Encoding.encode_expression, List.length_append, Encoding.counted,
        List.length_append]
      simp only [postfixItems, expression] at fewer mark
      omega

end Value

/-! ## Arithmetic -/

namespace Arithmetic

open Value (Plain Settled)

variable {Free : Symbol → Prop} {settings : Preferences} {x y z : Value} {command : Command}

/-- A function of an expression holds it. -/
theorem unary_expression (command : Command) (items : List Value) (settings : Preferences) :
    unary command (.expression items) settings =
      .ok (symbolicUnary command (.expression items)) := by
  obtain ⟨level, computed⟩ := exists_unary_eq command (.expression items) settings
  rw [computed]
  rfl

/-- An equation holds its operands together. -/
theorem binary_equation (x y : Value) (settings : Preferences) :
    binary .equation x y settings = .ok (symbolicBinary .equation x y) := by
  obtain ⟨level, computed⟩ := exists_binary_eq .equation x y settings
  rw [computed]
  rfl

/-- An operation on settled values, one of which is symbolic, holds them together. -/
theorem binary_symbolic (left : Settled Free x) (right : Settled Free y)
    (symbolic : (x.isSymbolic || y.isSymbolic) = true) (settings : Preferences) :
    binary command x y settings = .ok (symbolicBinary command x y) := by
  have polynomial {value : Value} (settled : Settled Free value) (p : Polynomial) :
      value ≠ .polynomial p := by
    rintro rfl
    rcases settled.plain_or_expression with plain | ⟨items, same⟩
    · cases plain
    · cases same
  obtain ⟨level, computed⟩ := exists_binary_eq command x y settings
  rw [computed]
  unfold binaryOver
  split
  · rfl
  · rfl
  · exact absurd rfl (polynomial left _)
  · exact absurd rfl (polynomial right _)
  · exact if_pos symbolic

/-- A function of what is settled has a settled value. -/
theorem settled_unary (one : command.operands = 1) (operand : Settled Free x)
    (done : unary command x settings = .ok z) : Settled Free z := by
  by_cases symbolic : x.isSymbolic = true
  · obtain ⟨items, rfl⟩ := operand.exists_items symbolic
    rw [unary_expression] at done
    obtain rfl := Except.ok.inj done
    exact .unary one operand symbolic
  · have plain := operand.plain_of_isSymbolic (Bool.eq_false_iff.mpr symbolic)
    exact .plain (plain_unary one plain done)

/-- An operation on settled values has a settled result, unless it binds. -/
theorem settled_binary (two : command.operands = 2) (noBinding : command ≠ .whereBound)
    (left : Settled Free x) (right : Settled Free y)
    (done : binary command x y settings = .ok z) : Settled Free z := by
  by_cases symbolic : (x.isSymbolic || y.isSymbolic) = true
  · rw [binary_symbolic left right symbolic] at done
    obtain rfl := Except.ok.inj done
    exact .binary two noBinding left right (.inr symbolic)
  · obtain ⟨first, second⟩ := Bool.or_eq_false_iff.mp (Bool.eq_false_iff.mpr symbolic)
    by_cases equation : command = .equation
    · subst equation
      rw [binary_equation] at done
      obtain rfl := Except.ok.inj done
      exact .binary two noBinding left right (.inl rfl)
    · exact .plain (plain_binary (Command.isDyadic_of_operands two equation noBinding)
        (left.plain_of_isSymbolic first) (right.plain_of_isSymbolic second) done)

/-- To compute a settled operation once more holds its operands together as before. -/
theorem binary_held (left : Settled Free x) (right : Settled Free y)
    (held : command = .equation ∨ (x.isSymbolic || y.isSymbolic) = true) (settings : Preferences) :
    binary command x y settings = .ok (symbolicBinary command x y) := by
  rcases held with rfl | symbolic
  · exact binary_equation x y settings
  · exact binary_symbolic left right symbolic settings

/-- To compute a settled function once more holds its operand as before. -/
theorem unary_held (operand : Settled Free x) (symbolic : x.isSymbolic = true) (command : Command)
    (settings : Preferences) : unary command x settings = .ok (symbolicUnary command x) := by
  obtain ⟨items, rfl⟩ := operand.exists_items symbolic
  exact unary_expression command items settings

end Arithmetic

end Calculator
