import Calculator.Proofs.Expression.Folding
import Calculator.Proofs.Number.Digits
import Calculator.Proofs.Source.Spelling

/-!
# Operator trees

An algebraic expression whose leaves are whole numbers and names, as the tree of its operators.
The items of a tree are the expression in postfix order. What is written for them is a row of
tokens: parentheses stand around an operand exactly where the renderer puts them, and names are
set off by blanks.
-/

namespace Calculator

open Expression (foldOnto_command foldOnto_leaf)
open Token (Written characters textOf textOf_append textOf_cons textOf_nil)

/-- An algebraic expression as a tree of operators and functions. -/
inductive Tree where
  | number (value : ℕ)
  | name (letters : String)
  | infixed (command : Command) (left right : Tree)
  | prefixed (command : Command) (operand : Tree)
  | postfixed (command : Command) (operand : Tree)
  | applied (command : Command) (argument : Tree)
  | appliedTo (command : Command) (first second : Tree)

namespace Tree

/-- The items of a tree in postfix order. -/
def items : Tree → List Value
  | number value => [.real (.ofNat value)]
  | name letters => [.symbol ⟨letters⟩]
  | infixed command left right => left.items ++ right.items ++ [.command command]
  | prefixed command operand => operand.items ++ [.command command]
  | postfixed command operand => operand.items ++ [.command command]
  | applied command argument => argument.items ++ [.command command]
  | appliedTo command first second => first.items ++ second.items ++ [.command command]

/-- Whether a tree is a number alone. -/
def isNumber : Tree → Bool
  | number _ => true
  | _ => false

/-- The trees that are meant: names are read as names and are not those of commands, and every
operator has as many operands as it takes and stands where it is written. The bar of bindings and
the mark of a factorial do not occur, nor does a sign in front of a number alone. -/
def Proper : Tree → Prop
  | number _ => True
  | name letters =>
    (∃ span, Token.split letters = .ok [⟨.name letters, span⟩]) ∧ Command.lookup? letters = none
  | infixed command left right =>
    command.fixity = .infixed ∧ command ≠ .whereBound ∧ left.Proper ∧ right.Proper
  | prefixed command operand =>
    command.fixity = .prefixed ∧ (command = .negate → operand.isNumber = false) ∧ operand.Proper
  | postfixed command operand =>
    command.fixity = .postfixed ∧ command ≠ .factorial ∧ operand.Proper
  | applied command argument =>
    command.fixity = .function ∧ command.arity = 1 ∧ argument.Proper
  | appliedTo command first second =>
    command.fixity = .function ∧ command.arity = 2 ∧ first.Proper ∧ second.Proper

/-! ## What is written -/

/-- The precedence of the outermost operator. -/
def level : Tree → Precedence
  | number _ | name _ | applied _ _ | appliedTo _ _ _ => Precedence.primary
  | infixed command _ _ | prefixed command _ => command.precedence
  | postfixed _ _ => Precedence.trailing

/-- Whether a row of tokens begins with a sign. -/
def isSigned (row : List Written) : Bool := (characters row).head? == some '-'

/-- The tokens of an operand, in parentheses if they are needed. The flag tells whether a blank
stands in front. -/
def around (parentheses : Bool) (row : Bool → List Written) (spaced : Bool) : List Written :=
  if parentheses then Token.inParentheses spaced (row false) else row spaced

/-- The tokens of a tree, with or without a blank in front. -/
def row : Tree → Bool → List Written
  | number value, spaced => [⟨spaced, .number (Digits.text value)⟩]
  | name letters, spaced => [⟨spaced, .name letters⟩]
  | infixed command left right, spaced =>
    around (left.level < command.precedence) left.row spaced
      ++ ⟨!command.isSign, command.token⟩
        :: around (right.level ≤ command.precedence || isSigned (right.row false)) right.row
          !command.isSign
  | prefixed command operand, spaced =>
    ⟨spaced, command.prefixToken⟩
      :: around (operand.level ≤ command.precedence) operand.row (command != .negate)
  | postfixed command operand, spaced =>
    around (operand.level < Precedence.trailing) operand.row spaced
      ++ [⟨false, .operator command⟩]
  | applied command argument, spaced =>
    ⟨spaced, .name command.name⟩ :: Token.inParentheses false (argument.row false)
  | appliedTo command first second, spaced =>
    ⟨spaced, .name command.name⟩
      :: Token.inParentheses false
        (if command == .nthRoot then second.row false ++ ⟨false, .semicolon⟩ :: first.row false
          else first.row false ++ ⟨false, .semicolon⟩ :: second.row false)

/-- The number of levels that an operand takes. -/
def levelsOf (parentheses : Bool) (levels : ℕ) : ℕ := if parentheses then levels + 1 else levels

/-- How deep the constructs nest that are read inside a tree: a parenthesised operand is read one
level deeper, and so is what stands behind an operator or among the arguments of a function. -/
def nesting : Tree → ℕ
  | number _ | name _ => 0
  | infixed command left right =>
    max (levelsOf (left.level < command.precedence) left.nesting)
      (levelsOf (right.level ≤ command.precedence || isSigned (right.row false)) right.nesting + 1)
  | prefixed command operand =>
    levelsOf (operand.level ≤ command.precedence) operand.nesting + 1
  | postfixed _ operand => levelsOf (operand.level < Precedence.trailing) operand.nesting
  | applied _ argument => argument.nesting + 1
  | appliedTo _ first second => max first.nesting second.nesting + 1

/-! ## What the renderer writes -/

/-- An operator between operands takes two of them. -/
theorem operands_infixed {command : Command} (fixity : command.fixity = .infixed) :
    command.operands = 2 := by
  cases command <;> first | rfl | simp [Command.fixity, Command.entry] at fixity

/-- An operator in front of or behind its operand takes one. -/
theorem operands_single {command : Command}
    (fixity : command.fixity = .prefixed ∨ command.fixity = .postfixed) : command.operands = 1 := by
  cases command <;> first | rfl | simp [Command.fixity, Command.entry] at fixity

/-- A function takes as many operands as levels of the stack. -/
theorem operands_function {command : Command} (fixity : command.fixity = .function) :
    command.operands = command.arity := by
  simp [Command.operands, Command.isAlgebraic, fixity]

/-- The text and the precedence of a tree. -/
def fragment (tree : Tree) : Render.Fragment :=
  ⟨textOf (tree.row false), tree.level⟩

section Rendering

variable {settings : Preferences} (plain : settings.render = {})
include plain

/-- Without flags a command is written with its usual spelling. -/
theorem commandName_eq (command : Command) : Render.commandName settings command = command.name := by
  simp [Render.commandName, Render.recased, plain, RenderFlags.contains, Command.name]

/-- Without flags every operator between operands is written with its usual spelling. -/
theorem operator_eq (command : Command) :
    Render.operator settings command =
      if command.isSign then command.name else " " ++ command.name ++ " " := by
  have noFlag (flag : RenderFlag) : settings.render.contains flag = false := by
    simp [plain, RenderFlags.contains]
  simp [Render.operator, noFlag, commandName_eq plain, Command.hasLetter_name]
  cases command.isSign <;> simp

omit plain in
/-- A fragment in parentheses or without them is the operand of a tree. -/
theorem within_fragment (tree : Tree) (parentheses : Bool) :
    tree.fragment.within parentheses = textOf (around parentheses tree.row false) := by
  cases parentheses
  · rfl
  · simp [Render.Fragment.within, fragment, around, Token.inParentheses, textOf_cons,
      textOf_append, textOf_nil, Token.message, String.append_assoc]

omit plain in
/-- With a blank in front, the row of an operand differs in the blank alone. -/
theorem textOf_around (parentheses : Bool) {row : Bool → List Written}
    (blank : textOf (row true) = " " ++ textOf (row false)) :
    textOf (around parentheses row true) = " " ++ textOf (around parentheses row false) := by
  cases parentheses
  · exact blank
  · simp [around, Token.inParentheses, textOf_cons, textOf_append, String.append_assoc]

omit plain in
/-- With a blank in front, the row of a tree differs in the blank alone. -/
theorem textOf_row (tree : Tree) : textOf (tree.row true) = " " ++ textOf (tree.row false) := by
  induction tree with
  | number | name | prefixed | applied | appliedTo => simp [row, textOf_cons, String.append_assoc]
  | infixed command left right leftBlank _ =>
    simp [row, textOf_append, textOf_around _ leftBlank, String.append_assoc]
  | postfixed command operand blank =>
    simp [row, textOf_append, textOf_around _ blank, String.append_assoc]

omit plain in
/-- Whether the text of a tree begins with a sign. -/
theorem startsWith_fragment (tree : Tree) :
    tree.fragment.text.startsWith "-" = isSigned (tree.row false) := by
  rw [Bool.eq_iff_iff, String.startsWith_string_iff, isSigned, fragment, textOf,
    String.toList_ofList, beq_iff_eq]
  cases characters (tree.row false) <;> simp [eq_comm]

/-- The text of an operator between two trees. -/
theorem node_infixed {command : Command} (fixity : command.fixity = .infixed) (left right : Tree) :
    Render.node settings command [left.fragment, right.fragment] =
      (infixed command left right).fragment := by
  have written : Render.node settings command [left.fragment, right.fragment] =
      Render.infixed settings command left.fragment right.fragment := by
    simp [Render.node, fixity]
  rw [written, Render.infixed, operator_eq plain, startsWith_fragment, within_fragment,
    within_fragment]
  refine congrArg (Render.Fragment.mk · command.precedence) ?_
  simp only [row, textOf_append, textOf_cons, Command.message_token]
  cases command.isSign
  · simp only [Bool.not_false, Bool.false_eq_true, if_false, if_true,
      textOf_around _ (textOf_row right), String.append_assoc]
    rfl
  · simp only [Bool.not_true, Bool.false_eq_true, if_false, if_true, String.empty_append,
      String.append_assoc]
    rfl

/-- The text of an operator in front of a tree. -/
theorem node_prefixed {command : Command} (fixity : command.fixity = .prefixed) (operand : Tree) :
    Render.node settings command [operand.fragment] = (prefixed command operand).fragment := by
  have other : command = .negate ∨ command = .not := by
    cases command <;> simp [Command.fixity, Command.entry] at fixity ⊢
  have written : Render.node settings command [operand.fragment] =
      ⟨command.entry.glyph.getD (command.name ++ " ") ++
        operand.fragment.within (operand.level ≤ command.precedence), command.precedence⟩ := by
    simp [Render.node, fixity, commandName_eq plain, fragment]
  rw [written, within_fragment]
  refine congrArg (Render.Fragment.mk · command.precedence) ?_
  simp only [row, textOf_cons]
  rcases other with rfl | rfl
  · simp [Command.prefixToken, Command.entry, Token.message, Command.symbol]
  · have spaced : (Command.not != .negate) = true := rfl
    rw [spaced, textOf_around _ (textOf_row operand), ← String.append_assoc]
    rfl

omit plain in
/-- The text of an operator behind a tree. -/
theorem node_postfixed {command : Command} (fixity : command.fixity = .postfixed) (operand : Tree) :
    Render.node settings command [operand.fragment] = (postfixed command operand).fragment := by
  have written : Render.node settings command [operand.fragment] =
      ⟨operand.fragment.within (operand.level < Precedence.trailing) ++ command.symbol,
        Precedence.trailing⟩ := by
    simp [Render.node, fixity, fragment]
  rw [written, within_fragment]
  refine congrArg (Render.Fragment.mk · Precedence.trailing) ?_
  simp [row, textOf_append, textOf_cons, textOf_nil, Token.message]

/-- The text of a function of one tree. -/
theorem node_applied {command : Command} (fixity : command.fixity = .function)
    (arity : command.arity = 1) (argument : Tree) :
    Render.node settings command [argument.fragment] = (applied command argument).fragment := by
  have noRoot : (command == .nthRoot) = false := by
    cases command <;> simp_all [Command.arity, Command.entry]
  have written : Render.node settings command [argument.fragment] =
      Render.applied settings command [argument.fragment] := by
    simp [Render.node, fixity]
  rw [written, Render.applied, commandName_eq plain]
  refine congrArg (Render.Fragment.mk · Precedence.primary) ?_
  simp [noRoot, Render.joinWith, row, Token.inParentheses, textOf_cons, textOf_append, textOf_nil,
    Token.message, fragment, String.append_assoc]

/-- The text of a function of two trees. -/
theorem node_appliedTo {command : Command} (fixity : command.fixity = .function)
    (first second : Tree) :
    Render.node settings command [first.fragment, second.fragment] =
      (appliedTo command first second).fragment := by
  have written : Render.node settings command [first.fragment, second.fragment] =
      Render.applied settings command [first.fragment, second.fragment] := by
    simp [Render.node, fixity]
  rw [written, Render.applied, commandName_eq plain]
  refine congrArg (Render.Fragment.mk · Precedence.primary) ?_
  cases root : command == .nthRoot <;>
    simp [root, Render.joinWith, row, Token.inParentheses, textOf_cons, textOf_append, textOf_nil,
      Token.message, fragment, String.append_assoc]

/-- The fragment of an item that stands for itself. -/
def leafFragment (settings : Preferences) (limit : ℕ) (item : Value) : Outcome Render.Fragment :=
  .ok ⟨Render.upTo settings limit item, Render.leafLevel item⟩

/-- The fragment of a command and its operands. -/
def nodeFragment (settings : Preferences) (command : Command) (operands : List Render.Fragment) :
    Outcome Render.Fragment :=
  .ok (Render.node settings command operands)

omit plain in
/-- A number that is not negative is written with its digits. -/
theorem real_ofNat (value : ℕ) : Render.real settings (.ofNat value) = Digits.text value := by
  rw [Real.ofNat, Real.render_ofInt, Digits.signedText, if_neg (Int.not_lt.mpr (Int.natCast_nonneg _)),
    Int.natAbs_natCast]

omit plain in
/-- A number that is not negative stands for itself. -/
theorem leafLevel_ofNat (value : ℕ) :
    Render.leafLevel (.real (.ofNat value)) = Precedence.primary := by
  have sign : (Real.ofNat value).isNegative = false := by
    rw [Real.ofNat, Real.isNegative_ofInt]
    simp
  rw [Real.ofNat] at sign ⊢
  by_cases small : (value : ℤ).natAbs < UInt64.size
  · obtain ⟨word, representation, -⟩ := Real.ofInt_of_small small
    rw [representation] at sign ⊢
    simp [Render.leafLevel, sign]
  · rw [Real.ofInt, dif_pos (Nat.le_of_not_lt small)] at sign ⊢
    simp [Render.leafLevel, sign]

/-- Folding the items of a tree gives the text of the tree. -/
theorem foldOnto_items {tree : Tree} (proper : tree.Proper) (limit : ℕ) (others : List Value)
    (results : List Render.Fragment) :
    Expression.foldOnto (leafFragment settings limit) (nodeFragment settings)
        (tree.items ++ others) results =
      Expression.foldOnto (leafFragment settings limit) (nodeFragment settings) others
        (tree.fragment :: results) := by
  induction tree generalizing others results with
  | number value =>
    have text : Render.upTo settings limit (.real (.ofNat value)) = Digits.text value := by
      cases limit <;> exact real_ofNat value
    have leaf : leafFragment settings limit (.real (.ofNat value)) = .ok (number value).fragment := by
      rw [leafFragment, text, leafLevel_ofNat]
      simp [fragment, row, textOf_cons, textOf_nil, Token.message, level]
    exact foldOnto_leaf leaf rfl others results
  | name letters =>
    have text : Render.upTo settings limit (.symbol ⟨letters⟩) = letters := by
      cases limit <;> rfl
    have leaf : leafFragment settings limit (.symbol ⟨letters⟩) = .ok (name letters).fragment := by
      rw [leafFragment, text]
      simp [fragment, row, textOf_cons, textOf_nil, Token.message, level, Render.leafLevel]
    exact foldOnto_leaf leaf rfl others results
  | infixed command left right leftFold rightFold =>
    obtain ⟨fixity, -, leftProper, rightProper⟩ := proper
    have found : nodeFragment settings command [left.fragment, right.fragment] =
        .ok (infixed command left right).fragment := congrArg _ (node_infixed plain fixity left right)
    simp only [items, List.append_assoc, leftFold leftProper, rightFold rightProper]
    exact foldOnto_command found (operands_infixed fixity) (List.cons_ne_nil _ _) others results
  | prefixed command operand fold =>
    obtain ⟨fixity, -, operandProper⟩ := proper
    have found : nodeFragment settings command [operand.fragment] =
        .ok (prefixed command operand).fragment := congrArg _ (node_prefixed plain fixity operand)
    simp only [items, List.append_assoc, fold operandProper]
    exact foldOnto_command found (operands_single (.inl fixity)) (List.cons_ne_nil _ _) others results
  | postfixed command operand fold =>
    obtain ⟨fixity, -, operandProper⟩ := proper
    have found : nodeFragment settings command [operand.fragment] =
        .ok (postfixed command operand).fragment := congrArg _ (node_postfixed fixity operand)
    simp only [items, List.append_assoc, fold operandProper]
    exact foldOnto_command found (operands_single (.inr fixity)) (List.cons_ne_nil _ _) others results
  | applied command argument fold =>
    obtain ⟨fixity, arity, argumentProper⟩ := proper
    have found : nodeFragment settings command [argument.fragment] =
        .ok (applied command argument).fragment :=
      congrArg _ (node_applied plain fixity arity argument)
    simp only [items, List.append_assoc, fold argumentProper]
    exact foldOnto_command found ((operands_function fixity).trans arity) (List.cons_ne_nil _ _)
      others results
  | appliedTo command first second firstFold secondFold =>
    obtain ⟨fixity, arity, firstProper, secondProper⟩ := proper
    have found : nodeFragment settings command [first.fragment, second.fragment] =
        .ok (appliedTo command first second).fragment :=
      congrArg _ (node_appliedTo plain fixity first second)
    simp only [items, List.append_assoc, firstFold firstProper, secondFold secondProper]
    exact foldOnto_command found ((operands_function fixity).trans arity) (List.cons_ne_nil _ _)
      others results

/-- The items of a tree are written as the row of the tree. -/
theorem expression_items {tree : Tree} (proper : tree.Proper) (limit : ℕ) :
    Render.expression settings (Render.upTo settings limit) tree.items = textOf (tree.row false) := by
  have folded := foldOnto_items plain proper limit [] []
  rw [List.append_nil] at folded
  unfold Render.expression Expression.fold
  unfold leafFragment nodeFragment at folded
  rw [folded]
  rfl

/-- A tree is written as its row between quotation marks. -/
theorem value_items {tree : Tree} (proper : tree.Proper) :
    Render.value (.expression tree.items) settings =
      textOf (⟨false, .quote⟩ :: tree.row false ++ [⟨false, .quote⟩]) := by
  have quoted : Render.value (.expression tree.items) settings =
      "'" ++ textOf (tree.row false) ++ "'" := by
    rw [← expression_items plain proper (Value.heightOfItems tree.items)]
    rfl
  rw [quoted]
  simp [textOf_cons, textOf_append, textOf_nil, Token.message, String.append_assoc]

end Rendering

end Tree

end Calculator
