import Calculator.Proofs.Source.Reading
import Calculator.Proofs.Source.Tree

/-!
# Parentheses

The renderer puts parentheses around an operand where its operator binds less tightly than the one
it belongs to, around a right operand also where both bind equally or where it begins with a sign.
The reader climbs from one operator to the next that binds tightly enough, and lets an operator in
front of its operand begin anew at its own precedence. These two agree on every tree of operators:
what is written for a tree is read as the tree.
-/

namespace Calculator

open Token (Written characters textOf Legible Ends Apart)

/-! ## Tokens side by side -/

namespace Token

variable {spaced : Bool} {token : Token} {row : List Written}

/-- The first character of a row of tokens is a blank or that of the first token. -/
theorem head?_characters {first : Char} (head : token.message.toList.head? = some first) :
    (characters (⟨spaced, token⟩ :: row)).head? = some (if spaced then ' ' else first) := by
  obtain ⟨others, worded⟩ := List.head?_eq_some_iff.mp head
  cases spaced <;> simp [characters_cons, Written.characters, worded]

/-- No number or name runs on in a blank. -/
theorem ends_spaced : Ends (characters (⟨true, token⟩ :: row)) := by
  intro character found
  obtain rfl : ' ' = character := by simpa [characters_cons, Written.characters] using found
  have letter := isAlphabetic_of_isBlank (show Text.isBlank ' ' = true from rfl)
  simp [runsOn, continuesName, letter, Decimal.isDigit]

/-- Whether a token begins with the character of a mark or an operator. -/
def beginsSymbol (token : Token) : Bool := token.message.toList.head?.any symbols.contains

/-- No number or name runs on in a mark or an operator. -/
theorem ends_symbol (symbol : token.beginsSymbol = true) :
    Ends (characters (⟨spaced, token⟩ :: row)) := by
  cases spaced
  · rw [beginsSymbol, Option.any_eq_true] at symbol
    obtain ⟨first, head, member⟩ := symbol
    intro character found
    rw [head?_characters head] at found
    obtain rfl : first = character := Option.some.inj found
    exact (symbols_separate first (List.contains_iff_mem.mp member)).2.2.2.1
  · exact ends_spaced

/-- No operator is extended by a token that begins no comparison. -/
theorem apart_cons {first : Char} (head : token.message.toList.head? = some first)
    (plain : extendsOperator first = false) : Apart (characters (⟨spaced, token⟩ :: row)) := by
  intro character found
  rw [head?_characters head] at found
  obtain rfl := Option.some.inj found
  cases spaced
  · exact plain
  · rfl

/-- No name begins a comparison. -/
theorem head?_of_isName {letters : List Char} (name : isName letters = true) :
    ∃ first, letters.head? = some first ∧ extendsOperator first = false := by
  unfold isName at name
  split at name
  · exact ⟨'-', rfl, rfl⟩
  · rename_i first others _
    rw [Bool.and_eq_true] at name
    have other := (beginsName_separate name.1).2.2.1
    refine ⟨first, rfl, Bool.eq_false_iff.mpr fun comparison => other ?_⟩
    simp only [extendsOperator, Bool.or_eq_true, beq_iff_eq] at comparison
    rcases comparison with (rfl | rfl) | rfl <;> decide
  · simp at name

/-- The digits of a number are spelled as they are worded. -/
theorem spelled_digits (value : ℕ) : (Token.number (Digits.text value)).Spelled := by
  rw [Token.Spelled, Digits.text, String.toList_ofList]
  obtain ⟨nonempty, plain⟩ := Digits.write_plain value
  exact .plain (.whole nonempty plain)

end Token

namespace Tree

variable {tree : Tree} {rest : List Written}

/-- No operator is extended by an operand. -/
theorem apart_around {row : Bool → List Written} (parentheses spaced : Bool)
    (apart : Apart (characters (row spaced ++ rest))) :
    Apart (characters (around parentheses row spaced ++ rest)) := by
  cases parentheses
  · exact apart
  · have head : Token.openParenthesis.message.toList.head? = some '(' := rfl
    exact Token.apart_cons head rfl

/-- No operator is extended by a tree behind it. -/
theorem apart_row (proper : tree.Proper) (spaced : Bool) (rest : List Written) :
    Apart (characters (tree.row spaced ++ rest)) := by
  have named {letters : String} (name : Token.isName letters.toList = true) (row : List Written) :
      Apart (characters (⟨spaced, .name letters⟩ :: row)) := by
    obtain ⟨first, head, plain⟩ := Token.head?_of_isName name
    exact Token.apart_cons head plain
  induction tree generalizing rest with
  | number value =>
    obtain ⟨nonempty, plain⟩ := Digits.write_plain value
    obtain ⟨digit, others, written⟩ := List.exists_cons_of_ne_nil nonempty
    have head : (Token.number (Digits.text value)).message.toList.head? = some digit := by
      simp [Token.message, Digits.text, written]
    have member := Token.mem_of_isDigit (plain digit (by simp [written]))
    refine Token.apart_cons head ?_
    fin_cases member <;> rfl
  | name letters => exact named ((Token.split_name_iff letters).mp proper.1) rest
  | infixed command left right leftApart _ =>
    rw [row, List.append_assoc]
    exact apart_around _ _ (leftApart proper.2.2.1 _)
  | prefixed command operand _ =>
    rw [row, Command.prefixToken]
    split
    · have head : (Token.operator .subtract).message.toList.head? = some '-' := rfl
      exact Token.apart_cons head rfl
    · exact named (Command.isName_name (Command.isSign_eq_false (.inr proper.1))) _
  | postfixed command operand apart =>
    rw [row, List.append_assoc]
    exact apart_around _ _ (apart proper.2.2 _)
  | applied command argument _ =>
    exact named (Command.isName_name (Command.isSign_eq_false (.inl proper.1))) _
  | appliedTo command first second _ _ =>
    exact named (Command.isName_name (Command.isSign_eq_false (.inl proper.1))) _

/-- A row of tokens can be told apart from whatever ends it. -/
def LegibleInFront (row : List Written) : Prop :=
  ∀ rest, Legible rest → Ends (characters rest) → Legible (row ++ rest)

/-- A row in parentheses can be told apart from whatever follows. -/
theorem legible_inParentheses {row : List Written} (legible : LegibleInFront row) (spaced : Bool)
    (follows : Legible rest) : Legible (Token.inParentheses spaced row ++ rest) := by
  rw [Token.inParentheses, List.append_assoc]
  exact ⟨trivial, trivial, legible _ ⟨trivial, trivial, follows⟩ (Token.ends_symbol (by decide))⟩

/-- An operand can be told apart from whatever ends it. -/
theorem legible_around {row : Bool → List Written}
    (legible : ∀ spaced, LegibleInFront (row spaced)) (parentheses spaced : Bool) :
    LegibleInFront (around parentheses row spaced) := by
  intro rest follows ends
  cases parentheses
  · exact legible spaced rest follows ends
  · exact legible_inParentheses (legible false) spaced follows

/-- The flag of an operand is that of its first token. -/
theorem around_cons {row : Bool → List Written}
    (first : ∃ token others, ∀ spaced, row spaced = ⟨spaced, token⟩ :: others) (parentheses : Bool) :
    ∃ token others, ∀ spaced, around parentheses row spaced = ⟨spaced, token⟩ :: others := by
  cases parentheses
  · exact first
  · exact ⟨_, _, fun _ => rfl⟩

/-- The flag of a tree is that of its first token. -/
theorem row_cons (tree : Tree) :
    ∃ token others, ∀ spaced, tree.row spaced = ⟨spaced, token⟩ :: others := by
  induction tree with
  | infixed command left right leftFirst _ =>
    obtain ⟨token, others, first⟩ := around_cons leftFirst (left.level < command.precedence)
    exact ⟨token, _, fun spaced => by rw [row, first, List.cons_append]⟩
  | postfixed command operand operandFirst =>
    obtain ⟨token, others, first⟩ := around_cons operandFirst (operand.level < Precedence.trailing)
    exact ⟨token, _, fun spaced => by rw [row, first, List.cons_append]⟩
  | number | name | prefixed | applied | appliedTo => exact ⟨_, _, fun _ => rfl⟩

/-- No name runs on in an operand that a blank sets off. -/
theorem ends_around (tree : Tree) (parentheses : Bool) (rest : List Written) :
    Ends (characters (around parentheses tree.row true ++ rest)) := by
  obtain ⟨token, others, first⟩ := around_cons tree.row_cons parentheses
  rw [first]
  exact Token.ends_spaced

/-- No number or name runs on in an operator between operands. -/
theorem ends_infixed (command : Command) (row : List Written) :
    Ends (characters (⟨!command.isSign, command.token⟩ :: row)) := by
  cases sign : command.isSign
  · exact Token.ends_spaced
  · apply Token.ends_symbol
    rw [Token.beginsSymbol, Command.message_token]
    cases command <;> simp_all [Command.isSign, Command.name, Command.entry, Token.symbols]

/-- An operator between operands can be told from the right one. -/
theorem legible_infixed (command : Command) {right : Tree} (proper : right.Proper)
    (parentheses : Bool)
    (legible : Legible (around parentheses right.row (!command.isSign) ++ rest)) :
    Legible (⟨!command.isSign, command.token⟩ ::
      (around parentheses right.row (!command.isSign) ++ rest)) := by
  refine ⟨command.spelled_token, ?_, legible⟩
  cases sign : command.isSign
  · rw [Command.token, sign]
    exact ends_around right parentheses rest
  · rw [Command.token, sign]
    exact fun _ => apart_around _ _ (apart_row proper _ rest)

/-- The operators behind an operand, other than the mark of a factorial. -/
theorem postfixed_cases {command : Command} (fixity : command.fixity = .postfixed)
    (noFactorial : command ≠ .factorial) :
    command = .square ∨ command = .cube ∨ command = .invert := by
  cases command <;> simp_all [Command.fixity, Command.entry]

/-- An operator behind an operand can be told from whatever follows. -/
theorem legible_postfixed {command : Command} (fixity : command.fixity = .postfixed)
    (noFactorial : command ≠ .factorial) (follows : Legible rest) :
    Legible (⟨false, .operator command⟩ :: rest) := by
  rcases postfixed_cases fixity noFactorial with rfl | rfl | rfl
  all_goals exact ⟨by simp [Token.Spelled], by simp [Token.Precedes], follows⟩

/-- No number or name runs on in an operator behind an operand. -/
theorem ends_postfixed {command : Command} (fixity : command.fixity = .postfixed)
    (noFactorial : command ≠ .factorial) (rest : List Written) :
    Ends (characters (⟨false, .operator command⟩ :: rest)) := by
  apply Token.ends_symbol
  rcases postfixed_cases fixity noFactorial with rfl | rfl | rfl <;> decide

/-- The tokens of a tree can be told apart from whatever ends the tree. -/
theorem legible_row (proper : tree.Proper) (spaced : Bool) : LegibleInFront (tree.row spaced) := by
  -- The parenthesis behind the name of a function does not run on.
  have opened (row rest : List Written) :
      Ends (characters (Token.inParentheses false row ++ rest)) := Token.ends_symbol (by decide)
  induction tree generalizing spaced with
  | number value =>
    exact fun rest follows ends => ⟨Token.spelled_digits value, ends, follows⟩
  | name letters =>
    exact fun rest follows ends => ⟨(Token.split_name_iff letters).mp proper.1, ends, follows⟩
  | infixed command left right leftLegible rightLegible =>
    obtain ⟨-, -, leftProper, rightProper⟩ := proper
    intro rest follows ends
    rw [row, List.append_assoc]
    refine legible_around (leftLegible leftProper) _ _ _ ?_ (ends_infixed _ _)
    exact legible_infixed command rightProper _
      (legible_around (rightLegible rightProper) _ _ _ follows ends)
  | prefixed command operand operandLegible =>
    obtain ⟨fixity, -, operandProper⟩ := proper
    intro rest follows ends
    refine ⟨Command.spelled_prefixToken fixity, ?_,
      legible_around (operandLegible operandProper) _ _ _ follows ends⟩
    rw [Command.prefixToken]
    split
    · exact fun _ => apart_around _ _ (apart_row operandProper _ rest)
    · rename_i other
      rw [bne_iff_ne.mpr other]
      exact ends_around operand _ rest
  | postfixed command operand operandLegible =>
    obtain ⟨fixity, noFactorial, operandProper⟩ := proper
    intro rest follows ends
    rw [row, List.append_assoc]
    exact legible_around (operandLegible operandProper) _ _ _
      (legible_postfixed fixity noFactorial follows) (ends_postfixed fixity noFactorial rest)
  | applied command argument argumentLegible =>
    obtain ⟨fixity, -, argumentProper⟩ := proper
    intro rest follows ends
    exact ⟨Command.isName_name (Command.isSign_eq_false (.inl fixity)), opened _ rest,
      legible_inParentheses (argumentLegible argumentProper false) false follows⟩
  | appliedTo command first second firstLegible secondLegible =>
    obtain ⟨fixity, -, firstProper, secondProper⟩ := proper
    have separated {row row' : List Written} (legible : LegibleInFront row)
        (legible' : LegibleInFront row') : LegibleInFront (row ++ ⟨false, .semicolon⟩ :: row') := by
      intro rest follows ends
      rw [List.append_assoc]
      exact legible _ ⟨trivial, trivial, legible' rest follows ends⟩ (Token.ends_symbol (by decide))
    intro rest follows ends
    refine ⟨Command.isName_name (Command.isSign_eq_false (.inl fixity)), opened _ rest,
      legible_inParentheses ?_ false follows⟩
    split
    · exact separated (secondLegible secondProper false) (firstLegible firstProper false)
    · exact separated (firstLegible firstProper false) (secondLegible secondProper false)

/-! ## Reading -/

open Source (IsExpression IsOperand atMost)

/-- Every tree binds more tightly than the parentheses around it. -/
theorem level_pos (proper : tree.Proper) : Precedence.parentheses ≤ tree.level := by
  have operator {command : Command}
      (fixity : command.fixity = .infixed ∨ command.fixity = .prefixed) :
      Precedence.parentheses ≤ command.precedence := by
    cases command <;> simp_all [Command.fixity, Command.precedence, Command.entry] <;> decide
  cases tree with
  | infixed => exact operator (.inl proper.1)
  | prefixed => exact operator (.inr proper.1)
  | postfixed => exact (by decide : Precedence.parentheses ≤ Precedence.trailing)
  | number | name | applied | appliedTo =>
    exact (by decide : Precedence.parentheses ≤ Precedence.primary)

/-- No operator between operands or in front of one binds as tightly as those behind one. -/
theorem precedence_lt_trailing {command : Command}
    (fixity : command.fixity = .infixed ∨ command.fixity = .prefixed) :
    command.precedence < Precedence.trailing := by
  cases command <;> simp_all [Command.fixity, Command.precedence, Command.entry] <;> decide

/-- What is read of a tree is a single number only if the tree is one. -/
theorem isRealNumber_items (compound : tree.isNumber = false) :
    Source.isRealNumber tree.items = false := by
  have behind (items : List Value) (command : Command) :
      Source.isRealNumber (items ++ [.command command]) = false := by
    rcases items with _ | ⟨item, _ | ⟨other, items⟩⟩ <;> simp [Source.isRealNumber]
  cases tree with
  | number => simp [isNumber] at compound
  | name => rfl
  | infixed | prefixed | postfixed | applied | appliedTo => exact behind _ _

variable {line : Source.Line} {levels : ℕ}

/-- What the reader makes of the row of a tree: the tree is an expression of its own precedence,
and an operand if no operator binds more tightly. -/
def IsRead (line : Source.Line) (tree : Tree) : Prop :=
  ∀ (levels : ℕ) (spaced : Bool), tree.nesting ≤ levels →
    IsExpression (atMost levels) line tree.level (tree.row spaced) tree.items ∧
      (Precedence.trailing ≤ tree.level →
        IsOperand (atMost levels) line (tree.row spaced) tree.items)

/-- A tree in parentheses is an operand. -/
theorem IsRead.parenthesized (read : IsRead line tree) (proper : tree.Proper)
    (deep : levelsOf true tree.nesting ≤ levels) (spaced : Bool) :
    IsOperand (atMost levels) line (around true tree.row spaced) tree.items := by
  obtain ⟨fewer, rfl⟩ := Nat.exists_eq_add_of_le' (Nat.one_le_of_lt deep)
  have inner := read fewer false (Nat.le_of_succ_le_succ deep)
  exact inner.1.parenthesized (level_pos proper) spaced

/-- An operand is an expression of any precedence in parentheses, and otherwise of those up to its
own. -/
theorem IsRead.isExpression (read : IsRead line tree) (proper : tree.Proper) {parentheses : Bool}
    {level : Precedence} (tight : parentheses = false → level ≤ tree.level)
    (deep : levelsOf parentheses tree.nesting ≤ levels) (spaced : Bool) :
    IsExpression (atMost levels) line level (around parentheses tree.row spaced) tree.items := by
  cases parentheses with
  | false => exact (read levels spaced deep).1.mono (tight rfl)
  | true => exact (read.parenthesized proper deep spaced).isExpression level

/-- An operand in front of an operator behind it needs no parentheses if it binds as tightly. -/
theorem IsRead.isOperand (read : IsRead line tree) (proper : tree.Proper) {parentheses : Bool}
    (tight : parentheses = false → Precedence.trailing ≤ tree.level)
    (deep : levelsOf parentheses tree.nesting ≤ levels) (spaced : Bool) :
    IsOperand (atMost levels) line (around parentheses tree.row spaced) tree.items := by
  cases parentheses with
  | false => exact (read levels spaced deep).2 (tight rfl)
  | true => exact read.parenthesized proper deep spaced

/-- What the reader makes of an operand alone it makes of it as an expression, too. -/
theorem isRead_of_isOperand
    (operand : ∀ (levels : ℕ) (spaced : Bool), tree.nesting ≤ levels →
      IsOperand (atMost levels) line (tree.row spaced) tree.items) : IsRead line tree :=
  fun levels spaced deep =>
    ⟨(operand levels spaced deep).isExpression _, fun _ => operand levels spaced deep⟩

/-- The row of a tree is read as the tree. -/
theorem isRead (proper : tree.Proper) (line : Source.Line) : IsRead line tree := by
  induction tree with
  | number value => exact isRead_of_isOperand fun _ spaced _ => Source.isOperand_number value spaced
  | name letters => exact isRead_of_isOperand fun _ spaced _ => Source.isOperand_name proper.2 spaced
  | infixed command left right leftRead rightRead =>
    obtain ⟨fixity, noBinding, leftProper, rightProper⟩ := proper
    intro levels spaced deep
    obtain ⟨leftDeep, rightDeep⟩ := Nat.max_le.mp deep
    obtain ⟨fewer, rfl⟩ := Nat.exists_eq_add_of_le' (Nat.one_le_of_lt rightDeep)
    have leftExpression := (leftRead leftProper).isExpression leftProper
      (fun loose => Nat.not_lt.mp (of_decide_eq_false loose)) leftDeep spaced
    have rightExpression := (rightRead rightProper).isExpression rightProper
      (fun loose => Nat.not_le.mp (of_decide_eq_false (Bool.or_eq_false_iff.mp loose).1))
      (Nat.le_of_succ_le_succ rightDeep) (!command.isSign)
    exact ⟨leftExpression.infixed rightExpression fixity noBinding le_rfl (Nat.lt_succ_self _) _,
      fun tight => absurd tight (Nat.not_le.mpr (precedence_lt_trailing (.inl fixity)))⟩
  | prefixed command operand read =>
    obtain ⟨fixity, noNumber, operandProper⟩ := proper
    intro levels spaced deep
    obtain ⟨fewer, rfl⟩ := Nat.exists_eq_add_of_le' (Nat.one_le_of_lt deep)
    have expression := (read operandProper).isExpression operandProper
      (fun loose => Nat.not_le.mp (of_decide_eq_false loose)) (Nat.le_of_succ_le_succ deep)
      (command != .negate)
    exact ⟨expression.prefixed fixity (Nat.lt_succ_self _)
        (fun sign => isRealNumber_items (noNumber sign)) spaced,
      fun tight => absurd tight (Nat.not_le.mpr (precedence_lt_trailing (.inr fixity)))⟩
  | postfixed command operand read =>
    obtain ⟨fixity, -, operandProper⟩ := proper
    refine isRead_of_isOperand fun levels spaced deep => ?_
    exact ((read operandProper).isOperand operandProper
      (fun loose => Nat.not_lt.mp (of_decide_eq_false loose)) deep spaced).postfixed fixity
  | applied command argument read =>
    obtain ⟨fixity, arity, argumentProper⟩ := proper
    refine isRead_of_isOperand fun levels spaced deep => ?_
    obtain ⟨fewer, rfl⟩ := Nat.exists_eq_add_of_le' (Nat.one_le_of_lt deep)
    have inner := read argumentProper fewer false (Nat.le_of_succ_le_succ deep)
    exact inner.1.applied fixity arity (level_pos argumentProper) spaced
  | appliedTo command first second firstRead secondRead =>
    obtain ⟨fixity, arity, firstProper, secondProper⟩ := proper
    refine isRead_of_isOperand fun levels spaced deep => ?_
    obtain ⟨fewer, rfl⟩ := Nat.exists_eq_add_of_le' (Nat.one_le_of_lt deep)
    obtain ⟨firstDeep, secondDeep⟩ := Nat.max_le.mp (Nat.le_of_succ_le_succ deep)
    have firstExpression := (firstRead firstProper fewer false firstDeep).1
    have secondExpression := (secondRead secondProper fewer false secondDeep).1
    have firstPos := level_pos firstProper
    have secondPos := level_pos secondProper
    rw [row, items]
    cases root : command == .nthRoot
    · have read := firstExpression.appliedTo secondExpression fixity arity firstPos secondPos spaced
      simpa [root] using read
    · have read := secondExpression.appliedTo firstExpression fixity arity secondPos firstPos spaced
      simpa [root] using read

/-! ## Reading back -/

/-- What is written for a tree can be told apart. -/
theorem legible_value (proper : tree.Proper) :
    Legible (⟨false, .quote⟩ :: tree.row false ++ [⟨false, .quote⟩]) :=
  ⟨trivial, trivial,
    legible_row proper false _ ⟨trivial, trivial, trivial⟩ (Token.ends_symbol (by decide))⟩

/-- What is written for a tree of operators is read as the tree, if the reader may go as deep as
the constructs of the text nest, of which the quotation marks are one more. -/
theorem readLine_value (proper : tree.Proper) {settings : Preferences} (plain : settings.render = {})
    (deep : tree.nesting < settings.maxRecursion.toNat) :
    Source.readLine (Render.value (.expression tree.items) settings) settings =
      .ok [.expression tree.items] := by
  rw [value_items plain proper]
  apply Source.readLine_textOf (legible_value proper)
  intro line _
  obtain ⟨levels, limit⟩ := Nat.exists_eq_add_of_le' (Nat.one_le_of_lt deep)
  have outermost : Source.outermost settings = atMost (levels + 1) := by
    rw [← limit]
    rfl
  have expression := (isRead proper line levels false (by omega)).1
  have read : Source.Reads (Source.object? (Source.outermost settings)) line
      (⟨false, .quote⟩ :: tree.row false ++ [⟨false, .quote⟩]) (some (.expression tree.items)) [] := by
    rw [outermost]
    apply Source.reads_object (by simp)
    intro opening
    exact (expression.quoted (level_pos proper) false opening).bind (Source.reads_pure _)
  exact Source.reads_objectsWithin_cons read (Source.reads_objectsWithin_nil _)

end Tree

end Calculator
