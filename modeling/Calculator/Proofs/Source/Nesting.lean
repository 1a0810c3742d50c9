import Calculator.Proofs.Source.Parentheses

/-!
# How deep an expression nests

The reader gives up where a construct lies deeper than the settings allow. What is written for a
tree of operators is read with as many levels as the tree nests, and with none fewer: the first
construct that lies too deep is reached with everything in front of it read, and the reader gives
up there whatever follows.
-/

namespace Calculator

open Token (Written textOf Legible)

namespace Source

variable {First Result : Type} {line : Line} {row rest : List Written} {written : Written}

/-! ## Giving up -/

/-- In front of a row of tokens, a reading gives up because a construct lies too deep. -/
def Overflows (reading : Reading Result) (line : Line) (row : List Written) : Prop :=
  ∀ offset, ∃ span, reading line (.before offset row) = .error (.nestingTooDeep span)

/-- Without levels left, there is nothing but to give up. -/
theorem overflows_tooDeep : Overflows (tooDeep : Reading Result) line row := by
  intro offset
  cases row <;> exact ⟨_, rfl⟩

/-- Behind a reading that gives up nothing is read. -/
theorem Overflows.bind {reading : Reading First} (overflows : Overflows reading line row)
    (next : First → Reading Result) : Overflows (reading >>= next) line row := by
  intro offset
  obtain ⟨span, failed⟩ := overflows offset
  refine ⟨span, ?_⟩
  change (reading line (.before offset row) >>= fun found => next found.1 line found.2) = _
  rw [failed]
  rfl

/-- Nothing is made of the result of a reading that gives up. -/
theorem Overflows.map {reading : Reading First} (overflows : Overflows reading line row)
    (take : First → Result) : Overflows (take <$> reading) line row := by
  intro offset
  obtain ⟨span, failed⟩ := overflows offset
  refine ⟨span, ?_⟩
  change (reading line (.before offset row) >>= fun found => pure (take found.1, found.2)) = _
  rw [failed]
  rfl

/-- A reading behind another gives up. -/
theorem Reads.overflows {reading : Reading First} {next : First → Reading Result} {first : First}
    (reads : Reads reading line row first rest) (others : Overflows (next first) line rest) :
    Overflows (reading >>= next) line row := by
  intro offset
  obtain ⟨between, found⟩ := reads offset
  obtain ⟨span, failed⟩ := others between
  refine ⟨span, ?_⟩
  change (reading line (.before offset row) >>= fun found => next found.1 line found.2) = _
  rw [found]
  exact failed

/-- What gives up does so wherever the next token stands. -/
theorem overflows_here {next : Span → Reading Result}
    (overflows : ∀ span, Overflows (next span) line row) : Overflows (here >>= next) line row := by
  intro offset
  cases row with
  | nil => exact overflows ⟨line.size, 0⟩ offset
  | cons written row => exact overflows _ offset

/-- A token is passed over before a reading gives up. -/
theorem overflows_advance {next : Option Token.Spanned → Reading Result}
    (overflows : ∀ span, Overflows (next (some ⟨written.token, span⟩)) line row) :
    Overflows (advance >>= next) line (written :: row) := by
  intro offset
  exact overflows _ _

/-- As many tokens are left as the row has. -/
theorem overflows_get {next : Cursor → Reading Result}
    (overflows : ∀ cursor : Cursor, cursor.rest.length = row.length →
      Overflows (next cursor) line row) : Overflows (get >>= next) line row :=
  fun offset => overflows (.before offset row) (Token.spans_length offset row) offset

/-! ## Constructs -/

variable {deeper : Deeper} {minimum level : Precedence} {levels : ℕ} {items : List Value}

/-- One level deeper, a reading gives up if it does so there or there is no level left. -/
theorem overflows_deeper
    (overflows : ∀ fewer, levels = fewer + 1 → Overflows (climb (atMost fewer) minimum) line row) :
    Overflows ((atMost levels).algebraic minimum) line row := by
  cases levels with
  | zero => exact overflows_tooDeep
  | succ fewer => exact overflows fewer rfl

/-- An operand that lies too deep. -/
theorem overflows_primary (overflows : Overflows (operand deeper) line row) :
    Overflows (primary deeper) line row := overflows.bind _

/-- An expression whose first operand lies too deep. -/
theorem overflows_climb (overflows : Overflows (primary deeper) line row) :
    Overflows (climb deeper minimum) line row := overflows.bind _

/-- An expression in parentheses that lies too deep. -/
theorem overflows_inParentheses
    (inside : ∀ follow,
      Overflows (deeper.algebraic Precedence.parentheses) line (row ++ follow)) (spaced : Bool) :
    Overflows (operand deeper) line (Token.inParentheses spaced row ++ rest) := by
  rw [Token.inParentheses, List.append_assoc]
  apply overflows_here
  intro opening
  apply overflows_advance
  intro span
  exact (inside _).bind _

/-- The first operand behind an operator in front of it lies too deep. -/
theorem overflows_prefixed {command : Command} (fixity : command.fixity = .prefixed)
    (inside : Overflows (deeper.algebraic (command.precedence + 1)) line row) (spaced : Bool) :
    Overflows (operand deeper) line (⟨spaced, command.prefixToken⟩ :: row) := by
  apply overflows_here
  intro place
  apply overflows_advance
  intro span
  rcases prefixed_cases fixity with rfl | rfl
  · exact inside.bind _
  · exact inside.bind _

/-- A function in front of arguments of which one lies too deep. -/
theorem overflows_function {command : Command} (fixity : command.fixity = .function)
    (inside : ∀ opening, Overflows (do
      let first ← deeper.algebraic Precedence.parentheses
      let others ← furtherArguments deeper (command.arity - 1)
      closeParenthesis opening
      let arguments := first :: others
      let arguments := if command == .nthRoot then arguments.reverse else arguments
      return arguments.flatten ++ [.command command]) line row) (spaced : Bool) :
    Overflows (operand deeper) line
      (⟨spaced, .name command.name⟩ :: ⟨false, .openParenthesis⟩ :: row) := by
  apply overflows_here
  intro place
  apply overflows_advance
  intro span
  simp only [named_function fixity]
  apply reads_peek.overflows
  rw [if_pos (by simp)]
  apply overflows_here
  intro opening
  exact reads_discard_advance.overflows (inside opening)

/-- The right operand of an operator lies too deep. -/
theorem overflows_climbWithin_right {command : Command} {steps : ℕ}
    (found : infixAt (written :: row) = some command) (noBinding : command ≠ .whereBound)
    (tight : minimum ≤ command.precedence)
    (right : Overflows (deeper.algebraic (command.precedence + 1)) line row) :
    Overflows (climbWithin deeper minimum (steps + 1)) line (written :: row) := by
  apply reads_infixed?.overflows
  rw [found]
  simp only [if_neg (Nat.not_lt_of_le tight), beq_eq_false_iff_ne.mpr noBinding]
  apply reads_discard_advance.overflows
  exact (right.map _).bind _

/-- What follows an operator and its right operand lies too deep. -/
theorem overflows_climbWithin_further {command : Command} {steps : ℕ}
    (found : infixAt (written :: row) = some command) (noBinding : command ≠ .whereBound)
    (tight : minimum ≤ command.precedence)
    (right : Reads (deeper.algebraic (command.precedence + 1)) line row items rest)
    (further : Overflows (climbWithin deeper minimum steps) line rest) :
    Overflows (climbWithin deeper minimum (steps + 1)) line (written :: row) := by
  apply reads_infixed?.overflows
  rw [found]
  simp only [if_neg (Nat.not_lt_of_le tight), beq_eq_false_iff_ne.mpr noBinding]
  apply reads_discard_advance.overflows
  apply (right.map _).overflows
  exact further.bind _

/-- The first value of a line lies too deep. -/
theorem overflows_objectsWithin
    (value? : written.token ≠ .comma ∧ written.token ≠ .semicolon)
    (overflows : ∀ span, Overflows (objectFrom deeper written.token span) line row) (steps : ℕ) :
    Overflows (objectsWithin deeper (steps + 1)) line (written :: row) := by
  apply Overflows.bind
  apply (reads_skipSeparators value?).overflows
  apply overflows_advance
  intro span
  exact (overflows span).bind _

/-- A line is refused if a construct of it lies too deep. -/
theorem readLine_overflows {settings : Preferences} (legible : Legible row)
    (overflows : ∀ line : Line, line.settings = settings →
      Overflows (objectsWithin (outermost settings) row.length) line row) :
    ∃ span, readLine (textOf row) settings = .error (.nestingTooDeep span) := by
  obtain ⟨span, failed⟩ := overflows ⟨settings, (textOf row).utf8ByteSize⟩ rfl 0
  refine ⟨span, ?_⟩
  rw [readLine_spans legible, objectsWithin_passed _ none (some 0)]
  exact congrArg (Except.map Prod.fst) failed

/-! ## Behind an expression -/

/-- A row of tokens is an expression whose outermost operator has a precedence, and is passed over
up to a construct behind it that lies too deep. -/
def LeadsOn (deeper : Deeper) (line : Line) (level : Precedence) (row : List Written) : Prop :=
  ∀ (minimum : Precedence) (follow : List Written), minimum ≤ level → Stops (level + 1) follow →
    (∀ steps, follow.length ≤ steps → Overflows (climbWithin deeper minimum steps) line follow) →
    Overflows (climb deeper minimum) line (row ++ follow)

/-- Behind an operand, the operators are looked for. -/
theorem overflows_behind {follow : List Written}
    (reads : Reads (primary deeper) line row items follow)
    (further : ∀ steps, follow.length ≤ steps →
      Overflows (climbWithin deeper minimum steps) line follow) :
    Overflows (climb deeper minimum) line row := by
  apply reads.overflows
  apply overflows_get
  intro cursor length
  exact (further _ length.ge).bind _

/-- An operand is passed over. -/
theorem IsOperand.leadsOn (operand : IsOperand deeper line row items) (level : Precedence) :
    LeadsOn deeper line level row := by
  intro minimum follow below stops further
  have first := operand [] follow (by simp) stops.1
  simp only [trailing, List.map_nil, List.append_nil] at first
  exact overflows_behind first further

/-- An expression that binds more tightly is passed over as well. -/
theorem LeadsOn.mono {level' : Precedence} (leads : LeadsOn deeper line level row)
    (below : level' ≤ level) : LeadsOn deeper line level' row := by
  intro minimum follow tight stops
  exact leads minimum follow (tight.trans below) (stops.mono (Nat.succ_le_succ below))

end Source

namespace Tree

open Source

variable {tree : Tree} {line : Line} {levels : ℕ} {spaced parentheses : Bool}
  {level minimum : Precedence}

/-! ## Trees -/

/-- Parentheses take a level, if anything. -/
theorem le_levelsOf (parentheses : Bool) (levels : ℕ) : levels ≤ levelsOf parentheses levels := by
  cases parentheses
  · exact le_rfl
  · exact Nat.le_succ levels

/-- An operand is passed over, in parentheses as well as without them. -/
theorem leadsOn_around (leads : LeadsOn (atMost levels) line tree.level (tree.row spaced))
    (proper : tree.Proper) (tight : parentheses = false → level ≤ tree.level)
    (deep : levelsOf parentheses tree.nesting ≤ levels) :
    LeadsOn (atMost levels) line level (around parentheses tree.row spaced) := by
  cases parentheses with
  | false => exact leads.mono (tight rfl)
  | true => exact ((isRead proper line).parenthesized proper deep spaced).leadsOn level

/-- A tree without an operator outside parentheses is passed over. -/
theorem leadsOn_operand (proper : tree.Proper) (line : Line) (deep : tree.nesting ≤ levels)
    (spaced : Bool) (tight : Precedence.trailing ≤ tree.level) :
    LeadsOn (atMost levels) line tree.level (tree.row spaced) :=
  ((isRead proper line levels spaced deep).2 tight).leadsOn _

/-- A tree that does not nest too deep is passed over. -/
theorem leadsOn (proper : tree.Proper) (line : Line) (deep : tree.nesting ≤ levels) (spaced : Bool) :
    LeadsOn (atMost levels) line tree.level (tree.row spaced) := by
  induction tree generalizing spaced with
  | number | name | applied | appliedTo =>
    exact leadsOn_operand proper line deep spaced (by decide : Precedence.trailing ≤ Precedence.primary)
  | postfixed => exact leadsOn_operand proper line deep spaced le_rfl
  | prefixed command argument _ =>
    obtain ⟨fixity, noNumber, argumentProper⟩ := proper
    obtain ⟨fewer, rfl⟩ := Nat.exists_eq_add_of_le' (Nat.one_le_of_lt deep)
    have expression := (isRead argumentProper line).isExpression argumentProper
      (fun loose => Nat.not_le.mp (of_decide_eq_false loose)) (Nat.le_of_succ_le_succ deep)
      (command != .negate)
    intro minimum follow below stops further
    have read := expression.reads_prefixed fixity (Nat.lt_succ_self _)
      (fun sign => isRealNumber_items (noNumber sign)) spaced stops
    exact overflows_behind read further
  | infixed command left right leftLeads _ =>
    obtain ⟨fixity, noBinding, leftProper, rightProper⟩ := proper
    obtain ⟨leftDeep, rightDeep⟩ := Nat.max_le.mp deep
    obtain ⟨fewer, rfl⟩ := Nat.exists_eq_add_of_le' (Nat.one_le_of_lt rightDeep)
    have leftAround := leadsOn_around
      (leftLeads leftProper ((le_levelsOf _ _).trans leftDeep) spaced) leftProper
      (fun loose => Nat.not_lt.mp (of_decide_eq_false loose)) leftDeep
    have rightExpression := (isRead rightProper line).isExpression rightProper
      (fun loose => Nat.not_le.mp (of_decide_eq_false (Bool.or_eq_false_iff.mp loose).1))
      (Nat.le_of_succ_le_succ rightDeep) (!command.isSign)
    intro minimum follow below stops further
    rw [row, List.append_assoc, List.cons_append]
    apply leftAround minimum _ below (stops_infixed fixity le_rfl _ _)
    intro steps enough
    rw [List.length_cons, List.length_append] at enough
    obtain ⟨steps, rfl⟩ : ∃ fewer, steps = fewer + 1 := ⟨steps - 1, by omega⟩
    apply overflows_climbWithin_further (infixAt_token fixity _ _) noBinding below
    · exact rightExpression.reads_deeper (Nat.lt_succ_self _) stops
    · exact further steps (by omega)

/-- Whatever follows it, the reader gives up in a tree that nests deeper than it may go: in an
expression that binds no more tightly, and in an operand if no operator is outside parentheses. -/
def IsTooDeep (line : Line) (tree : Tree) : Prop :=
  ∀ (levels : ℕ) (spaced : Bool) (follow : List Written), levels < tree.nesting →
    (∀ minimum ≤ tree.level,
      Overflows (climb (atMost levels) minimum) line (tree.row spaced ++ follow)) ∧
    (Precedence.trailing ≤ tree.level →
      Overflows (primary (atMost levels)) line (tree.row spaced ++ follow))

/-- One level deeper, the reader gives up in a tree that nests too deep. -/
theorem IsTooDeep.deeper (tooDeep : IsTooDeep line tree) (proper : tree.Proper)
    (deep : levels < tree.nesting + 1) (follow : List Written) :
    Overflows ((atMost levels).algebraic Precedence.parentheses) line (tree.row false ++ follow) := by
  apply overflows_deeper
  rintro fewer rfl
  exact (tooDeep fewer false follow (Nat.lt_of_succ_lt_succ deep)).1 _ (level_pos proper)

/-- In parentheses, a tree lies one level deeper. -/
theorem IsTooDeep.parenthesized (tooDeep : IsTooDeep line tree) (proper : tree.Proper)
    (deep : levels < levelsOf true tree.nesting) (spaced : Bool) (follow : List Written) :
    Overflows (primary (atMost levels)) line (around true tree.row spaced ++ follow) := by
  apply overflows_primary
  apply overflows_inParentheses
  exact tooDeep.deeper proper deep

/-- One of the two arguments of a function lies too deep. -/
theorem overflows_arguments {first second : Tree} (firstTooDeep : IsTooDeep line first)
    (firstProper : first.Proper) (secondTooDeep : IsTooDeep line second)
    (secondProper : second.Proper) (deep : levels < max first.nesting second.nesting + 1)
    {Result : Type} (next : List Value → List (List Value) → Reading Result) (follow : List Written) :
    Overflows (do
      let argument ← (atMost levels).algebraic Precedence.parentheses
      let others ← furtherArguments (atMost levels) 1
      next argument others) line
      (first.row false ++ ⟨false, .semicolon⟩ :: (second.row false ++ follow)) := by
  by_cases firstDeep : levels < first.nesting + 1
  · exact (firstTooDeep.deeper firstProper firstDeep _).bind _
  · have secondDeep : levels < second.nesting + 1 := by omega
    obtain ⟨fewer, rfl⟩ : ∃ fewer, levels = fewer + 1 := ⟨levels - 1, by omega⟩
    have expression := (isRead firstProper line fewer false (by omega)).1
    have separated : Stops Precedence.parentheses
        (⟨false, .semicolon⟩ :: (second.row false ++ follow)) := stops_of_mark rfl
    apply (expression.reads_deeper (level_pos firstProper) separated).overflows
    apply Overflows.bind
    apply reads_peek.overflows
    apply reads_discard_advance.overflows
    exact (secondTooDeep.deeper secondProper secondDeep follow).bind _

/-- An operand that lies too deep, as an expression. -/
theorem IsTooDeep.climb (tooDeep : IsTooDeep line tree) (proper : tree.Proper)
    (tight : parentheses = false → minimum ≤ tree.level)
    (deep : levels < levelsOf parentheses tree.nesting) (spaced : Bool) (follow : List Written) :
    Overflows (Source.climb (atMost levels) minimum) line
      (around parentheses tree.row spaced ++ follow) := by
  cases parentheses with
  | false => exact (tooDeep levels spaced follow deep).1 minimum (tight rfl)
  | true => exact overflows_climb (tooDeep.parenthesized proper deep spaced follow)

/-- An operand that lies too deep, in front of an operator behind it. -/
theorem IsTooDeep.primary (tooDeep : IsTooDeep line tree) (proper : tree.Proper)
    (tight : parentheses = false → Precedence.trailing ≤ tree.level)
    (deep : levels < levelsOf parentheses tree.nesting) (spaced : Bool) (follow : List Written) :
    Overflows (Source.primary (atMost levels)) line
      (around parentheses tree.row spaced ++ follow) := by
  cases parentheses with
  | false => exact (tooDeep levels spaced follow deep).2 (tight rfl)
  | true => exact tooDeep.parenthesized proper deep spaced follow

/-- What lies too deep as an operand does so as an expression, too. -/
theorem isTooDeep_of_primary
    (operand : ∀ (levels : ℕ) (spaced : Bool) (follow : List Written), levels < tree.nesting →
      Overflows (primary (atMost levels)) line (tree.row spaced ++ follow)) : IsTooDeep line tree :=
  fun levels spaced follow deep =>
    ⟨fun _ _ => overflows_climb (operand levels spaced follow deep),
      fun _ => operand levels spaced follow deep⟩

/-- The reader gives up in every tree that nests deeper than it may go. -/
theorem isTooDeep (proper : tree.Proper) (line : Line) : IsTooDeep line tree := by
  induction tree with
  | number | name => exact fun _ _ _ deep => absurd deep (Nat.not_lt_zero _)
  | infixed command left right leftTooDeep rightTooDeep =>
    obtain ⟨fixity, noBinding, leftProper, rightProper⟩ := proper
    intro levels spaced follow deep
    refine ⟨?_, fun tight => absurd tight (Nat.not_le.mpr (precedence_lt_trailing (.inl fixity)))⟩
    intro minimum below
    have leftTight : (decide (left.level < command.precedence)) = false →
        command.precedence ≤ left.level := fun loose => Nat.not_lt.mp (of_decide_eq_false loose)
    rw [row, List.append_assoc, List.cons_append]
    by_cases leftDeep : levels < levelsOf (left.level < command.precedence) left.nesting
    · apply (leftTooDeep leftProper).climb leftProper _ leftDeep
      exact fun loose => below.trans (leftTight loose)
    · have rightDeep := (lt_max_iff.mp deep).resolve_left leftDeep
      have leftDeep := Nat.not_lt.mp leftDeep
      have leftLeads := leadsOn leftProper line ((le_levelsOf _ _).trans leftDeep) spaced
      apply leadsOn_around leftLeads leftProper leftTight leftDeep minimum _ below
        (stops_infixed fixity le_rfl _ _)
      intro steps enough
      rw [List.length_cons] at enough
      obtain ⟨steps, rfl⟩ : ∃ fewer, steps = fewer + 1 := ⟨steps - 1, by omega⟩
      apply overflows_climbWithin_right (infixAt_token fixity _ _) noBinding below
      apply overflows_deeper
      rintro fewer rfl
      apply (rightTooDeep rightProper).climb rightProper _ (Nat.lt_of_succ_lt_succ rightDeep)
      exact fun loose => Nat.not_le.mp (of_decide_eq_false (Bool.or_eq_false_iff.mp loose).1)
  | prefixed command argument argumentTooDeep =>
    obtain ⟨fixity, -, argumentProper⟩ := proper
    apply isTooDeep_of_primary
    intro levels spaced follow deep
    apply overflows_primary
    apply overflows_prefixed fixity
    apply overflows_deeper
    rintro fewer rfl
    apply (argumentTooDeep argumentProper).climb argumentProper _ (Nat.lt_of_succ_lt_succ deep)
    exact fun loose => Nat.not_le.mp (of_decide_eq_false loose)
  | postfixed command operand operandTooDeep =>
    obtain ⟨-, -, operandProper⟩ := proper
    apply isTooDeep_of_primary
    intro levels spaced follow deep
    rw [row, List.append_assoc]
    apply (operandTooDeep operandProper).primary operandProper _ deep
    exact fun loose => Nat.not_lt.mp (of_decide_eq_false loose)
  | applied command argument argumentTooDeep =>
    obtain ⟨fixity, -, argumentProper⟩ := proper
    apply isTooDeep_of_primary
    intro levels spaced follow deep
    apply overflows_primary
    simp only [row, Token.inParentheses, List.cons_append, List.append_assoc]
    apply overflows_function fixity
    intro opening
    exact ((argumentTooDeep argumentProper).deeper argumentProper deep _).bind _
  | appliedTo command first second firstTooDeep secondTooDeep =>
    obtain ⟨fixity, arity, firstProper, secondProper⟩ := proper
    apply isTooDeep_of_primary
    intro levels spaced follow deep
    apply overflows_primary
    simp only [row, Token.inParentheses, List.cons_append, List.append_assoc]
    apply overflows_function fixity
    intro opening
    rw [arity]
    cases root : command == .nthRoot
    · simp only [Bool.false_eq_true, if_false, List.append_assoc, List.cons_append]
      exact overflows_arguments (firstTooDeep firstProper) firstProper (secondTooDeep secondProper)
        secondProper deep _ _
    · simp only [if_true, List.append_assoc, List.cons_append]
      rw [nesting, Nat.max_comm] at deep
      exact overflows_arguments (secondTooDeep secondProper) secondProper (firstTooDeep firstProper)
        firstProper deep _ _

/-! ## The limit -/

/-- What is written for a tree of operators is read as the tree if the reader may go as deep as the
constructs of the text nest, of which the quotation marks are one more, and is refused for its
nesting if not. -/
theorem readLine_value_limit (proper : tree.Proper) {settings : Preferences}
    (plain : settings.render = {}) :
    (tree.nesting < settings.maxRecursion.toNat →
      readLine (Render.value (.expression tree.items) settings) settings =
        .ok [.expression tree.items]) ∧
    (settings.maxRecursion.toNat ≤ tree.nesting →
      ∃ span, readLine (Render.value (.expression tree.items) settings) settings =
        .error (.nestingTooDeep span)) := by
  constructor
  · exact readLine_value proper plain
  · intro shallow
    rw [value_items plain proper]
    apply readLine_overflows (legible_value proper)
    intro line _
    apply overflows_objectsWithin (by simp)
    intro opening
    have expression := (isTooDeep proper line).deeper proper (Nat.lt_succ_of_le shallow)
      [⟨false, .quote⟩]
    exact (expression.bind _).bind _

/-- Both operands of a power are in parentheses if they are signed. Such a text takes four levels. -/
theorem readLine_value_limit_signed :
    let signed := prefixed .negate (name "X")
    let tree := infixed .subtract (infixed .power signed signed) (postfixed .square signed)
    readLine (Render.value (.expression tree.items) {}) {} = .ok [.expression tree.items] ∧
      ∃ span, readLine (Render.value (.expression tree.items) { maxRecursion := 3 })
        { maxRecursion := 3 } = .error (.nestingTooDeep span) := by
  intro signed tree
  have named : (name "X").Proper := ⟨(Token.split_name_iff "X").mpr (by decide), by decide +kernel⟩
  have proper : signed.Proper := ⟨rfl, fun _ => rfl, named⟩
  have whole : tree.Proper := ⟨rfl, by decide, ⟨rfl, by decide, proper, proper⟩, rfl, by decide, proper⟩
  constructor
  · exact (readLine_value_limit whole rfl).1 (by decide)
  · exact (readLine_value_limit whole rfl).2 (by decide)

end Tree

end Calculator
