import Calculator.Proofs.Number.Digits
import Calculator.Proofs.Source.Spelling
import Calculator.Source.Reading

/-!
# Reading rows of tokens

What a construct reads depends on the tokens in front of it and on where blanks stand between
them, but not on where in the line they stand. `Reads` says what a reading makes of a row of
tokens and what it leaves of the row; the laws below say it of every construct an algebraic
expression is made of.
-/

namespace Calculator.Source

open Token (Written spans)

/-- The place in a line in front of a row of tokens. -/
def Cursor.before (offset : Nat) (row : List Written) : Cursor := ⟨some offset, spans offset row⟩

/-- In front of a row of tokens, a reading has a result and leaves the rest of the row, wherever
the row stands. -/
def Reads {Result : Type} (reading : Reading Result) (line : Line) (row : List Written)
    (result : Result) (rest : List Written) : Prop :=
  ∀ offset, ∃ stop, reading line (.before offset row) = .ok (result, .before stop rest)

variable {First Result : Type} {line : Line} {row rest : List Written} {written : Written}

/-! ## Steps -/

/-- What reads nothing leaves everything. -/
theorem reads_pure (result : Result) : Reads (pure result) line row result row :=
  fun offset => ⟨offset, rfl⟩

/-- One reading behind another. -/
theorem Reads.bind {reading : Reading First} {next : First → Reading Result} {first : First}
    {middle : List Written} {result : Result} (reads : Reads reading line row first middle)
    (others : Reads (next first) line middle result rest) :
    Reads (reading >>= next) line row result rest := by
  intro offset
  obtain ⟨between, found⟩ := reads offset
  obtain ⟨stop, last⟩ := others between
  refine ⟨stop, ?_⟩
  change (reading line (.before offset row) >>= fun found => next found.1 line found.2) = _
  rw [found]
  exact last

/-- A reading whose result is taken further. -/
theorem Reads.map {reading : Reading First} {first : First} (take : First → Result)
    (reads : Reads reading line row first rest) :
    Reads (take <$> reading) line row (take first) rest := by
  intro offset
  obtain ⟨stop, found⟩ := reads offset
  refine ⟨stop, ?_⟩
  change (reading line (.before offset row) >>= fun found => pure (take found.1, found.2)) = _
  rw [found]
  rfl

/-- The next token is seen without being passed over. -/
theorem reads_peek : Reads peek line row (row.head?.map Written.token) row := by
  intro offset
  cases row <;> exact ⟨offset, rfl⟩

/-- The place of the next token is seen, whichever it is. -/
theorem reads_here {next : Span → Reading Result} {result : Result}
    (reads : ∀ span, Reads (next span) line row result rest) :
    Reads (here >>= next) line row result rest := by
  intro offset
  cases row with
  | nil => exact reads ⟨line.size, 0⟩ offset
  | cons written row => exact reads _ offset

/-- A token is passed over. -/
theorem reads_advance {next : Option Token.Spanned → Reading Result} {result : Result}
    (reads : ∀ span, Reads (next (some ⟨written.token, span⟩)) line row result rest) :
    Reads (advance >>= next) line (written :: row) result rest := by
  intro offset
  exact reads _ _

/-- A token is passed over and forgotten. -/
theorem reads_discard_advance : Reads (discard advance) line (written :: row) () row :=
  fun _ => ⟨_, rfl⟩

/-- As many tokens are left as the row has. -/
theorem reads_get {next : Cursor → Reading Result} {result : Result}
    (reads : ∀ cursor : Cursor, cursor.rest.length = row.length →
      Reads (next cursor) line row result rest) :
    Reads (get >>= next) line row result rest :=
  fun offset => reads (.before offset row) (Token.spans_length offset row) offset

/-! ## Operators between operands -/

/-- The operator between operands that a row of tokens begins with. -/
def infixAt (row : List Written) : Option Command :=
  let command :=
    match row.head?.map Written.token with
    | some (.operator command) => some command
    | some (.name letters) => Command.lookup? letters
    | _ => none
  command.filter fun command => command.fixity == .infixed

/-- Nothing that a row of tokens begins with belongs to an operand in front of it. -/
def Quiet (row : List Written) : Prop :=
  row.head?.map Written.token ≠ some .underscore ∧
    ∀ command, row.head?.map Written.token = some (.operator command) →
      command.fixity ≠ .postfixed

/-- Nothing that a row of tokens begins with belongs to an expression in front of it, if this is
read up to operators that bind less tightly than a minimum. -/
def Stops (minimum : Precedence) (row : List Written) : Prop :=
  Quiet row ∧ ∀ command ∈ infixAt row, command.precedence < minimum

/-- What stops an expression stops one that is read up to operators that bind more tightly. -/
theorem Stops.mono {minimum minimum' : Precedence} (stops : Stops minimum row)
    (below : minimum ≤ minimum') : Stops minimum' row :=
  ⟨stops.1, fun command found => Nat.lt_of_lt_of_le (stops.2 command found) below⟩

/-- The operator that comes next is seen without being passed over. -/
theorem reads_infixed? : Reads infixed? line row (infixAt row) row :=
  reads_peek.bind (reads_pure _)

variable {deeper : Deeper} {minimum : Precedence} {items others : List Value}

/-- An expression goes on no further in front of what stops it. -/
theorem reads_climbWithin_stop (stops : Stops minimum row) (steps : Nat) :
    Reads (climbWithin deeper minimum steps) line row [] row := by
  cases steps with
  | zero => exact reads_pure []
  | succ steps =>
    refine reads_infixed?.bind ?_
    cases found : infixAt row with
    | none => exact reads_pure []
    | some command =>
      have below := stops.2 command found
      simp only [if_pos below]
      exact reads_pure []

/-- An expression goes on with an operator that binds tightly enough and its right operand. -/
theorem reads_climbWithin_step {command : Command} {middle : List Written} {steps : Nat}
    (found : infixAt (written :: row) = some command) (noBinding : command ≠ .whereBound)
    (tight : minimum ≤ command.precedence)
    (right : Reads (deeper.algebraic (command.precedence + 1)) line row items middle)
    (further : Reads (climbWithin deeper minimum steps) line middle others rest) :
    Reads (climbWithin deeper minimum (steps + 1)) line (written :: row)
      (items ++ [.command command] ++ others) rest := by
  refine reads_infixed?.bind ?_
  rw [found]
  simp only [if_neg (Nat.not_lt_of_le tight), beq_eq_false_iff_ne.mpr noBinding]
  refine reads_discard_advance.bind ?_
  exact (right.map _).bind (further.bind (reads_pure _))

/-! ## Operands -/

/-- Operators behind an operand, as a row of tokens. -/
def trailing (operators : List Command) : List Written :=
  operators.map fun command => ⟨false, .operator command⟩

/-- The operators behind an operand are passed over. -/
theorem postfixedFrom_trailing {operators : List Command}
    (postfixed : ∀ command ∈ operators, command.fixity = .postfixed) (quiet : Quiet rest)
    (offset : Nat) :
    ∃ stop, postfixedFrom (some offset) (spans offset (trailing operators ++ rest)) =
      (operators.map .command, .before stop rest) := by
  induction operators generalizing offset with
  | nil =>
    refine ⟨offset, ?_⟩
    cases rest with
    | nil => rfl
    | cons written rest =>
      have plain := quiet.2
      obtain ⟨spaced, token⟩ := written
      cases token <;> try rfl
      rename_i command
      have other := plain command rfl
      simp [trailing, spans, postfixedFrom, other, Cursor.before]
  | cons command operators inductionHypothesis =>
    have first := postfixed command List.mem_cons_self
    have others : ∀ other ∈ operators, other.fixity = .postfixed := fun other member =>
      postfixed other (List.mem_cons_of_mem _ member)
    obtain ⟨stop, found⟩ := inductionHypothesis others
      (offset + Token.byteLength (Token.operator command).message.toList)
    refine ⟨stop, ?_⟩
    simpa [trailing, spans, postfixedFrom, first, Span.stop, Prod.ext_iff] using found

/-- An operand is read with the operators behind it. -/
theorem reads_primary {operators : List Command}
    (reads : Reads (operand deeper) line row items (trailing operators ++ rest))
    (postfixed : ∀ command ∈ operators, command.fixity = .postfixed) (quiet : Quiet rest) :
    Reads (primary deeper) line row (items ++ operators.map .command) rest := by
  refine reads.bind fun offset => ?_
  obtain ⟨stop, found⟩ := postfixedFrom_trailing postfixed quiet offset
  refine ⟨stop, ?_⟩
  change (let found := postfixedFrom (some offset) (spans offset (trailing operators ++ rest))
    Except.ok (items ++ found.1, found.2)) = _
  rw [found]

/-- An operand with no operator behind it is read alone. -/
theorem reads_primary_alone (reads : Reads (operand deeper) line row items rest)
    (quiet : Quiet rest) : Reads (primary deeper) line row items rest := by
  have alone : Reads (operand deeper) line row items (trailing [] ++ rest) := reads
  simpa using reads_primary alone (by simp) quiet

/-- An expression is an operand and what follows it. -/
theorem reads_climb {follow : List Written} (reads : Reads (primary deeper) line row items follow)
    (further : ∀ steps, follow.length ≤ steps →
      Reads (climbWithin deeper minimum steps) line follow others rest) :
    Reads (climb deeper minimum) line row (items ++ others) rest :=
  reads.bind (reads_get fun _ length => (further _ length.ge).bind (reads_pure _))

/-- A row of tokens is an operand, given what can be read one level deeper: with operators behind
it, it is read as its items and the operators. -/
def IsOperand (deeper : Deeper) (line : Line) (row : List Written) (items : List Value) : Prop :=
  ∀ (operators : List Command) (rest : List Written),
    (∀ command ∈ operators, command.fixity = .postfixed) → Quiet rest →
      Reads (primary deeper) line (row ++ trailing operators ++ rest)
        (items ++ operators.map .command) rest

/-- A row of tokens is an expression whose outermost operator has a precedence, given what can be
read one level deeper: read up to operators that bind less tightly than a minimum, it is read as
its items and goes on with what follows. -/
def IsExpression (deeper : Deeper) (line : Line) (level : Precedence) (row : List Written)
    (items : List Value) : Prop :=
  ∀ (minimum : Precedence) (follow : List Written), minimum ≤ level → Stops (level + 1) follow →
    ∀ (others : List Value) (rest : List Written),
      (∀ steps, follow.length ≤ steps →
        Reads (climbWithin deeper minimum steps) line follow others rest) →
      Reads (climb deeper minimum) line (row ++ follow) (items ++ others) rest

variable {level : Precedence}

/-- What is read where an operand begins, with nothing of what follows, is an operand. -/
theorem isOperand_of_operand
    (reads : ∀ rest, rest.head?.map Written.token ≠ some .underscore →
      Reads (operand deeper) line (row ++ rest) items rest) :
    IsOperand deeper line row items := by
  intro operators rest postfixed quiet
  have plain : (trailing operators ++ rest).head?.map Written.token ≠ some .underscore := by
    cases operators with
    | nil => exact quiet.1
    | cons command operators => simp [trailing]
  rw [List.append_assoc]
  exact reads_primary (reads _ plain) postfixed quiet

/-- An operand with an operator behind it is an operand. -/
theorem IsOperand.postfixed {command : Command} (operand : IsOperand deeper line row items)
    (fixity : command.fixity = .postfixed) :
    IsOperand deeper line (row ++ [⟨false, .operator command⟩]) (items ++ [.command command]) := by
  intro operators rest postfixed quiet
  have all : ∀ other ∈ command :: operators, other.fixity = .postfixed :=
    List.forall_mem_cons.mpr ⟨fixity, postfixed⟩
  simpa [trailing] using operand (command :: operators) rest all quiet

/-- An operand is an expression of the highest precedence. -/
theorem IsOperand.isExpression (operand : IsOperand deeper line row items) (level : Precedence) :
    IsExpression deeper line level row items := by
  intro minimum follow below stops others rest further
  have first := operand [] follow (by simp) stops.1
  simp only [trailing, List.map_nil, List.append_nil] at first
  exact reads_climb first further

/-- An expression binds as tightly as its outermost operator, and less tightly as well. -/
theorem IsExpression.mono {level' : Precedence}
    (expression : IsExpression deeper line level row items) (below : level' ≤ level) :
    IsExpression deeper line level' row items :=
  fun minimum follow tight stops =>
    expression minimum follow (tight.trans below) (stops.mono (Nat.succ_le_succ below))

/-- An expression is read as its items in front of what stops it. -/
theorem IsExpression.reads (expression : IsExpression deeper line level row items)
    (below : minimum ≤ level) (stops : Stops minimum rest) :
    Reads (climb deeper minimum) line (row ++ rest) items rest := by
  have read := expression minimum rest below (stops.mono (Nat.le_succ_of_le below)) [] rest
    fun steps _ => reads_climbWithin_stop stops steps
  rwa [List.append_nil] at read

/-! ## Leaves -/

/-- A token touches the last one if no blank stands in front of it. -/
theorem reads_isAdjacent :
    Reads isAdjacent line row (row.head?.any fun written => !written.spaced) row := by
  intro offset
  refine ⟨offset, ?_⟩
  cases row with
  | nil => rfl
  | cons written row =>
    change Except.ok (offset + (if written.spaced then 1 else 0) == offset, _) = _
    cases spaced : written.spaced <;> simp [spaced]

/-- A token that does not touch the last one, or is not the one that is looked for, is not passed
over. -/
theorem reads_advanceAdjacent_false {token : Token} (other : row.head? ≠ some ⟨false, token⟩) :
    Reads (advanceAdjacent token) line row false row := by
  refine reads_isAdjacent.bind (reads_peek.bind ?_)
  have refused : ((row.head?.any fun written => !written.spaced) &&
      row.head?.map Written.token == some token) = false := by
    rcases row with _ | ⟨⟨_ | _, found⟩, row⟩
    · rfl
    · simpa using other
    · rfl
  rw [refused, if_neg Bool.false_ne_true]
  exact reads_pure false

/-- Without the mark of a unit a value has none. -/
theorem reads_unitSuffix_none (plain : row.head? ≠ some ⟨false, .underscore⟩)
    (value : Value) : Reads (unitSuffix deeper value) line row value row := by
  refine (reads_advanceAdjacent_false plain).bind ?_
  exact reads_pure value

/-- The text of a number has digits only. -/
theorem isPlainNumber_text (value : ℕ) : isPlainNumber (Digits.text value) = true := by
  rw [isPlainNumber, Digits.text, String.toList_ofList, List.all_eq_true]
  exact (Digits.write_plain value).2

/-- The digits of a number are read as the number. -/
theorem number_text (value : ℕ) (span : Span) :
    (number (Digits.text value) span : Reading Real) = pure (.ofNat value) := by
  rw [number, if_pos (isPlainNumber_text value), Digits.text, String.toList_ofList,
    Digits.read_write]
  rfl

/-- A number is an operand. -/
theorem isOperand_number (value : ℕ) (spaced : Bool) :
    IsOperand deeper line [⟨spaced, .number (Digits.text value)⟩] [.real (.ofNat value)] := by
  refine isOperand_of_operand fun rest plain => reads_here fun _ => reads_advance fun span => ?_
  simp only [number_text, pure_bind]
  have noMark : rest.head? ≠ some ⟨false, .underscore⟩ := fun mark => plain (by rw [mark]; rfl)
  exact (reads_unitSuffix_none noMark _).bind (reads_pure _)

/-- A name that is no command is an operand. -/
theorem isOperand_name {letters : String} (free : Command.lookup? letters = none) (spaced : Bool) :
    IsOperand deeper line [⟨spaced, .name letters⟩] [.symbol ⟨letters⟩] := by
  refine isOperand_of_operand fun rest _ => reads_here fun _ => reads_advance fun span => ?_
  simp only [named, free]
  exact reads_pure _

/-! ## Constructs that hold expressions -/

/-- Whether an expression may go on with a token: only with an operator, or a unit. -/
def mayContinue : Token → Bool
  | .operator _ | .name _ | .underscore => true
  | _ => false

/-- What an expression cannot go on with stops it. -/
theorem stops_of_mark {minimum : Precedence} (mark : mayContinue written.token = false) :
    Stops minimum (written :: row) := by
  obtain ⟨spaced, token⟩ := written
  cases token <;> simp_all [Stops, Quiet, infixAt, mayContinue]

/-- A closing parenthesis is passed over. -/
theorem reads_closeParenthesis (spaced : Bool) (opening : Span) :
    Reads (closeParenthesis opening) line (⟨spaced, .closeParenthesis⟩ :: row) () row :=
  reads_peek.bind reads_discard_advance

/-- What can be read so many levels deep. -/
def atMost (levels : ℕ) : Deeper := ⟨algebraicWithin levels, sequenceWithin levels⟩

variable {levels : ℕ}

/-- An expression that is an expression one level deeper is read there in front of what stops it. -/
theorem IsExpression.reads_deeper (expression : IsExpression (atMost levels) line level row items)
    (below : minimum ≤ level) (stops : Stops minimum rest) :
    Reads ((atMost (levels + 1)).algebraic minimum) line (row ++ rest) items rest :=
  expression.reads below stops

/-- An expression in parentheses is an operand. -/
theorem IsExpression.parenthesized
    (expression : IsExpression (atMost levels) line level row items)
    (positive : Precedence.parentheses ≤ level) (spaced : Bool) :
    IsOperand (atMost (levels + 1)) line (Token.inParentheses spaced row) items := by
  refine isOperand_of_operand fun rest _ => ?_
  rw [Token.inParentheses, List.append_assoc, List.cons_append]
  refine reads_here fun opening => reads_advance fun _ => ?_
  refine (expression.reads_deeper positive (stops_of_mark rfl)).bind (reads_peek.bind ?_)
  change Reads (do closeParenthesis opening; return items) _ _ _ _
  exact (reads_closeParenthesis false opening).bind (reads_pure items)

/-- Whether a row of items is a single real number. -/
def isRealNumber : List Value → Bool
  | [.real _] => true
  | _ => false

/-- The operators in front of an operand. -/
theorem prefixed_cases {command : Command} (fixity : command.fixity = .prefixed) :
    command = .negate ∨ command = .not := by
  cases command <;> simp [Command.fixity, Command.entry] at fixity ⊢

/-- The operand behind an operator is read with the operator, unless it is a number with a sign. -/
theorem reads_prefixedOperand {command : Command}
    (reads : Reads (deeper.algebraic (command.precedence + 1)) line row items rest)
    (noNumber : command = .negate → isRealNumber items = false) :
    Reads (prefixedOperand deeper command) line row (items ++ [.command command]) rest := by
  refine reads.bind ?_
  split
  · simp [isRealNumber] at noNumber
  · exact reads_pure _

/-- An operator in front of an expression that binds more tightly, which must not be a number if
the operator is the sign, is read with the expression. -/
theorem IsExpression.reads_prefixed {command : Command}
    (expression : IsExpression (atMost levels) line level row items)
    (fixity : command.fixity = .prefixed) (tighter : command.precedence < level)
    (noNumber : command = .negate → isRealNumber items = false) (spaced : Bool)
    (stops : Stops (command.precedence + 1) rest) :
    Reads (primary (atMost (levels + 1))) line (⟨spaced, command.prefixToken⟩ :: (row ++ rest))
      (items ++ [.command command]) rest := by
  have operand := reads_prefixedOperand (expression.reads_deeper tighter stops) noNumber
  refine reads_primary_alone ?_ stops.1
  refine reads_here fun _ => reads_advance fun span => ?_
  rcases prefixed_cases fixity with rfl | rfl
  · exact operand
  · exact operand

/-- An operator in front of an expression that binds more tightly is an expression. -/
theorem IsExpression.prefixed {command : Command}
    (expression : IsExpression (atMost levels) line level row items)
    (fixity : command.fixity = .prefixed) (tighter : command.precedence < level)
    (noNumber : command = .negate → isRealNumber items = false) (spaced : Bool) :
    IsExpression (atMost (levels + 1)) line command.precedence
      (⟨spaced, command.prefixToken⟩ :: row) (items ++ [.command command]) := by
  intro minimum follow below stops others rest further
  exact reads_climb (expression.reads_prefixed fixity tighter noNumber spaced stops) further

/-- The token of a command is found as the command if this stands between operands. -/
theorem infixAt_command (command : Command) (spaced : Bool) (row : List Written) :
    infixAt (⟨spaced, command.token⟩ :: row) =
      (some command).filter fun command => command.fixity == .infixed := by
  unfold Command.token
  split
  · rfl
  · simp [infixAt, Command.lookup?_name]

/-- The token of an operator between operands is found as the operator. -/
theorem infixAt_token {command : Command} (fixity : command.fixity = .infixed) (spaced : Bool)
    (row : List Written) : infixAt (⟨spaced, command.token⟩ :: row) = some command := by
  simp [infixAt_command, fixity]

/-- The token of an operator between operands belongs to no operand in front of it. -/
theorem quiet_token {command : Command} (fixity : command.fixity = .infixed) (spaced : Bool)
    (row : List Written) : Quiet (⟨spaced, command.token⟩ :: row) := by
  unfold Command.token
  split <;> simp [Quiet, fixity]

/-- An operator between operands stops an expression that binds at least as tightly. -/
theorem stops_infixed {command : Command} (fixity : command.fixity = .infixed)
    (tight : command.precedence ≤ level) (spaced : Bool) (row : List Written) :
    Stops (level + 1) (⟨spaced, command.token⟩ :: row) := by
  refine ⟨quiet_token fixity spaced _, ?_⟩
  intro other found
  obtain rfl := Option.some.inj ((infixAt_token fixity spaced row).symm.trans found)
  exact Nat.lt_succ_of_le tight

/-- An operator between two expressions, of which the left one binds at least as tightly and the
right one more tightly, is an expression. -/
theorem IsExpression.infixed {command : Command} {row' : List Written} {items' : List Value}
    {level' : Precedence} (left : IsExpression (atMost (levels + 1)) line level row items)
    (right : IsExpression (atMost levels) line level' row' items')
    (fixity : command.fixity = .infixed) (noBinding : command ≠ .whereBound)
    (leftTight : command.precedence ≤ level) (rightTight : command.precedence < level')
    (spaced : Bool) :
    IsExpression (atMost (levels + 1)) line command.precedence
      (row ++ ⟨spaced, command.token⟩ :: row') (items ++ items' ++ [.command command]) := by
  intro minimum follow below stops others rest further
  have found := infixAt_token fixity spaced (row' ++ follow)
  have leftStops := stops_infixed fixity leftTight spaced (row' ++ follow)
  rw [List.append_assoc, List.cons_append, List.append_assoc, List.append_assoc]
  refine left minimum _ (below.trans leftTight) leftStops _ rest fun steps enough => ?_
  rw [List.length_cons, List.length_append] at enough
  obtain ⟨steps, rfl⟩ : ∃ fewer, steps = fewer + 1 := ⟨steps - 1, by omega⟩
  rw [← List.append_assoc]
  exact reads_climbWithin_step found noBinding below (right.reads_deeper rightTight stops)
    (further steps (by omega))

/-! ## Functions -/

/-- The name of a function is read as the function with its arguments. -/
theorem named_function {command : Command} (fixity : command.fixity = .function) (span : Span) :
    named deeper command.name span = application deeper command := by
  rw [named, Command.lookup?_name]
  dsimp only
  rw [fixity]

/-- The arguments of a function are read in parentheses, the first one and then the others. -/
theorem reads_application {command : Command} {first : List Value} {arguments : List (List Value)}
    {middle : List Written}
    (reads : Reads (deeper.algebraic Precedence.parentheses) line row first middle)
    (further : Reads (furtherArguments deeper (command.arity - 1)) line middle arguments
      (⟨false, .closeParenthesis⟩ :: rest)) :
    Reads (application deeper command) line (⟨false, .openParenthesis⟩ :: row)
      ((if command == .nthRoot then (first :: arguments).reverse else first :: arguments).flatten ++
        [.command command]) rest := by
  refine reads_peek.bind ?_
  rw [if_pos (by simp)]
  refine reads_here fun opening => reads_discard_advance.bind (reads.bind (further.bind ?_))
  exact (reads_closeParenthesis false opening).bind (reads_pure _)

/-- A function in front of one expression in parentheses is an operand. -/
theorem IsExpression.applied {command : Command}
    (argument : IsExpression (atMost levels) line level row items)
    (fixity : command.fixity = .function) (arity : command.arity = 1)
    (positive : Precedence.parentheses ≤ level) (spaced : Bool) :
    IsOperand (atMost (levels + 1)) line (⟨spaced, .name command.name⟩ :: Token.inParentheses false row)
      (items ++ [.command command]) := by
  refine isOperand_of_operand fun rest _ => reads_here fun _ => reads_advance fun span => ?_
  simp only [named_function fixity, Token.inParentheses, List.cons_append]
  have single : Reads (furtherArguments (atMost (levels + 1)) (command.arity - 1)) line
      (⟨false, .closeParenthesis⟩ :: rest) [] (⟨false, .closeParenthesis⟩ :: rest) := by
    rw [arity]
    exact reads_pure []
  have read := reads_application (argument.reads_deeper positive (stops_of_mark rfl)) single
  simpa using read

/-- A function in front of two expressions in parentheses is an operand. The degree of a root is
written first. -/
theorem IsExpression.appliedTo {command : Command} {row' : List Written} {items' : List Value}
    {level' : Precedence} (first : IsExpression (atMost levels) line level row items)
    (second : IsExpression (atMost levels) line level' row' items')
    (fixity : command.fixity = .function) (arity : command.arity = 2)
    (positive : Precedence.parentheses ≤ level) (positive' : Precedence.parentheses ≤ level')
    (spaced : Bool) :
    IsOperand (atMost (levels + 1)) line
      (⟨spaced, .name command.name⟩ :: Token.inParentheses false (row ++ ⟨false, .semicolon⟩ :: row'))
      ((if command == .nthRoot then items' ++ items else items ++ items') ++
        [.command command]) := by
  refine isOperand_of_operand fun rest _ => reads_here fun _ => reads_advance fun span => ?_
  simp only [named_function fixity, Token.inParentheses, List.cons_append, List.append_assoc]
  have other : Reads (furtherArguments (atMost (levels + 1)) (command.arity - 1)) line
      (⟨false, .semicolon⟩ :: (row' ++ ⟨false, .closeParenthesis⟩ :: rest)) [items']
      (⟨false, .closeParenthesis⟩ :: rest) := by
    rw [arity]
    refine reads_peek.bind (reads_discard_advance.bind ?_)
    refine (second.reads_deeper positive' (stops_of_mark rfl)).bind ?_
    exact (reads_pure []).bind (reads_pure _)
  have read := reads_application (first.reads_deeper positive (stops_of_mark rfl)) other
  cases root : command == .nthRoot <;> simpa [root] using read

/-! ## Lines -/

variable {value : Value} {values : List Value}

/-- Commas and semicolons are dropped in front of a value. -/
theorem skipSeparators_rest (cursor : Cursor) : cursor.skipSeparators.rest =
    cursor.rest.dropWhile fun next => next.token == .comma || next.token == .semicolon := by
  obtain ⟨passed, rest⟩ := cursor
  unfold Cursor.skipSeparators
  induction rest generalizing passed with
  | nil => rfl
  | cons next rest inductionHypothesis =>
    rw [Cursor.skipSeparators.go, List.dropWhile_cons]
    split
    · exact inductionHypothesis _
    · rfl

/-- The next value is read behind the token that it begins with. -/
theorem object?_eq (deeper : Deeper) (line : Line) (cursor : Cursor) :
    object? deeper line cursor =
      match cursor.skipSeparators.rest with
      | [] => .ok (none, cursor.skipSeparators)
      | next :: rest =>
        objectFrom deeper next.token next.span line ⟨some next.span.stop, rest⟩ >>= fun found =>
          .ok (some found.1, found.2) := by
  obtain ⟨finish, skipped, token, nothing⟩ :
      ∃ finish : Option Token.Spanned × Cursor → Outcome (Option Value × Cursor),
        object? deeper line cursor = advance line cursor.skipSeparators >>= finish ∧
        (∀ next after, finish (some next, after) =
          objectFrom deeper next.token next.span line after >>= fun found =>
            .ok (some found.1, found.2)) ∧
        ∀ after, finish (none, after) = .ok (none, after) :=
    ⟨_, rfl, fun _ _ => rfl, fun _ => rfl⟩
  rw [skipped]
  generalize cursor.skipSeparators = cursor
  obtain ⟨passed, rest⟩ := cursor
  cases rest with
  | nil => exact nothing _
  | cons next rest => exact token next _

/-- No separator is passed over in front of a token that is none. -/
theorem reads_skipSeparators (value? : written.token ≠ .comma ∧ written.token ≠ .semicolon) :
    Reads (modify Cursor.skipSeparators) line (written :: row) () (written :: row) := by
  intro offset
  refine ⟨offset, ?_⟩
  change Except.ok ((), (Cursor.before offset (written :: row)).skipSeparators) = _
  simp [Cursor.before, Cursor.skipSeparators, Cursor.skipSeparators.go, spans, value?]

/-- A value on the command line is read from its first token on, if that separates no values. -/
theorem reads_object (value? : written.token ≠ .comma ∧ written.token ≠ .semicolon)
    (reads : ∀ span, Reads (objectFrom deeper written.token span) line row value rest) :
    Reads (object? deeper) line (written :: row) (some value) rest := by
  apply (reads_skipSeparators value?).bind
  apply reads_advance
  intro span
  exact (reads span).bind (reads_pure _)

/-- Between quotation marks there is an expression. -/
theorem IsExpression.quoted (expression : IsExpression (atMost levels) line level row items)
    (positive : Precedence.parentheses ≤ level) (spaced : Bool) (opening : Span) :
    Reads (Source.quoted (atMost (levels + 1)) opening) line (row ++ ⟨spaced, .quote⟩ :: rest)
      items rest := by
  have mark : Stops Precedence.parentheses (⟨spaced, .quote⟩ :: rest) := stops_of_mark rfl
  exact (expression.reads_deeper positive mark).bind (reads_advance fun span => reads_pure items)

/-- The values of a line are read one after the other. -/
theorem reads_objectsWithin_cons {middle : List Written} {steps : ℕ}
    (first : Reads (object? deeper) line row (some value) middle)
    (others : Reads (objectsWithin deeper steps) line middle values rest) :
    Reads (objectsWithin deeper (steps + 1)) line row (value :: values) rest :=
  first.bind (others.bind (reads_pure _))

/-- At the end of a line there are no more values. -/
theorem reads_objectsWithin_nil (steps : ℕ) :
    Reads (objectsWithin deeper steps) line [] [] [] := by
  cases steps with
  | zero => exact reads_pure []
  | succ steps => exact fun offset => ⟨offset, rfl⟩

/-- What stands in front of a line does not matter to the values that are read from it. -/
theorem objectsWithin_passed (steps : ℕ) (passed passed' : Option ℕ) (tokens : List Token.Spanned) :
    (objectsWithin deeper steps line ⟨passed, tokens⟩).map Prod.fst =
      (objectsWithin deeper steps line ⟨passed', tokens⟩).map Prod.fst := by
  cases steps with
  | zero => rfl
  | succ steps =>
    cases tokens with
    | nil => rfl
    | cons next tokens =>
      have object : object? deeper line ⟨passed, next :: tokens⟩ =
          object? deeper line ⟨passed', next :: tokens⟩ := by
        obtain ⟨finish, skipped⟩ : ∃ finish : Option Token.Spanned × Cursor → _,
            ∀ passed, object? deeper line ⟨passed, next :: tokens⟩ =
              advance line (Cursor.mk passed (next :: tokens)).skipSeparators >>= finish :=
          ⟨_, fun _ => rfl⟩
        rw [skipped, skipped]
        simp only [Cursor.skipSeparators, Cursor.skipSeparators.go]
        split <;> rfl
      change (object? deeper line ⟨passed, next :: tokens⟩ >>= _).map _ =
        (object? deeper line ⟨passed', next :: tokens⟩ >>= _).map _
      rw [object]

/-- Reading the text of tokens that can be told apart begins with the tokens. -/
theorem readLine_spans {settings : Preferences} (legible : Token.Legible row) :
    readLine (Token.textOf row) settings =
      (objectsWithin (outermost settings) row.length ⟨settings, (Token.textOf row).utf8ByteSize⟩
        ⟨none, spans 0 row⟩).map Prod.fst := by
  let line : Line := ⟨settings, (Token.textOf row).utf8ByteSize⟩
  rw [readLine, start, Token.split_characters legible, ← Token.spans_length 0 row]
  change (objectsWithin (outermost settings) (spans 0 row).length line ⟨none, spans 0 row⟩ >>=
    fun found => pure found.1) = _
  cases objectsWithin (outermost settings) (spans 0 row).length line ⟨none, spans 0 row⟩ <;> rfl

/-- The values of a line are read from the text of its tokens. -/
theorem readLine_textOf {settings : Preferences} (legible : Token.Legible row)
    (reads : ∀ line : Line, line.settings = settings →
      Reads (objectsWithin (outermost settings) row.length) line row values []) :
    readLine (Token.textOf row) settings = .ok values := by
  obtain ⟨stop, found⟩ := reads ⟨settings, (Token.textOf row).utf8ByteSize⟩ rfl 0
  rw [readLine_spans legible, objectsWithin_passed _ none (some 0)]
  exact congrArg (Except.map Prod.fst) found

end Calculator.Source
