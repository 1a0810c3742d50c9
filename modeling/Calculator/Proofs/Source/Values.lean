import Calculator.Proofs.Number.Rational
import Calculator.Proofs.Source.Parentheses

/-!
# Values in their written form

A line of values is written value by value with blanks between them. Numbers, names, texts,
commands, sequences and expressions are then read back one by one. What a value is written as
must not be taken together with what comes before or behind it: a sign belongs to the number that
touches it, a stroke makes a fraction only where it touches both numbers, and the unit of a value
goes on as long as the operators bind tightly enough, also over a blank.
-/

namespace Calculator

open Token (Written characters textOf textOf_append textOf_cons textOf_nil Legible)

namespace Source

variable {line : Line} {row rest : List Written} {deeper : Deeper}

/-! ## Blanks -/

/-- A blank stands in front of a row of tokens, or the row is empty. -/
def Detached (row : List Written) : Prop := ∀ written ∈ row.head?, written.spaced = true

/-- A token with a blank in front of it. -/
theorem detached_spaced (token : Token) (row : List Written) : Detached (⟨true, token⟩ :: row) := by
  intro written found
  obtain rfl := Option.some.inj found
  rfl

/-- What stands behind a blank is not taken together with anything in front. -/
theorem Detached.separate (detached : Detached row) :
    Token.Ends (characters row) ∧ Token.Apart (characters row) := by
  cases row with
  | nil => simp [characters, Token.Ends, Token.Apart]
  | cons written row =>
    obtain ⟨spaced, token⟩ := written
    obtain rfl : spaced = true := detached _ rfl
    refine ⟨Token.ends_spaced, ?_⟩
    intro first found
    obtain rfl : ' ' = first := by simpa [Token.characters_cons, Written.characters] using found
    rfl

/-- No token behind a blank touches the last one. -/
theorem reads_isAdjacent_detached (detached : Detached row) : Reads isAdjacent line row false row := by
  have apart : (row.head?.any fun written => !written.spaced) = false := by
    cases row with
    | nil => rfl
    | cons written row => simpa using detached written rfl
  have found : Reads isAdjacent line row (row.head?.any fun written => !written.spaced) row :=
    reads_isAdjacent
  rwa [apart] at found

/-- A token that touches the last one is passed over if it is looked for. -/
theorem reads_advanceAdjacent (token : Token) :
    Reads (advanceAdjacent token) line (⟨false, token⟩ :: row) true row := by
  refine reads_isAdjacent.bind (reads_peek.bind ?_)
  rw [if_pos (by simp)]
  exact reads_discard_advance.bind (reads_pure true)

/-- A number that touches the last token is passed over. -/
theorem reads_adjacentNumber? {Result : Type} {digits : String}
    {next : Option (String × Span) → Reading Result} {result : Result}
    (reads : ∀ span, Reads (next (some (digits, span))) line row result rest) :
    Reads (adjacentNumber? >>= next) line (⟨false, .number digits⟩ :: row) result rest := by
  unfold adjacentNumber?
  rw [bind_assoc]
  refine reads_isAdjacent.bind ?_
  intro offset
  exact reads _ _

/-- A number behind a blank is not passed over. -/
theorem reads_adjacentNumber?_detached (detached : Detached row) :
    Reads adjacentNumber? line row none row := by
  refine (reads_isAdjacent_detached detached).bind ?_
  exact reads_pure none

/-! ## Literals -/

/-- Where no stroke touches an integer, it is no numerator. -/
theorem reads_literalSuffix_integer {value : ℤ} {result : Value}
    (noStroke : row.head? ≠ some ⟨false, .operator .divide⟩)
    (reads : Reads (unitSuffix deeper (.real (.ofInt value))) line row result rest) :
    Reads (literalSuffix deeper (.real (.ofInt value))) line row result rest := by
  have integer : (Value.real (.ofInt value)).toInt? = some value := Real.toInt?_ofInt value
  have none : Reads denominator? line row none row := by
    intro offset
    obtain ⟨stop, found⟩ := reads_advanceAdjacent_false noStroke offset
    refine ⟨offset, ?_⟩
    change ((advanceAdjacent (.operator .divide) : Reading Bool) line (.before offset row) >>= _) = _
    rw [found]
    rfl
  unfold literalSuffix
  rw [integer]
  exact none.bind reads

/-- A stroke between two numbers that touch makes a fraction. -/
theorem reads_literalSuffix_fraction {value : Fraction} {result : Value}
    (reads : Reads (unitSuffix deeper (.real (.fraction value))) line row result rest) :
    Reads (literalSuffix deeper (.real (.ofInt value.numerator))) line
      (⟨false, .operator .divide⟩ :: ⟨false, .number (Digits.text value.denominator)⟩ :: row)
      result rest := by
  have integer : (Value.real (.ofInt value.numerator)).toInt? = some value.numerator :=
    Real.toInt?_ofInt value.numerator
  have denominator : Reads denominator? line
      (⟨false, .operator .divide⟩ :: ⟨false, .number (Digits.text value.denominator)⟩ :: row)
      (some (.ofNat value.denominator)) row := by
    unfold denominator?
    refine reads_get fun start _ => (reads_advanceAdjacent _).bind ?_
    refine reads_adjacentNumber? fun span => ?_
    simp only [isPlainNumber_text, if_true, number_text]
    exact reads_pure _
  have quotient : Real.ofQuotient value.numerator ((Real.ofNat value.denominator).toInt?.getD 0) =
      .ok (.fraction value) := by
    have proper := value.proper
    have nonzero : (value.denominator : ℤ) ≠ 0 := by omega
    rw [Real.ofNat, Real.toInt?_ofInt, Option.getD_some, Real.ofQuotient_eq nonzero,
      Int.cast_natCast, Real.ofRational_fraction]
  unfold literalSuffix
  rw [integer]
  refine denominator.bind ?_
  dsimp only
  rw [quotient]
  exact reads

/-! ## Literals in their written form -/

/-- The first token of an integer: its sign or its digits. -/
def signToken (value : ℤ) : Token :=
  if value < 0 then .operator .subtract else .number (Digits.text value.natAbs)

/-- What follows the first token of an integer: the digits behind its sign. -/
def signedDigits (value : ℤ) : List Written :=
  if value < 0 then [⟨false, .number (Digits.text value.natAbs)⟩] else []

/-- Whether a token may begin a value: it neither separates nor closes anything, and no unit in
front goes on with it. -/
def Begins (token : Token) : Prop :=
  token ∉ [.comma, .semicolon, .closeBrace, .closeBracket, .closeProgram] ∧
    ∀ spaced row, Stops Precedence.multiplicative (⟨spaced, token⟩ :: row)

/-- Tokens that a value is written as which may have a unit. -/
structure IsLiteral (settings : Preferences) (value : Value) (first : Token)
    (others : List Written) : Prop where
  text (limit : ℕ) : Render.upTo settings limit value = textOf (⟨false, first⟩ :: others)
  begins : Begins first
  legible (spaced : Bool) {rest : List Written} (follows : Legible rest)
      (ends : Token.Ends (characters rest)) : Legible (⟨spaced, first⟩ :: others ++ rest)
  reads {deeper : Deeper} {line : Line} {row rest : List Written} {result : Value}
      (under : line.settings = settings) (noStroke : row.head? ≠ some ⟨false, .operator .divide⟩)
      (suffix : Reads (unitSuffix deeper value) line row result rest) (span : Span) :
    Reads (objectFrom deeper first span) line (others ++ row) result rest

/-- The tokens of an integer are written as the integer. -/
theorem textOf_signed (value : ℤ) (row : List Written) :
    textOf (⟨false, signToken value⟩ :: (signedDigits value ++ row)) =
      Digits.signedText value ++ textOf row := by
  unfold signToken signedDigits Digits.signedText
  split <;>
    simp [textOf_cons, Token.message, Command.symbol, Command.entry, String.append_assoc]

/-- The tokens of an integer can be told apart from what follows. -/
theorem legible_signed (value : ℤ) (spaced : Bool) (follows : Legible rest)
    (ends : Token.Ends (characters rest)) :
    Legible (⟨spaced, signToken value⟩ :: (signedDigits value ++ rest)) := by
  unfold signToken signedDigits
  split
  · have proper : (Tree.number value.natAbs).Proper := trivial
    have apart := Tree.apart_row proper false rest
    exact ⟨by simp [Token.Spelled], fun _ => apart, Token.spelled_digits _, ends, follows⟩
  · exact ⟨Token.spelled_digits _, ends, follows⟩

/-- A sign may begin a value. -/
theorem begins_subtract : Begins (.operator .subtract) := by
  refine ⟨by simp, fun spaced row => ⟨⟨by simp, ?_⟩, ?_⟩⟩
  · rintro command same
    obtain rfl := Token.operator.inj (Option.some.inj same)
    decide
  · rintro command found
    obtain rfl : Command.subtract = command := Option.some.inj found
    decide

/-- A number may begin a value. -/
theorem begins_number (text : String) : Begins (.number text) :=
  ⟨by simp, fun _ _ => stops_of_mark rfl⟩

/-- A number or a sign may begin a value. -/
theorem begins_signToken (value : ℤ) : Begins (signToken value) := by
  unfold signToken
  split
  · exact begins_subtract
  · exact begins_number _

/-- A value that begins with the tokens of an integer is read as the integer with its suffix. -/
theorem reads_signed {value : ℤ} {result : Value}
    (suffix : Reads (literalSuffix deeper (.real (.ofInt value))) line row result rest)
    (span : Span) :
    Reads (objectFrom deeper (signToken value) span) line (signedDigits value ++ row) result rest := by
  unfold signToken signedDigits
  split
  · rename_i negative
    refine reads_adjacentNumber? fun span => ?_
    simp only [number_text, pure_bind]
    have opposite : -(value.natAbs : ℤ) = value := by omega
    rw [Real.ofNat, Real.negated_ofInt, opposite]
    exact suffix
  · rename_i positive
    have same : (value.natAbs : ℤ) = value := by omega
    unfold objectFrom
    simp only [number_text, pure_bind]
    rw [Real.ofNat, same]
    exact suffix

/-- An integer is a literal. -/
theorem isLiteral_integer (settings : Preferences) (value : ℤ) :
    IsLiteral settings (.real (.ofInt value)) (signToken value) (signedDigits value) where
  text limit := by
    have written := textOf_signed value []
    rw [List.append_nil, textOf_nil, String.append_empty] at written
    rw [written, ← Real.render_ofInt settings value]
    cases limit <;> rfl
  begins := begins_signToken value
  legible spaced _ follows ends := legible_signed value spaced follows ends
  reads _ noStroke suffix span := reads_signed (reads_literalSuffix_integer noStroke suffix) span

/-- A fraction is a literal. -/
theorem isLiteral_fraction {settings : Preferences}
    (unmixed : settings.render.contains .mixedFractions = false) (value : Fraction) :
    IsLiteral settings (.real (.fraction value)) (signToken value.numerator)
      (signedDigits value.numerator ++
        [⟨false, .operator .divide⟩, ⟨false, .number (Digits.text value.denominator)⟩]) where
  text limit := by
    have written : Render.upTo settings limit (.real (.fraction value)) =
        Render.fraction settings value := by
      cases limit <;> rfl
    rw [written, textOf_signed, Render.fraction, Digits.signedText, Fraction.isNegative]
    by_cases negative : value.numerator < 0 <;>
      simp [unmixed, negative, Render.sign, textOf_cons, textOf_nil, Token.message, Command.symbol,
        Command.entry, String.append_assoc]
  begins := begins_signToken _
  legible spaced rest follows ends := by
    have stroke : Token.Ends (characters (⟨false, .operator .divide⟩ ::
        ⟨false, .number (Digits.text value.denominator)⟩ :: rest)) := Token.ends_symbol (by decide)
    have behind : Legible (⟨false, .operator .divide⟩ ::
        ⟨false, .number (Digits.text value.denominator)⟩ :: rest) :=
      ⟨by simp [Token.Spelled], by simp [Token.Precedes], Token.spelled_digits _, ends, follows⟩
    rw [List.cons_append, List.append_assoc]
    exact legible_signed value.numerator spaced behind stroke
  reads _ _ suffix span := by
    rw [List.append_assoc]
    exact reads_signed (reads_literalSuffix_fraction suffix) span

/-- A name that is no command is a literal. -/
theorem isLiteral_name (settings : Preferences) {letters : String}
    (name : ∃ span, Token.split letters = .ok [⟨.name letters, span⟩])
    (free : Command.lookup? letters = none) :
    IsLiteral settings (.symbol ⟨letters⟩) (.name letters) [] where
  text limit := by
    rw [textOf_cons, textOf_nil]
    simp only [Token.message, String.append_empty]
    cases limit <;> rfl
  begins := by
    refine ⟨by simp, fun spaced row => ⟨⟨by simp, by simp⟩, ?_⟩⟩
    rintro command found
    simp [infixAt, free] at found
  legible _ _ follows ends := ⟨(Token.split_name_iff letters).mp name, ends, follows⟩
  reads _ _ suffix _ := by
    unfold objectFrom
    simp only [free]
    exact suffix

/-! ## Values in their written form -/

/-- Whether a value is an operator that a unit in front of it goes on with. -/
def continuesUnit : Value → Bool
  | .command command =>
    command.fixity == .infixed && Precedence.multiplicative ≤ command.precedence
      || command == .factorial
  | _ => false

/-- Whether a value ends in a unit. -/
def hasUnit : Value → Bool
  | .unit _ _ => true
  | _ => false

/-- Tokens that a value is written as. They are read as the value in front of a blank, given how
many levels there are for what is inside the value. A unit must not go on behind the blank. -/
structure IsWritten (settings : Preferences) (levels : ℕ) (value : Value) (first : Token)
    (others : List Written) : Prop where
  text {limit : ℕ} (high : value.height ≤ limit) :
    Render.upTo settings limit value = textOf (⟨false, first⟩ :: others)
  opens : first ∉ [.comma, .semicolon, .closeBrace, .closeBracket, .closeProgram]
  stops (apart : continuesUnit value = false) (spaced : Bool) (row : List Written) :
    Stops Precedence.multiplicative (⟨spaced, first⟩ :: row)
  legible (spaced : Bool) {rest : List Written} (follows : Legible rest)
      (detached : Detached rest) : Legible (⟨spaced, first⟩ :: others ++ rest)
  reads {line : Line} {rest : List Written} (under : line.settings = settings)
      (detached : Detached rest)
      (ended : hasUnit value = true → Stops Precedence.multiplicative rest) (span : Span) :
    Reads (objectFrom (atMost levels) first span) line (others ++ rest) value rest

variable {settings : Preferences} {value : Value} {first : Token} {others : List Written}

/-- A literal is written as it is. -/
theorem IsLiteral.isWritten (literal : IsLiteral settings value first others) (levels : ℕ) :
    IsWritten settings levels value first others where
  text _ := literal.text _
  opens := literal.begins.1
  stops _ := literal.begins.2
  legible spaced _ follows detached := literal.legible spaced follows detached.separate.1
  reads {line rest} under detached _ span := by
    have apart (token : Token) : rest.head? ≠ some ⟨false, token⟩ := by
      intro found
      have blank := detached _ found
      simp at blank
    exact literal.reads under (apart _) (reads_unitSuffix_none (apart _) value) span

/-- A literal with a unit. The unit is a product, or binds more tightly. -/
theorem IsLiteral.isWritten_unit (plain : settings.render = {})
    (literal : IsLiteral settings value first others) {tree : Tree} (proper : tree.Proper)
    (tight : Precedence.multiplicative ≤ tree.level) {levels : ℕ} (deep : tree.nesting ≤ levels) :
    IsWritten settings (levels + 1) (.unit value tree.items) first
      (others ++ ⟨false, .underscore⟩ :: tree.row false) where
  text {limit} high := by
    obtain ⟨limit, rfl⟩ := Nat.exists_eq_add_of_le' (Nat.one_le_of_lt high)
    change Render.upTo settings limit value ++ "_" ++
      Render.expression settings (Render.upTo settings limit) tree.items = _
    rw [literal.text, Tree.expression_items plain proper, ← List.cons_append, textOf_append,
      textOf_cons ⟨false, .underscore⟩]
    simp [Token.message, String.append_assoc]
  opens := literal.begins.1
  stops _ := literal.begins.2
  legible spaced rest follows detached := by
    rw [← List.cons_append, List.append_assoc]
    refine literal.legible spaced ⟨trivial, trivial, ?_⟩ (Token.ends_symbol (by decide))
    exact Tree.legible_row proper false rest follows detached.separate.1
  reads {line rest} under detached ended span := by
    have expression := (Tree.isRead proper line levels false deep).1
    rw [List.append_assoc]
    refine literal.reads under (by simp) ?_ span
    refine (reads_advanceAdjacent _).bind ?_
    exact (expression.reads_deeper tight (ended rfl)).bind (reads_pure _)

/-- A text without quotation marks is written between quotation marks. -/
theorem isWritten_text (settings : Preferences) (levels : ℕ) {content : String}
    (closed : '"' ∉ content.toList) :
    IsWritten settings levels (.text content) (.text content true) [] where
  text {limit} _ := by
    rw [textOf_cons, textOf_nil]
    simp only [Token.message, String.append_empty]
    cases limit <;> rfl
  opens := by simp
  stops _ _ _ := stops_of_mark rfl
  legible _ _ follows _ := ⟨⟨rfl, closed⟩, trivial, follows⟩
  reads _ _ _ _ := reads_pure _

/-- No unit goes on with the token of a command that is no operator or binds less tightly. -/
theorem stops_command {command : Command} (apart : continuesUnit (.command command) = false)
    (spaced : Bool) : Stops Precedence.multiplicative (⟨spaced, command.token⟩ :: row) := by
  obtain ⟨loose, noFactorial⟩ := Bool.or_eq_false_iff.mp apart
  refine ⟨⟨?_, ?_⟩, ?_⟩
  · unfold Command.token
    split <;> simp
  · rintro other found postfixed
    unfold Command.token at found
    split at found
    · rename_i sign
      obtain rfl := Token.operator.inj (Option.some.inj found)
      exact absurd (Command.eq_factorial sign postfixed) (beq_eq_false_iff_ne.mp noFactorial)
    · simp at found
  · rintro other found
    rw [infixAt_command, Option.mem_def, Option.filter_eq_some_iff] at found
    obtain ⟨same, fixity⟩ := found
    obtain rfl := Option.some.inj same
    simpa [fixity] using loose

/-- The token of a command is read as the command. The sign of a difference must not touch a
number. -/
theorem reads_command (command : Command) (detached : Detached row) (span : Span) :
    Reads (objectFrom deeper command.token span) line row (.command command) row := by
  unfold Command.token
  split
  · by_cases minus : command = .subtract
    · subst minus
      exact (reads_adjacentNumber?_detached detached).bind (reads_pure _)
    · cases command <;> first | exact absurd rfl minus | exact reads_pure _
  · unfold objectFrom
    simp only [Command.lookup?_name]
    exact reads_pure _

/-- A command is written with its usual spelling. -/
theorem isWritten_command {settings : Preferences} (plain : settings.render = {}) (levels : ℕ)
    (command : Command) : IsWritten settings levels (.command command) command.token [] where
  text {limit} _ := by
    rw [textOf_cons, textOf_nil, Command.message_token, ← Tree.commandName_eq plain]
    simp only [Bool.false_eq_true, if_false, String.empty_append, String.append_empty]
    cases limit <;> rfl
  opens := by
    unfold Command.token
    split <;> simp
  stops apart spaced _ := stops_command apart spaced
  legible spaced rest follows detached := by
    refine ⟨command.spelled_token, ?_, follows⟩
    unfold Command.token
    split
    · exact fun _ => detached.separate.2
    · exact detached.separate.1
  reads _ detached _ span := reads_command command detached span

/-- An expression is written between quotation marks. -/
theorem isWritten_expression (plain : settings.render = {}) {tree : Tree} (proper : tree.Proper)
    {levels : ℕ} (deep : tree.nesting ≤ levels) :
    IsWritten settings (levels + 1) (.expression tree.items) .quote
      (tree.row false ++ [⟨false, .quote⟩]) where
  text {limit} high := by
    obtain ⟨limit, rfl⟩ := Nat.exists_eq_add_of_le' (Nat.one_le_of_lt high)
    change "'" ++ Render.expression settings (Render.upTo settings limit) tree.items ++ "'" = _
    rw [Tree.expression_items plain proper]
    simp [textOf_cons, textOf_append, textOf_nil, Token.message, String.append_assoc]
  opens := by simp
  stops _ _ _ := stops_of_mark rfl
  legible spaced rest follows _ := by
    rw [List.cons_append, List.append_assoc]
    exact ⟨trivial, trivial, Tree.legible_row proper false _ ⟨trivial, trivial, follows⟩
      (Token.ends_symbol (by decide))⟩
  reads {line rest} _ _ _ span := by
    have expression := (Tree.isRead proper line levels false deep).1
    rw [List.append_assoc]
    exact (expression.quoted (Tree.level_pos proper) false span).bind (reads_pure _)

/-! ## Complex numbers -/

/-- The mark between the parts of a complex number. -/
def partsToken : ComplexForm → Token
  | .rectangular => .semicolon
  | .polar => .angle

/-- An integer in an expression is read with its sign, in front of what stops the expression. -/
theorem reads_integer (value : ℤ) (levels : ℕ) (spaced : Bool)
    (stops : Stops Precedence.parentheses rest) :
    Reads ((atMost (levels + 2)).algebraic Precedence.parentheses) line
      (⟨spaced, signToken value⟩ :: (signedDigits value ++ rest)) [.real (.ofInt value)] rest := by
  unfold signToken signedDigits
  split
  · rename_i negative
    have opposite : -(value.natAbs : ℤ) = value := by omega
    have number : IsOperand (atMost levels) line [⟨false, .number (Digits.text value.natAbs)⟩]
        [.real (.ofNat value.natAbs)] := isOperand_number _ _
    have stopped : Stops (Precedence.negate + 1) rest := stops.mono (by decide)
    have magnitude := (number.isExpression _).reads_deeper le_rfl stopped
    have operand : Reads (operand (atMost (levels + 1))) line
        (⟨spaced, .operator .subtract⟩ :: ⟨false, .number (Digits.text value.natAbs)⟩ :: rest)
        [.real (.ofInt value)] rest := by
      refine reads_here fun _ => reads_advance fun _ => magnitude.bind ?_
      dsimp only
      rw [Real.ofNat, Real.negated_ofInt, opposite]
      exact reads_pure _
    have alone := reads_primary_alone operand stopped.1
    exact reads_climb alone fun steps _ => reads_climbWithin_stop stops steps
  · rename_i positive
    have same : (value.natAbs : ℤ) = value := by omega
    have number : IsOperand (atMost (levels + 1)) line [⟨spaced, .number (Digits.text value.natAbs)⟩]
        [.real (.ofNat value.natAbs)] := isOperand_number _ _
    rw [Real.ofNat, same] at number
    exact (number.isExpression Precedence.parentheses).reads_deeper le_rfl stops

/-- The tokens behind the opening parenthesis of a complex number with integer parts. -/
def partsRow (form : ComplexForm) (first second : ℤ) : List Written :=
  ⟨false, signToken first⟩ :: (signedDigits first ++ ⟨false, partsToken form⟩ ::
    ⟨false, signToken second⟩ :: (signedDigits second ++ [⟨false, .closeParenthesis⟩]))

/-- The parts of a complex number are written between the mark and the parentheses. -/
theorem textOf_parts (form : ComplexForm) (first second : ℤ) :
    textOf (partsRow form first second) = Digits.signedText first ++ Render.separator form ++
      Digits.signedText second ++ ")" := by
  rw [partsRow, textOf_signed, textOf_cons, textOf_signed, textOf_cons, textOf_nil]
  cases form <;> simp [partsToken, Render.separator, Token.message, String.append_assoc]

/-- The parts of a complex number can be told apart. -/
theorem legible_parts (form : ComplexForm) (first second : ℤ) (follows : Legible rest) :
    Legible (partsRow form first second ++ rest) := by
  have closing : Token.Ends (characters (⟨false, .closeParenthesis⟩ :: rest)) :=
    Token.ends_symbol (by decide)
  have between (row : List Written) : Token.Ends (characters (⟨false, partsToken form⟩ :: row)) := by
    apply Token.ends_symbol
    cases form <;> decide
  have closed : Legible (⟨false, .closeParenthesis⟩ :: rest) := ⟨trivial, trivial, follows⟩
  have behind := legible_signed second false closed closing
  have separated : Legible (⟨false, partsToken form⟩ :: ⟨false, signToken second⟩ ::
      (signedDigits second ++ ⟨false, .closeParenthesis⟩ :: rest)) := by
    cases form <;> exact ⟨trivial, trivial, behind⟩
  simpa [partsRow] using legible_signed first false separated (between _)

/-- The parts of a complex number are read between the parentheses. -/
theorem reads_parts (form : ComplexForm) (first second : ℤ) (levels : ℕ) (span : Span) :
    Reads (parenthesized (atMost (levels + 2)) span) line (partsRow form first second ++ rest)
      [.complex form (.real (.ofInt first)) (.real (.ofInt second))] rest := by
  have between (row : List Written) :
      Stops Precedence.parentheses (⟨false, partsToken form⟩ :: row) := by
    cases form <;> exact stops_of_mark rfl
  have closing : Stops Precedence.parentheses (⟨false, .closeParenthesis⟩ :: rest) :=
    stops_of_mark rfl
  have behind : Reads (complexFrom (atMost (levels + 2)) form [.real (.ofInt first)] span) line
      (⟨false, partsToken form⟩ :: ⟨false, signToken second⟩ ::
        (signedDigits second ++ ⟨false, .closeParenthesis⟩ :: rest))
      [.complex form (.real (.ofInt first)) (.real (.ofInt second))] rest := by
    refine (reads_pure _).bind (reads_discard_advance.bind ?_)
    refine (reads_integer second levels false closing).bind ((reads_pure _).bind ?_)
    exact (reads_closeParenthesis false span).bind (reads_pure _)
  simp only [partsRow, List.cons_append, List.append_assoc, List.nil_append]
  refine (reads_integer first levels false (between _)).bind (reads_peek.bind ?_)
  cases form <;> exact behind

/-- A complex number is written with its parts in parentheses. -/
theorem isWritten_complex (settings : Preferences) (form : ComplexForm) (first second : ℤ)
    (levels : ℕ) :
    IsWritten settings (levels + 2) (.complex form (.real (.ofInt first)) (.real (.ofInt second)))
      .openParenthesis (partsRow form first second) where
  text {limit} high := by
    obtain ⟨limit, rfl⟩ := Nat.exists_eq_add_of_le' (Nat.one_le_of_lt high)
    have part (value : ℤ) :
        Render.upTo settings limit (.real (.ofInt value)) = Digits.signedText value := by
      rw [← Real.render_ofInt settings value]
      cases limit <;> rfl
    change "(" ++ Render.upTo settings limit _ ++ Render.separator form ++
      Render.upTo settings limit _ ++ ")" = _
    rw [part, part, textOf_cons, textOf_parts]
    simp [Token.message, String.append_assoc]
  opens := by simp
  stops _ _ _ := stops_of_mark rfl
  legible _ _ follows _ := ⟨trivial, trivial, legible_parts form first second follows⟩
  reads _ _ _ span := (reads_parts form first second levels span).bind (reads_pure _)

end Source

end Calculator
