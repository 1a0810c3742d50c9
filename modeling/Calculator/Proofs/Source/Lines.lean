import Calculator.Proofs.Source.Values

/-!
# Lines of values

Values that are written side by side with a blank in front of each are read one after the other,
on the command line as well as inside a list, an array or a program. The one thing that reaches
over the blank is a unit: an operator behind it that binds as tightly as a product would be taken
into the unit. A line of plain values in which no unit stands in front of such an operator is
written and read as the same line.
-/

namespace Calculator

open Token (Written characters textOf textOf_append textOf_cons textOf_nil Legible)

namespace Source

variable {line : Line} {settings : Preferences} {levels : ℕ} {spaced : Bool}
  {values : List Value} {row rest : List Written}

/-! ## Side by side -/

/-- Tokens that values are written as which stand side by side with blanks between them. The flag
tells whether a blank stands in front of the first one, too. -/
inductive AreWritten (settings : Preferences) (levels : ℕ) : Bool → List Value → List Written → Prop
  | nil (spaced : Bool) : AreWritten settings levels spaced [] []
  | cons {spaced : Bool} {value : Value} {first : Token} {others : List Written}
      {values : List Value} {row : List Written}
      (head : IsWritten settings levels value first others)
      (tail : AreWritten settings levels true values row)
      (apart : hasUnit value = true → ∀ next ∈ values.head?, continuesUnit next = false) :
      AreWritten settings levels spaced (value :: values) (⟨spaced, first⟩ :: others ++ row)

/-- A blank stands in front of the values. -/
theorem AreWritten.detached (written : AreWritten settings levels true values row)
    (behind : Detached rest) : Detached (row ++ rest) := by
  cases written with
  | nil => exact behind
  | cons head tail apart => exact detached_spaced _ _

/-- No unit goes on with the values if it does not go on with the first of them. -/
theorem AreWritten.stops (written : AreWritten settings levels spaced values row)
    (apart : ∀ next ∈ values.head?, continuesUnit next = false)
    (behind : Stops Precedence.multiplicative rest) :
    Stops Precedence.multiplicative (row ++ rest) := by
  cases written with
  | nil => exact behind
  | cons head tail _ =>
    have quiet := apart _ rfl
    exact head.stops quiet spaced _

/-- The tokens of the values can be told apart from what follows behind a blank. -/
theorem AreWritten.legible (written : AreWritten settings levels spaced values row)
    (follows : Legible rest) (behind : Detached rest) : Legible (row ++ rest) := by
  induction written with
  | nil => exact follows
  | cons head tail apart inductionHypothesis =>
    rw [List.append_assoc]
    apply head.legible
    · exact inductionHypothesis
    · exact tail.detached behind

/-- The tokens of the values are written as the values with a blank in front of each. -/
theorem AreWritten.text (written : AreWritten settings levels true values row) {limit : Value → ℕ}
    (high : ∀ value ∈ values, value.height ≤ limit value) :
    String.join (values.map fun value => " " ++ Render.upTo settings (limit value) value) =
      textOf row := by
  generalize blank : true = spaced at written
  induction written with
  | nil => rfl
  | cons head tail apart inductionHypothesis =>
    subst blank
    have first := head.text (high _ List.mem_cons_self)
    have remaining := fun value member => high value (List.mem_cons_of_mem _ member)
    have others := inductionHypothesis remaining rfl
    rw [List.map_cons, String.join_cons, others, first, textOf_append]
    simp [textOf_cons, String.append_assoc]

/-- A value is read from its tokens as the next one. -/
theorem IsWritten.reads_next {value : Value} {first : Token} {others : List Written}
    (written : IsWritten settings levels value first others) (under : line.settings = settings)
    (spaced : Bool) (behind : Detached rest)
    (ended : hasUnit value = true → Stops Precedence.multiplicative rest) :
    Reads (object? (atMost levels)) line (⟨spaced, first⟩ :: (others ++ rest)) (some value) rest := by
  have opens := written.opens
  have noSeparator : first ≠ .comma ∧ first ≠ .semicolon := by simp_all
  apply reads_object noSeparator
  exact written.reads under behind ended

/-- Values side by side are read one after the other up to the closing mark of a sequence. -/
theorem AreWritten.reads_items (written : AreWritten settings levels spaced values row)
    (under : line.settings = settings) {kind : SequenceKind} (noExpression : kind ≠ .expression) (opening : Span) {steps : ℕ}
    (enough : row.length < steps) :
    Reads (itemsWithin (atMost levels) kind opening steps) line (row ++ ⟨true, closing kind⟩ :: rest)
      values rest := by
  have detached := detached_spaced (closing kind) rest
  have stops : Stops Precedence.multiplicative (⟨true, closing kind⟩ :: rest) := by
    apply stops_of_mark
    cases kind <;> rfl
  induction written generalizing steps with
  | nil =>
    obtain ⟨fewer, rfl⟩ := Nat.exists_eq_add_of_lt enough
    apply reads_peek.bind
    simp only [List.nil_append, List.head?_cons, Option.map_some, beq_self_eq_true, if_true]
    exact reads_discard_advance.bind (reads_pure [])
  | @cons spaced value first others values row head tail apart inductionHypothesis =>
    simp only [List.length_cons, List.length_append] at enough
    obtain ⟨fewer, rfl⟩ : ∃ fewer, steps = fewer + 1 := ⟨steps - 1, by omega⟩
    have more : row.length < fewer := by omega
    have opens := head.opens
    have noClosing : (first == closing kind) = false := by
      cases kind <;> simp_all [closing]
    have noSeparator : (first == .comma || first == .semicolon) = false := by simp_all
    have behind := tail.detached detached
    have stopped := fun unit => tail.stops (apart unit) stops
    rw [List.append_assoc]
    apply reads_peek.bind
    simp only [List.cons_append, List.head?_cons, Option.map_some, noClosing, noSeparator]
    apply (head.reads_next under spaced behind stopped).bind
    exact (inductionHypothesis more).bind (reads_pure _)

/-! ## Sequences -/

/-- The mark in front of a sequence. -/
def openingToken : SequenceKind → Token
  | .list => .openBrace
  | .array => .openBracket
  | .program => .openProgram
  | .expression => .quote

/-- No item of a row is higher than the row. -/
theorem height_le_heightOfItems {item : Value} {items : List Value} (member : item ∈ items) :
    item.height ≤ Value.heightOfItems items := by
  induction items with
  | nil => simp at member
  | cons other items inductionHypothesis =>
    rw [Value.heightOfItems]
    rcases List.mem_cons.mp member with rfl | member
    · exact Nat.le_max_left _ _
    · exact (inductionHypothesis member).trans (Nat.le_max_right _ _)

/-- The text of a list, an array or a program. -/
theorem render_sequence {kind : SequenceKind} (noExpression : kind ≠ .expression)
    (items : List Value) (limit : ℕ) :
    Render.upTo settings (limit + 1) (.sequence kind items) =
      kind.opening ++ String.join (items.map fun item => " " ++ Render.upTo settings limit item) ++
        " " ++ kind.closing := by
  cases kind with
  | expression => contradiction
  | list | array | program => rfl

/-- The items of a sequence are read up to its closing mark. -/
theorem AreWritten.reads_sequence (written : AreWritten settings levels spaced values row)
    (under : line.settings = settings) {kind : SequenceKind} (noExpression : kind ≠ .expression) (opening : Span) :
    Reads (objectFrom (atMost (levels + 1)) (openingToken kind) opening) line
      (row ++ ⟨true, closing kind⟩ :: rest) (.sequence kind values) rest := by
  have sequence : Reads (sequenceItems (atMost levels) kind opening) line
      (row ++ ⟨true, closing kind⟩ :: rest) (.sequence kind values) rest := by
    apply reads_get
    intro cursor length
    have enough : row.length < cursor.rest.length + 1 := by
      rw [length, List.length_append]
      omega
    exact (written.reads_items under noExpression opening enough).bind (reads_pure _)
  cases kind with
  | expression => contradiction
  | list | array | program => exact sequence

/-- A sequence is written with its items side by side between two marks, the second of which stands
behind a blank, too. -/
theorem AreWritten.isWritten (written : AreWritten settings levels true values row)
    {kind : SequenceKind} (noExpression : kind ≠ .expression) :
    IsWritten settings (levels + 1) (.sequence kind values) (openingToken kind)
      (row ++ [⟨true, closing kind⟩]) where
  text {limit} high := by
    obtain ⟨limit, rfl⟩ := Nat.exists_eq_add_of_le' (Nat.one_le_of_lt high)
    have low : ∀ value ∈ values, value.height ≤ limit := by
      intro value member
      have height := height_le_heightOfItems member
      rw [Value.height] at high
      omega
    rw [render_sequence noExpression, written.text low]
    cases kind <;>
      simp [openingToken, closing, SequenceKind.opening, SequenceKind.closing, textOf_cons,
        textOf_append, textOf_nil, Token.message, String.append_assoc]
  opens := by cases kind <;> simp [openingToken]
  stops _ _ _ := by cases kind <;> exact stops_of_mark rfl
  legible spaced rest follows _ := by
    have mark : Legible (⟨true, closing kind⟩ :: rest) := by
      cases kind <;> exact ⟨trivial, trivial, follows⟩
    have items : Legible (row ++ ⟨true, closing kind⟩ :: rest) :=
      written.legible mark (detached_spaced _ _)
    rw [List.cons_append, List.append_assoc]
    cases kind <;> exact ⟨trivial, trivial, items⟩
  reads under _ _ span := by
    rw [List.append_assoc]
    exact written.reads_sequence under noExpression span

/-! ## Plain values -/

/-- The literals that are written as they are read: integers, fractions, and names that are no
commands. -/
inductive Literal : Value → Prop
  | integer (value : ℤ) : Literal (.real (.ofInt value))
  | fraction (value : Fraction) : Literal (.real (.fraction value))
  | name {letters : String} (name : ∃ span, Token.split letters = .ok [⟨.name letters, span⟩])
      (free : Command.lookup? letters = none) : Literal (.symbol ⟨letters⟩)

/-- A value with a unit does not stand in front of an operator that the unit goes on with. -/
def UnitsApart (values : List Value) : Prop :=
  values.IsChain fun value next => hasUnit value = true → continuesUnit next = false

/-- The values that can be read back, with so many levels for the constructs inside them: literals,
also with a unit that is a product or binds more tightly, texts, commands, complex numbers with
integer parts, expressions that are trees of operators, and sequences of such values. -/
inductive Plain : ℕ → Value → Prop
  | literal {levels : ℕ} {value : Value} (literal : Literal value) : Plain levels value
  | unit {levels : ℕ} {value : Value} {tree : Tree} (literal : Literal value)
      (proper : tree.Proper) (tight : Precedence.multiplicative ≤ tree.level)
      (deep : tree.nesting ≤ levels) : Plain (levels + 1) (.unit value tree.items)
  | text {levels : ℕ} {content : String} (closed : '"' ∉ content.toList) : Plain levels (.text content)
  | command {levels : ℕ} (command : Command) : Plain levels (.command command)
  | complex {levels : ℕ} (form : ComplexForm) (first second : ℤ) :
      Plain (levels + 2) (.complex form (.real (.ofInt first)) (.real (.ofInt second)))
  | expression {levels : ℕ} {tree : Tree} (proper : tree.Proper) (deep : tree.nesting ≤ levels) :
      Plain (levels + 1) (.expression tree.items)
  | sequence {levels : ℕ} {kind : SequenceKind} {items : List Value} (noExpression : kind ≠ .expression)
      (plain : ∀ item ∈ items, Plain levels item) (apart : UnitsApart items) :
      Plain (levels + 1) (.sequence kind items)

/-- A literal is written with some tokens. -/
theorem Literal.isLiteral {value : Value} (literal : Literal value)
    (plain : settings.render = {}) : ∃ first others, IsLiteral settings value first others := by
  cases literal with
  | integer value => exact ⟨_, _, isLiteral_integer settings value⟩
  | fraction value =>
    have unmixed : settings.render.contains .mixedFractions = false := by
      simp [plain, RenderFlags.contains]
    exact ⟨_, _, isLiteral_fraction unmixed value⟩
  | name name free => exact ⟨_, _, isLiteral_name settings name free⟩

/-- Values that are written with some tokens each are written side by side. -/
theorem areWritten_of_forall (apart : UnitsApart values)
    (each : ∀ value ∈ values, ∃ first others, IsWritten settings levels value first others)
    (spaced : Bool) : ∃ row, AreWritten settings levels spaced values row := by
  induction values generalizing spaced with
  | nil => exact ⟨[], .nil spaced⟩
  | cons value values inductionHypothesis =>
    obtain ⟨first, others, head⟩ := each value List.mem_cons_self
    have remaining := fun next member => each next (List.mem_cons_of_mem _ member)
    obtain ⟨row, tail⟩ := inductionHypothesis apart.tail remaining true
    refine ⟨_, .cons head tail ?_⟩
    intro unit next found
    exact (List.isChain_cons.mp apart).1 next found unit

/-- A plain value is written with some tokens. -/
theorem Plain.isWritten {value : Value} (plain : Plain levels value)
    (flags : settings.render = {}) : ∃ first others, IsWritten settings levels value first others := by
  induction plain with
  | literal literal =>
    obtain ⟨first, others, written⟩ := literal.isLiteral flags
    exact ⟨first, others, written.isWritten _⟩
  | unit literal proper tight deep =>
    obtain ⟨first, others, written⟩ := literal.isLiteral flags
    exact ⟨_, _, written.isWritten_unit flags proper tight deep⟩
  | text closed => exact ⟨_, _, isWritten_text settings _ closed⟩
  | command command => exact ⟨_, _, isWritten_command flags _ command⟩
  | complex form first second => exact ⟨_, _, isWritten_complex settings form first second _⟩
  | expression proper deep => exact ⟨_, _, isWritten_expression flags proper deep⟩
  | sequence noExpression plain apart inductionHypothesis =>
    obtain ⟨row, written⟩ := areWritten_of_forall apart inductionHypothesis true
    exact ⟨_, _, written.isWritten noExpression⟩

/-! ## Reading back -/

/-- Values side by side are read one after the other up to the end of the line. -/
theorem AreWritten.reads_objects (written : AreWritten settings levels spaced values row)
    (under : line.settings = settings) {steps : ℕ} (enough : row.length ≤ steps) :
    Reads (objectsWithin (atMost levels) steps) line row values [] := by
  have detached : Detached [] := by simp [Detached]
  have stops : Stops Precedence.multiplicative [] := by simp [Stops, Quiet, infixAt]
  induction written generalizing steps with
  | nil => exact reads_objectsWithin_nil steps
  | @cons spaced value first others values row head tail apart inductionHypothesis =>
    simp only [List.cons_append, List.length_cons, List.length_append] at enough
    obtain ⟨fewer, rfl⟩ : ∃ fewer, steps = fewer + 1 := ⟨steps - 1, by omega⟩
    have more : row.length ≤ fewer := by omega
    have behind := tail.detached detached
    have stopped := fun unit => tail.stops (apart unit) stops
    rw [List.append_nil] at behind stopped
    apply reads_objectsWithin_cons
    · exact head.reads_next under spaced behind stopped
    · exact inductionHypothesis more

/-- Texts behind a first one with a blank between them. -/
theorem joinWith_cons (text : String) (texts : List String) :
    Render.joinWith " " (text :: texts) = text ++ String.join (texts.map fun text => " " ++ text) := by
  induction texts generalizing text with
  | nil => simp [Render.joinWith]
  | cons next texts inductionHypothesis =>
    rw [Render.joinWith, inductionHypothesis, List.map_cons, String.join_cons]
    · simp [String.append_assoc]
    · simp

/-- Values that are written side by side are read back from the line that joins their texts with
single blanks. -/
theorem AreWritten.readLine_eq (written : AreWritten settings settings.maxRecursion.toNat false values row) :
    readLine (Render.joinWith " " (values.map fun value => Render.value value settings)) settings =
      .ok values := by
  have legible : Legible (row ++ []) := written.legible trivial (by simp [Detached])
  have text : Render.joinWith " " (values.map fun value => Render.value value settings) = textOf row := by
    cases written with
    | nil => rfl
    | cons head tail _ =>
      have first : Render.value _ settings = _ := head.text le_rfl
      have others := tail.text fun value _ => le_refl value.height
      rw [List.map_cons, joinWith_cons, List.map_map, first, textOf_append, ← others]
      rfl
  rw [text]
  apply readLine_textOf
  · simpa using legible
  · intro line under
    exact written.reads_objects under le_rfl

/-- Plain values are read back from the line in which they are written with single blanks between
them, if no unit stands in front of an operator that it would go on with. -/
theorem readLine_values (flags : settings.render = {})
    (plain : ∀ value ∈ values, Plain settings.maxRecursion.toNat value) (apart : UnitsApart values) :
    readLine (Render.joinWith " " (values.map fun value => Render.value value settings)) settings =
      .ok values := by
  obtain ⟨row, written⟩ := areWritten_of_forall apart
    (fun value member => (plain value member).isWritten flags) false
  exact written.readLine_eq

/-- A unit in a list, in front of an operator that binds less tightly, and a fraction behind it. -/
theorem readLine_values_unit :
    let speed := Value.unit (.real (.ofInt (-5))) (Tree.infixed .divide (.name "m") (.name "s")).items
    let values := [.sequence .list [speed, .command .add, .complex .polar (.ofInt 1) (.ofInt (-2))],
      Value.real (.fraction ⟨-1, 2, by decide, by decide⟩)]
    readLine (Render.joinWith " " (values.map fun value => Render.value value {})) {} = .ok values := by
  intro speed values
  have meter : (Tree.name "m").Proper := ⟨(Token.split_name_iff "m").mpr (by decide), by decide +kernel⟩
  have second : (Tree.name "s").Proper := ⟨(Token.split_name_iff "s").mpr (by decide), by decide +kernel⟩
  have quotient : (Tree.infixed .divide (.name "m") (.name "s")).Proper :=
    ⟨rfl, by decide, meter, second⟩
  have inside : ∀ item ∈ [speed, .command .add, .complex .polar (.ofInt 1) (.ofInt (-2))],
      Plain 127 item := by
    simp only [List.forall_mem_cons]
    refine ⟨?_, ?_, ?_, by simp⟩
    · exact .unit (.integer (-5)) quotient (by decide) (by decide)
    · exact .command .add
    · exact .complex .polar 1 (-2)
  have plain : ∀ value ∈ values, Plain 128 value := by
    simp only [values, List.forall_mem_cons]
    refine ⟨?_, ?_, by simp⟩
    · apply Plain.sequence (by decide) inside
      simp [UnitsApart, continuesUnit, hasUnit, Command.fixity, Command.precedence, Command.entry]
      decide
    · exact .literal (.fraction _)
  apply readLine_values rfl plain
  simp [values, UnitsApart, hasUnit]

/-! ## Rows of a plain spelling -/

/-- Whether a token is made of digits, of Latin letters or of marks. -/
def isPlainToken : Token → Bool
  | .number digits => !digits.toList.isEmpty && digits.toList.all Decimal.isDigit
  | .name letters =>
    letters.toList.head?.any Char.isAlpha && letters.toList.tail.all Char.isAlphanum
  | .text _ _ => false
  | .operator command =>
    [.add, .subtract, .multiply, .divide, .power, .equation, .whereBound].contains command
  | _ => true

/-- Whether a token of a plain spelling can be told from the one that follows it, if there is one. -/
def isApart (token : Token) (next : Option Written) : Bool :=
  next.all fun written =>
    match token with
    | .number _ | .name _ => written.token.beginsSymbol
    | .operator _ => written.token.message.toList.head?.any fun first => !Token.extendsOperator first
    | _ => true

/-- Whether the tokens of a row have a plain spelling and can be told apart. -/
def isPlainRow : List Written → Bool
  | [] => true
  | written :: row =>
    isPlainToken written.token && isApart written.token row.head? && isPlainRow row

/-- A token of a plain spelling is spelled as it is worded. -/
theorem spelled_of_isPlainToken {token : Token} (plain : isPlainToken token = true) :
    token.Spelled := by
  cases token with
  | number digits =>
    obtain ⟨some, each⟩ := Bool.and_eq_true_iff.mp plain
    exact .plain (.whole (by simpa using some) (List.all_eq_true.mp each))
  | name letters =>
    obtain ⟨first, others⟩ := Bool.and_eq_true_iff.mp plain
    rw [Option.any_eq_true] at first
    obtain ⟨head, found, latin⟩ := first
    obtain ⟨rest, spelling⟩ := List.head?_eq_some_iff.mp found
    rw [spelling, List.tail_cons] at others
    rw [Token.Spelled, spelling]
    exact Token.isName_of_latin (.inl latin) others
  | text body closed => cases plain
  | operator command =>
    have among := List.contains_iff_mem.mp plain
    rw [Token.Spelled]
    fin_cases among <;> decide
  | _ => trivial

/-- Tokens of a plain spelling that can be told apart are legible. -/
theorem legible_of_isPlainRow {row : List Written} (plain : isPlainRow row = true) :
    Legible row := by
  induction row with
  | nil => trivial
  | cons written row inductionHypothesis =>
    obtain ⟨both, rest⟩ := Bool.and_eq_true_iff.mp plain
    obtain ⟨spelled, apart⟩ := Bool.and_eq_true_iff.mp both
    refine ⟨spelled_of_isPlainToken spelled, ?_, inductionHypothesis rest⟩
    cases row with
    | nil => cases written.token <;> simp [Token.Precedes, Token.characters, Token.Ends, Token.Apart]
    | cons next row =>
      rw [List.head?_cons] at apart
      cases same : written.token with
      | number | name =>
        rw [same] at apart
        exact Token.ends_symbol apart
      | operator command =>
        rw [same, isApart, Option.all_some, Option.any_eq_true] at apart
        obtain ⟨first, head, stops⟩ := apart
        exact fun _ => Token.apart_cons head (by simpa using stops)
      | _ => trivial

/-! ## Units in expressions -/

/-- The tokens of a value with a unit and of a factor behind it, with or without parentheses around
the value. -/
def productRow (parentheses : Bool) : List Written :=
  let quantity := fun spaced =>
    [⟨spaced, .number (Digits.text 3)⟩, ⟨false, .underscore⟩, ⟨false, .name "m"⟩]
  ⟨false, .quote⟩ :: Tree.around parentheses quantity false ++
    [⟨false, .operator .multiply⟩, ⟨false, .name "X"⟩, ⟨false, .quote⟩]

/-- The tokens of the product can be told apart. -/
theorem legible_product (parentheses : Bool) : Legible (productRow parentheses) := by
  cases parentheses <;> exact legible_of_isPlainRow (by with_unfolding_all decide)

/-- A value with a unit is written in front of a product without parentheses. -/
theorem render_product :
    Render.value (.expression [.unit (.ofInt 3) [.symbol ⟨"m"⟩], .symbol ⟨"X"⟩, .command .multiply])
      {} = textOf (productRow false) := by
  have sign : Render.operator {} .multiply = "*" := Tree.operator_eq rfl .multiply
  have unit : Render.upTo {} 1 (.unit (.ofInt 3) [.symbol ⟨"m"⟩]) = "3_m" := by
    with_unfolding_all rfl
  have unsigned : "X".startsWith "-" = false := by decide +kernel
  have product : Render.node {} .multiply [⟨"3_m", Precedence.primary⟩, ⟨"X", Precedence.primary⟩] =
      ⟨"3_m*X", Precedence.multiplicative⟩ := by
    change Render.infixed {} .multiply _ _ = _
    rw [Render.infixed, sign, unsigned]
    rfl
  have folded : Expression.fold (fun item => .ok ⟨Render.upTo {} 1 item, Render.leafLevel item⟩)
      (fun command operands => .ok (Render.node {} command operands))
      [.unit (.ofInt 3) [.symbol ⟨"m"⟩], .symbol ⟨"X"⟩, .command .multiply] =
        .ok [⟨"3_m*X", Precedence.multiplicative⟩] := by
    rw [← product, ← unit]
    rfl
  change "'" ++ Render.expression {} (Render.upTo {} 1) _ ++ "'" = _
  rw [Render.expression, folded]
  with_unfolding_all rfl

/-- A product whose first factor has a unit is not read back: the second factor is taken into the
unit. -/
theorem readLine_values_product :
    let meter := Value.symbol ⟨"m"⟩
    let factor := Value.symbol ⟨"X"⟩
    let values := [Value.expression [.unit (.ofInt 3) [meter], factor, .command .multiply]]
    let others := [Value.expression [.unit (.ofInt 3) [meter, factor, .command .multiply]]]
    readLine "'(3_m)*X'" {} = .ok values ∧
      readLine (Render.joinWith " " (values.map fun value => Render.value value {})) {} = .ok others ∧
      values ≠ others := by
  intro meter factor values others
  refine ⟨?_, ?_, ?_⟩
  · have text : "'(3_m)*X'" = textOf (productRow true) := by with_unfolding_all rfl
    rw [text, readLine_spans (legible_product true)]
    with_unfolding_all rfl
  · change readLine (Render.value _ {}) {} = _
    rw [render_product, readLine_spans (legible_product false)]
    with_unfolding_all rfl
  · simp [values, others, Value.expression]

end Source

end Calculator
