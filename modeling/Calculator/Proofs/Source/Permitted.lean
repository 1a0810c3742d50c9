import Calculator.Proofs.Expression.WellRooted
import Calculator.Proofs.Number.Made
import Calculator.Proofs.Source.Lines
import Calculator.Source.Reading
import Mathlib

/-!
# What may be read

Every construct that is read is put together from those inside it. Whatever the tokens are, an
expression that is read has a single root: an operand is an expression, and what stands behind it is
a tail, made of operators that find their operands in front of them. What stands for itself in it is
of a kind, if the kind permits what can be read as such. What is of a kind may depend on how many
levels there are, and each construct that is read one level deeper uses up one of them.
-/

namespace Calculator.Source

open Expression (Rooted Tail operandsOf tail_nil tail_operator)

variable {Result : Type} {Holds : Result → Prop}

/-- Whatever is said of results holds of a reading that fails. -/
theorem satisfiesM_throw (fault : Fault) : SatisfiesM Holds (throw fault : Reading Result) :=
  ⟨throw fault, rfl⟩

/-- What a reading says nothing about may go before another one. -/
theorem satisfiesM_after {First : Type} {reading : Reading First} {next : First → Reading Result}
    (each : ∀ first, SatisfiesM Holds (next first)) : SatisfiesM Holds (reading >>= next) :=
  SatisfiesM.trivial.bind fun first _ => each first

/-- A fault that is found by a reading. -/
theorem satisfiesM_throw_of {fault : Reading Fault} :
    SatisfiesM Holds (fault >>= fun found => (throw found : Reading Result)) :=
  satisfiesM_after satisfiesM_throw

/-- What is said of an outcome holds where it is taken as a reading. -/
theorem satisfiesM_ofExcept {outcome : Outcome Result} (satisfied : SatisfiesM Holds outcome) :
    SatisfiesM Holds (MonadExcept.ofExcept outcome : Reading Result) := by
  cases outcome with
  | ok result => exact .pure (SatisfiesM_Except_eq.mp satisfied result rfl)
  | error fault => exact satisfiesM_throw fault

/-- What a value that is read may be: a command, or a value of a kind. -/
def Readable (Object : Value → Prop) (value : Value) : Prop :=
  value.isCommand = false → Object value

/-- Kinds of values that may stand for themselves in an expression of so many levels, and kinds of
values that may stand on the command line with so many levels inside them: numbers, names and texts
take one level of an expression, and what is made of expressions takes one more than these. A value
on the command line has as many levels as the expressions in it. -/
structure Permits (Leaf Object : ℕ → Value → Prop) : Prop where
  alone {levels : ℕ} {value : Value} (leaf : Leaf levels value) : operandsOf value = 0
  wider {levels : ℕ} {value : Value} (leaf : Leaf levels value) : Leaf (levels + 1) value
  object {levels : ℕ} {value : Value} (leaf : Leaf (levels + 1) value) : Object levels value
  made {x : Real} (made : x.IsMade) : Leaf 1 (.real x)
  negated {levels : ℕ} {x : Real} (leaf : Leaf levels (.real x)) : Leaf levels (.real x.negated)
  symbol (name : Symbol) : Leaf 1 (.symbol name)
  text (content : String) : Leaf 1 (.text content)
  complex {levels : ℕ} (form : ComplexForm) {a b : Real} (first : Leaf levels (.real a))
    (second : Leaf levels (.real b)) : Leaf (levels + 1) (.complex form (.real a) (.real b))
  polynomial {levels : ℕ} {items : List Value} {settings : Preferences} {p : Polynomial}
    (rooted : Rooted (Leaf levels) items)
    (done : Polynomial.ofExpression (Arithmetic.operations settings) settings items = .ok p) :
    Leaf (levels + 1) (.polynomial p)
  quantity {levels : ℕ} {x : Real} {items : List Value} (leaf : Leaf 1 (.real x))
    (unit : Rooted (Leaf levels) items) : Leaf (levels + 1) (.unit (.real x) items)
  unit {levels : ℕ} {value : Value} {items : List Value} (leaf : Leaf 1 value)
    (unit : Rooted (Leaf levels) items) : Object levels (.unit value items)
  sequence {levels : ℕ} {kind : SequenceKind} {items : List Value} (plain : kind ≠ .expression)
    (inside : ∀ item ∈ items, Readable (Object levels) item) :
    Object (levels + 1) (.sequence kind items)
  expression {levels : ℕ} {items : List Value} (rooted : Rooted (Leaf levels) items) :
    Object levels (.expression items)

section Permits

variable {Leaf Object : ℕ → Value → Prop} (permits : Permits Leaf Object) {levels : ℕ}
include permits

/-- A value that may stand for itself is an expression. -/
theorem Permits.leaf {value : Value} (leaf : Leaf levels value) : Rooted (Leaf levels) [value] :=
  .leaf value (permits.alone leaf) leaf

/-- What takes one level may stand wherever there is one. -/
theorem Permits.first {value : Value} (leaf : Leaf 1 value) (levels : ℕ) :
    Leaf (levels + 1) value := by
  induction levels with
  | zero => exact leaf
  | succ levels inductionHypothesis => exact permits.wider inductionHypothesis

/-- An expression may have more levels than it needs. -/
theorem Permits.widen {items : List Value} (rooted : Rooted (Leaf levels) items) :
    Rooted (Leaf (levels + 1)) items :=
  rooted.imp fun _ _ => permits.wider

end Permits

/-- Whether everything that is read one level deeper is of kinds that permit what can be read. -/
structure Deeper.Permitted (deeper : Deeper) (Leaf Object : ℕ → Value → Prop) (levels : ℕ) :
    Prop extends Permits Leaf Object where
  algebraic (minimum : Precedence) : SatisfiesM (Rooted (Leaf levels)) (deeper.algebraic minimum)
  reads (kind : SequenceKind) (opening : Span) (plain : kind ≠ .expression) :
    SatisfiesM (Object levels) (deeper.sequence kind opening)

/-- An expression that is read one level deeper is one on this level, too. -/
theorem Deeper.Permitted.widened {deeper : Deeper} {Leaf Object : ℕ → Value → Prop} {levels : ℕ}
    (permitted : deeper.Permitted Leaf Object levels) (minimum : Precedence) :
    SatisfiesM (Rooted (Leaf (levels + 1))) (deeper.algebraic minimum) :=
  (permitted.algebraic minimum).imp permitted.widen

/-- A number that is read is made. -/
theorem isMade_number (digits : String) (span : Span) :
    SatisfiesM Real.IsMade (number digits span : Reading Real) := by
  unfold number
  split
  · exact .pure (Real.isMade_ofInt _)
  · split
    · exact satisfiesM_after fun line => .pure (Real.isMade_ofDecimal _ _)
    · exact satisfiesM_throw _

variable {Leaf Object : ℕ → Value → Prop} {levels : ℕ}

section Constructs

variable {deeper : Deeper} (permitted : deeper.Permitted Leaf Object levels)
include permitted

/-- A value with the unit behind it is of a kind that the value is of, with a unit as well as
without one. -/
theorem permitted_unitSuffix {Kind : Value → Prop} {value : Value} (plain : Kind value)
    (united : ∀ items, Rooted (Leaf levels) items → Kind (.unit value items)) :
    SatisfiesM Kind (unitSuffix deeper value) := by
  unfold unitSuffix
  refine satisfiesM_after fun touching => ?_
  split
  · exact (permitted.algebraic _).bind fun items unit => .pure (united items unit)
  · exact .pure plain

/-- A literal with what touches it may stand on the command line. -/
theorem object_literalSuffix {value : Value} (leaf : Leaf 1 value) :
    SatisfiesM (Object levels) (literalSuffix deeper value) := by
  have suffixed {value : Value} (leaf : Leaf 1 value) :
      SatisfiesM (Object levels) (unitSuffix deeper value) :=
    permitted_unitSuffix permitted (permitted.object (permitted.first leaf levels)) fun _ =>
      permitted.unit leaf
  unfold literalSuffix
  split
  · refine satisfiesM_after fun denominator => ?_
    split
    · have quotient {numerator denominator : ℤ} :
          SatisfiesM Real.IsMade (Real.ofQuotient numerator denominator) :=
        SatisfiesM_Except_eq.mpr fun _ => Real.isMade_ofQuotient
      exact (satisfiesM_ofExcept quotient).bind fun _ made => suffixed (permitted.made made)
    · exact suffixed leaf
  · exact suffixed leaf

/-- What is read between quotation marks is an expression. -/
theorem rooted_quoted (opening : Span) :
    SatisfiesM (Rooted (Leaf levels)) (quoted deeper opening) := by
  unfold quoted
  refine (permitted.algebraic _).bind fun items expression => satisfiesM_after fun next => ?_
  split
  · exact .pure expression
  · exact satisfiesM_throw _
  · exact satisfiesM_throw_of

/-- A polynomial that is read may stand for itself. -/
theorem leaf_polynomial (mark : Span) :
    SatisfiesM (Leaf (levels + 1)) (polynomial deeper mark) := by
  unfold polynomial
  refine satisfiesM_after fun opening => satisfiesM_after fun next => ?_
  split
  · refine satisfiesM_after fun _ => ?_
    refine (rooted_quoted permitted opening).bind fun items expression => ?_
    refine satisfiesM_after fun line => ?_
    dsimp only
    split
    · rename_i p found
      exact .pure (permitted.polynomial expression found)
    · exact satisfiesM_after fun _ => satisfiesM_throw _
  · exact satisfiesM_throw _

omit permitted in
/-- A part of a complex number is a number that may stand for itself. -/
theorem leaf_complexPart {items : List Value} (expression : Rooted (Leaf levels) items)
    (opening : Span) :
    SatisfiesM (fun part => ∃ x : Real, part = .real x ∧ Leaf levels part)
      (complexPart items opening : Reading Value) := by
  unfold complexPart
  split
  · exact .pure ⟨_, rfl, expression.leaves _ List.mem_cons_self rfl⟩
  · exact satisfiesM_throw _

/-- A complex number is an expression. -/
theorem rooted_complexFrom (form : ComplexForm) {first : List Value}
    (expression : Rooted (Leaf levels) first) (opening : Span) :
    SatisfiesM (Rooted (Leaf (levels + 1))) (complexFrom deeper form first opening) := by
  unfold complexFrom
  refine (leaf_complexPart expression _).bind fun re partFirst => satisfiesM_after fun _ => ?_
  refine (permitted.algebraic _).bind fun items expression => ?_
  refine (leaf_complexPart expression _).bind fun im partSecond => satisfiesM_after fun _ => ?_
  obtain ⟨a, rfl, leafFirst⟩ := partFirst
  obtain ⟨b, rfl, leafSecond⟩ := partSecond
  exact .pure (permitted.leaf (permitted.complex form leafFirst leafSecond))

/-- What is read in parentheses is an expression. -/
theorem rooted_parenthesized (opening : Span) :
    SatisfiesM (Rooted (Leaf (levels + 1))) (parenthesized deeper opening) := by
  unfold parenthesized
  refine (permitted.algebraic _).bind fun items expression => satisfiesM_after fun next => ?_
  split
  · exact rooted_complexFrom permitted _ expression _
  · exact rooted_complexFrom permitted _ expression _
  · exact satisfiesM_after fun _ => .pure (permitted.widen expression)

/-- A complex number may stand on the command line. -/
theorem object_complex (opening : Span) :
    SatisfiesM (Object levels) (complex deeper opening) := by
  unfold complex
  refine (rooted_parenthesized permitted opening).bind fun items expression => ?_
  split
  · exact .pure (permitted.object (expression.leaves _ List.mem_cons_self rfl))
  · exact satisfiesM_throw _

/-- A text may stand for itself. -/
theorem leaf_text (body : String) (closed : Bool) (span : Span) :
    SatisfiesM (Leaf (levels + 1)) (text body closed span : Reading Value) := by
  unfold text
  split
  · exact .pure (permitted.first (permitted.text _) levels)
  · exact satisfiesM_throw_of

/-- A value on the command line is permitted. -/
theorem readable_objectFrom (token : Token) (span : Span) :
    SatisfiesM (Readable (Object levels)) (objectFrom deeper token span) := by
  have plain {reading : Reading Value} (satisfied : SatisfiesM (Object levels) reading) :
      SatisfiesM (Readable (Object levels)) reading := satisfied.imp fun object _ => object
  have leaf {reading : Reading Value} (satisfied : SatisfiesM (Leaf (levels + 1)) reading) :
      SatisfiesM (Readable (Object levels)) reading :=
    satisfied.imp fun leaf _ => permitted.object leaf
  have command (command : Command) :
      SatisfiesM (Readable (Object levels)) (pure (.command command) : Reading Value) :=
    .pure fun other => nomatch other
  have suffixed {value : Value} (leaf : Leaf 1 value) :
      SatisfiesM (Readable (Object levels)) (literalSuffix deeper value) :=
    plain (object_literalSuffix permitted leaf)
  unfold objectFrom
  split
  · exact (isMade_number _ _).bind fun number made => suffixed (permitted.made made)
  · refine satisfiesM_after fun digits => ?_
    split
    · exact (isMade_number _ _).bind fun number made => suffixed (permitted.made made.negated)
    · exact command _
  · exact command _
  · split
    · exact command _
    · exact suffixed (permitted.symbol _)
  · exact leaf (leaf_text permitted _ _ _)
  · exact plain (permitted.reads _ _ (by decide))
  · exact plain (permitted.reads _ _ (by decide))
  · exact plain (permitted.reads _ _ (by decide))
  · refine (rooted_quoted permitted span).bind fun items expression => ?_
    exact .pure fun _ => permitted.expression expression
  · exact leaf (leaf_polynomial permitted span)
  · exact plain (object_complex permitted span)
  · exact satisfiesM_throw _

/-- The next value on the command line is permitted. -/
theorem readable_object? :
    SatisfiesM (fun item => ∀ value ∈ item, Readable (Object levels) value) (object? deeper) := by
  unfold object?
  refine satisfiesM_after fun _ => satisfiesM_after fun next => ?_
  split
  · refine (readable_objectFrom permitted _ _).bind fun value readable => .pure ?_
    rintro _ ⟨⟩
    exact readable
  · exact .pure (by rintro _ ⟨⟩)

/-- The items of a sequence are permitted. -/
theorem readable_itemsWithin (kind : SequenceKind) (opening : Span) (steps : ℕ) :
    SatisfiesM (fun items => ∀ item ∈ items, Readable (Object levels) item)
      (itemsWithin deeper kind opening steps) := by
  induction steps with
  | zero => exact satisfiesM_throw_of
  | succ steps inductionHypothesis =>
    rw [itemsWithin]
    refine satisfiesM_after fun next => ?_
    split
    · exact satisfiesM_throw_of
    · split
      · exact satisfiesM_after fun _ => .pure (List.forall_mem_nil _)
      · split
        · exact satisfiesM_after fun _ => inductionHypothesis
        · refine (readable_object? permitted).bind fun item readable => ?_
          refine inductionHypothesis.bind fun others readables => .pure ?_
          refine List.forall_mem_append.mpr ⟨fun value among => ?_, readables⟩
          exact readable value (Option.mem_toList.mp among)

/-- A list, an array or a program may stand on the command line. -/
theorem object_sequenceItems (kind : SequenceKind) (opening : Span)
    (plain : kind ≠ .expression) :
    SatisfiesM (Object (levels + 1)) (sequenceItems deeper kind opening) := by
  unfold sequenceItems
  refine satisfiesM_after fun cursor => ?_
  refine (readable_itemsWithin permitted kind opening _).bind fun items readables => ?_
  exact .pure (permitted.sequence plain readables)

/-! ## Expressions -/

/-- An operator in front of its operand makes an expression. -/
theorem rooted_prefixedOperand {command : Command} (single : command.operands = 1) :
    SatisfiesM (Rooted (Leaf (levels + 1))) (prefixedOperand deeper command) := by
  unfold prefixedOperand
  refine (permitted.widened _).bind fun items expression => ?_
  split
  · have leaf := expression.leaves _ List.mem_cons_self rfl
    exact .pure (permitted.leaf (permitted.negated leaf))
  · exact .pure (expression.unary single)

/-- The further arguments of a function are as many expressions as are asked for. -/
theorem rooted_furtherArguments (count : ℕ) :
    SatisfiesM (fun rows : List (List Value) =>
      rows.length = count ∧ ∀ row ∈ rows, Rooted (Leaf (levels + 1)) row)
      (furtherArguments deeper count) := by
  induction count with
  | zero => exact .pure ⟨rfl, List.forall_mem_nil _⟩
  | succ count inductionHypothesis =>
    have argument : SatisfiesM (fun rows : List (List Value) =>
        rows.length = count + 1 ∧ ∀ row ∈ rows, Rooted (Leaf (levels + 1)) row) (do
          discard advance
          let argument ← deeper.algebraic Precedence.parentheses
          return argument :: (← furtherArguments deeper count)) := by
      refine satisfiesM_after fun _ => (permitted.widened _).bind fun row expression => ?_
      refine inductionHypothesis.bind fun rows ⟨length, others⟩ => .pure ?_
      exact ⟨congrArg (· + 1) length, List.forall_mem_cons.mpr ⟨expression, others⟩⟩
    rw [furtherArguments]
    refine satisfiesM_after fun next => ?_
    split
    · exact argument
    · exact argument
    · exact satisfiesM_after fun _ => satisfiesM_throw _

omit permitted in
/-- Whatever may stand inside an expression takes as many operands as levels of the stack, and at
least one. -/
theorem operands_algebraic {command : Command} (algebraic : command.fixity ≠ .stack) :
    command.operands = command.arity ∧ 0 < command.arity := by
  cases command <;> first | exact ⟨rfl, by decide⟩ | exact absurd rfl algebraic

/-- A function behind its arguments is an expression. -/
theorem rooted_application {command : Command} (algebraic : command.fixity ≠ .stack) :
    SatisfiesM (Rooted (Leaf (levels + 1))) (application deeper command) := by
  obtain ⟨known, several⟩ := operands_algebraic algebraic
  unfold application
  refine satisfiesM_after fun next => ?_
  split
  · refine satisfiesM_after fun opening => satisfiesM_after fun _ => ?_
    refine (permitted.widened _).bind fun first expression => ?_
    refine (rooted_furtherArguments permitted _).bind fun others ⟨length, expressions⟩ => ?_
    refine satisfiesM_after fun _ => .pure ?_
    have all := List.forall_mem_cons.mpr ⟨expression, expressions⟩
    have count : (first :: others).length = command.operands := by
      rw [List.length_cons, length, known]
      omega
    -- The degree of a root changes places with its argument, but both are there.
    split
    · refine .node command _ (known ▸ several) ?_ fun row among =>
        all row (List.mem_reverse.mp among)
      rw [List.length_reverse, count]
    · exact .node command _ (known ▸ several) count all
  · split
    · rename_i single
      refine (permitted.widened _).bind fun items expression => .pure ?_
      exact expression.unary (known.trans (eq_of_beq single))
    · exact satisfiesM_after fun _ => satisfiesM_throw _

/-- What a name stands for inside an expression is one. -/
theorem rooted_named (name : String) (span : Span) :
    SatisfiesM (Rooted (Leaf (levels + 1))) (named deeper name span) := by
  unfold named
  split
  · exact .pure (permitted.leaf (permitted.first (permitted.symbol _) levels))
  · split
    · exact satisfiesM_throw _
    · rename_i fixity
      exact rooted_application permitted (by simp [fixity])
    · rename_i fixity
      exact rooted_prefixedOperand permitted (Tree.operands_single (.inl fixity))
    · exact satisfiesM_throw _
    · rename_i fixity
      refine satisfiesM_after fun next => ?_
      split
      · exact rooted_application permitted (by simp [fixity])
      · exact satisfiesM_throw _

/-- An operand is an expression. -/
theorem rooted_operand : SatisfiesM (Rooted (Leaf (levels + 1))) (operand deeper) := by
  unfold operand
  refine satisfiesM_after fun span => satisfiesM_after fun next => ?_
  split
  · exact satisfiesM_throw _
  · split
    · refine (isMade_number _ _).bind fun number made => ?_
      have quantity := permitted_unitSuffix permitted (permitted.first (permitted.made made) levels)
        fun _ => permitted.quantity (permitted.made made)
      exact quantity.bind fun _ leaf => .pure (permitted.leaf leaf)
    · exact (leaf_text permitted _ _ _).bind fun _ leaf => .pure (permitted.leaf leaf)
    · exact rooted_prefixedOperand permitted rfl
    · exact rooted_application permitted (by decide)
    · exact satisfiesM_throw _
    · exact rooted_named permitted _ _
    · exact rooted_parenthesized permitted _
    · exact (leaf_polynomial permitted _).bind fun _ leaf => .pure (permitted.leaf leaf)
    · exact satisfiesM_throw _

omit permitted in
/-- The operators behind an operand may follow it. -/
theorem tail_postfixedFrom (passed : Option ℕ) (tokens : List Token.Spanned) :
    Tail (Leaf (levels + 1)) (postfixedFrom passed tokens).1 := by
  induction tokens generalizing passed with
  | nil => exact tail_nil
  | cons next rest inductionHypothesis =>
    rw [postfixedFrom]
    split
    · rename_i command _
      split
      · rename_i postfixed
        have single := Tree.operands_single (.inr (eq_of_beq postfixed))
        exact (tail_operator single).append (inductionHypothesis _)
      · exact tail_nil
    · exact tail_nil

/-- An operand with the operators behind it is an expression. -/
theorem rooted_primary : SatisfiesM (Rooted (Leaf (levels + 1))) (primary deeper) := by
  unfold primary
  refine (rooted_operand permitted).bind fun items expression => ?_
  refine satisfiesM_after fun cursor => satisfiesM_after fun _ => .pure ?_
  exact tail_postfixedFrom cursor.passed cursor.rest _ expression

/-- Bindings in parentheses may follow an expression. -/
theorem tail_bindingsWithin (opening : Span) (steps : ℕ) :
    SatisfiesM (Tail (Leaf (levels + 1))) (bindingsWithin deeper opening steps) := by
  induction steps with
  | zero =>
    rw [bindingsWithin]
    exact satisfiesM_after fun _ => satisfiesM_throw _
  | succ steps inductionHypothesis =>
    have further (binding : List Value) (expression : Rooted (Leaf (levels + 1)) binding) :
        SatisfiesM (Tail (Leaf (levels + 1))) (do
          discard advance
          let others ← bindingsWithin deeper opening steps
          return binding ++ Value.command .whereBound :: others) := by
      refine satisfiesM_after fun _ => inductionHypothesis.bind fun others following => .pure ?_
      have first : Tail (Leaf (levels + 1)) (binding ++ [.command .whereBound]) :=
        expression.tail rfl
      have whole := first.append following
      rwa [List.append_assoc] at whole
    rw [bindingsWithin]
    refine (permitted.widened _).bind fun binding expression => satisfiesM_after fun next => ?_
    split
    · exact further binding expression
    · exact further binding expression
    · exact satisfiesM_after fun _ => .pure (expression.tail rfl)

/-- Bindings may follow an expression. -/
theorem tail_bindings : SatisfiesM (Tail (Leaf (levels + 1))) (bindings deeper) := by
  unfold bindings
  refine satisfiesM_after fun next => ?_
  split
  · refine satisfiesM_after fun opening => satisfiesM_after fun _ =>
      satisfiesM_after fun cursor => ?_
    exact tail_bindingsWithin permitted _ _
  · exact (permitted.widened _).bind fun binding expression => .pure (expression.tail rfl)

omit permitted in
/-- An operator between operands is one. -/
theorem infixed_infixed? :
    SatisfiesM (fun next => ∀ command ∈ next, command.fixity = .infixed)
      (infixed? : Reading (Option Command)) := by
  unfold infixed?
  refine satisfiesM_after fun next => .pure fun command among => ?_
  exact eq_of_beq (Option.mem_filter_iff.mp among).2

/-- Operators with their right operands may follow an expression. -/
theorem tail_climbWithin (minimum : Precedence) (steps : ℕ) :
    SatisfiesM (Tail (Leaf (levels + 1))) (climbWithin deeper minimum steps) := by
  induction steps with
  | zero => exact .pure tail_nil
  | succ steps inductionHypothesis =>
    rw [climbWithin]
    refine infixed_infixed?.bind fun next fixity => ?_
    split
    · exact .pure tail_nil
    · rename_i command
      have both := Tree.operands_infixed (fixity command rfl)
      split
      · exact .pure tail_nil
      · have further {row : Reading (List Value)}
            (following : SatisfiesM (Tail (Leaf (levels + 1))) row) :
            SatisfiesM (Tail (Leaf (levels + 1))) (row >>= fun items =>
              climbWithin deeper minimum steps >>= fun others => pure (items ++ others)) :=
          following.bind fun items tail => inductionHypothesis.bind fun others tails =>
            .pure (tail.append tails)
        refine satisfiesM_after fun _ => ?_
        dsimp only
        split
        · exact further (tail_bindings permitted)
        · exact further ((permitted.widened _).map fun expression => expression.tail both)

/-- An expression up to the first operator that binds less tightly is one. -/
theorem rooted_climb (minimum : Precedence) :
    SatisfiesM (Rooted (Leaf (levels + 1))) (climb deeper minimum) := by
  unfold climb
  refine (rooted_primary permitted).bind fun first expression => ?_
  refine satisfiesM_after fun cursor => ?_
  exact (tail_climbWithin permitted _ _).bind fun others following => .pure (following _ expression)

end Constructs

/-! ## Levels and lines -/

/-- The values of a line are permitted. -/
theorem readable_objectsWithin {deeper : Deeper} {levels : ℕ}
    (permitted : deeper.Permitted Leaf Object levels)
    (steps : ℕ) :
    SatisfiesM (fun items => ∀ item ∈ items, Readable (Object levels) item)
      (objectsWithin deeper steps) := by
  induction steps with
  | zero => exact .pure (List.forall_mem_nil _)
  | succ steps inductionHypothesis =>
    rw [objectsWithin]
    refine (readable_object? permitted).bind fun next readable => ?_
    split
    · exact .pure (List.forall_mem_nil _)
    · refine inductionHypothesis.bind fun others readables => .pure ?_
      exact List.forall_mem_cons.mpr ⟨readable _ rfl, readables⟩

/-- What a reading says of its result holds of what is read from a source text. -/
theorem satisfiesM_start {reading : Reading Result} (source : String) (settings : Preferences)
    (satisfied : SatisfiesM Holds reading) : SatisfiesM Holds (start source settings reading) := by
  unfold start
  refine SatisfiesM.trivial.bind fun tokens _ => ?_
  have run := SatisfiesM_StateT_eq.mp (SatisfiesM_ReaderT_eq.mp satisfied
    ⟨settings, source.utf8ByteSize⟩) ⟨none, tokens⟩
  exact run.bind fun found holds => .pure holds

variable (permits : Permits Leaf Object)
include permits

/-- Whatever the number of levels, what is read within them is permitted. -/
theorem permitted_within (levels : ℕ) :
    Deeper.Permitted ⟨fun minimum => algebraicWithin levels minimum,
      fun kind opening => sequenceWithin levels kind opening⟩ Leaf Object levels := by
  induction levels with
  | zero =>
    have deep {Result : Type} {Holds : Result → Prop} :
        SatisfiesM Holds (tooDeep : Reading Result) :=
      satisfiesM_after fun _ => satisfiesM_throw _
    refine ⟨permits, fun minimum => ?_, fun kind opening _ => ?_⟩
    · dsimp only
      rw [algebraicWithin]
      exact deep
    · dsimp only
      rw [sequenceWithin]
      exact deep
  | succ levels inductionHypothesis =>
    refine ⟨permits, fun minimum => ?_, fun kind opening plain => ?_⟩
    · dsimp only
      rw [algebraicWithin]
      exact rooted_climb inductionHypothesis minimum
    · dsimp only
      rw [sequenceWithin]
      exact object_sequenceItems inductionHypothesis kind opening plain

/-- What can be read inside a construct on the command line is permitted. -/
theorem permitted_outermost (settings : Preferences) :
    (outermost settings).Permitted Leaf Object settings.maxRecursion.toNat :=
  permitted_within permits settings.maxRecursion.toNat

/-- The values of a command line are permitted. -/
theorem readable_readLine (source : String) (settings : Preferences) :
    SatisfiesM (fun items => ∀ item ∈ items, Readable (Object settings.maxRecursion.toNat) item)
      (readLine source settings) := by
  unfold readLine
  refine satisfiesM_start source settings (satisfiesM_after fun cursor => ?_)
  exact readable_objectsWithin (permitted_outermost permits settings) _

/-- The first value of a text is permitted. -/
theorem readable_readObject (source : String) (settings : Preferences) (kind : Option SequenceKind)
    (precedence : Precedence) :
    SatisfiesM (fun found => ∀ read ∈ found, Readable (Object settings.maxRecursion.toNat) read.1)
      (readObject source settings kind precedence) := by
  have permitted := permitted_outermost permits settings
  have counted {value : Value} (readable : Readable (Object settings.maxRecursion.toNat) value) :
      SatisfiesM (fun found : Option (Value × ℕ) =>
        ∀ read ∈ found, Readable (Object settings.maxRecursion.toNat) read.1)
        (withConsumed value) := by
    refine satisfiesM_after fun _ => .pure ?_
    rintro _ ⟨⟩
    exact readable
  unfold readObject
  refine satisfiesM_start source settings ?_
  split
  · refine (rooted_quoted permitted _).bind fun items expression => ?_
    exact counted fun _ => permits.expression expression
  · rename_i plain
    refine (permitted.reads _ _ plain).bind fun value object => ?_
    exact counted fun _ => object
  · split
    · refine (readable_object? permitted).bind fun next readable => ?_
      split
      · exact counted (readable _ rfl)
      · exact .pure (by rintro _ ⟨⟩)
    · refine satisfiesM_after fun next => ?_
      split
      · exact .pure (by rintro _ ⟨⟩)
      · refine (permitted.algebraic _).bind fun items expression => ?_
        exact counted fun _ => permits.expression expression

end Calculator.Source
