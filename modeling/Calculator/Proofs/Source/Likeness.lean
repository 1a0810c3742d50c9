import Calculator.Proofs.Source.Reading
import Mathlib

/-!
# Readings that are alike

What is read of one line may be compared with what is read of another one, or of the same line in
another way. Constructs are put together from a few steps: looking at the next token, passing over
it, results, faults and steps in a row. Where these are alike, so is everything that is read, as
long as it is alike one level deeper. That is proved once, in the order in which the constructs are
put together, for whatever it may be that cursors, places and faults have in common.
-/

namespace Calculator

/-! ## Outcomes -/

/-- Outcomes that are alike: results that correspond, or faults that do. -/
inductive Outcome.Alike (Faults : Fault → Fault → Prop) {Item Other : Type}
    (Results : Item → Other → Prop) : Outcome Item → Outcome Other → Prop
  | ok {item : Item} {other : Other} (alike : Results item other) :
      Alike Faults Results (.ok item) (.ok other)
  | error {fault other : Fault} (alike : Faults fault other) :
      Alike Faults Results (.error fault) (.error other)

/-- Computations in a row are alike if each of them is. -/
theorem Outcome.Alike.bind {Faults : Fault → Fault → Prop} {Item Other Result Answer : Type}
    {Items : Item → Other → Prop} {Results : Result → Answer → Prop} {outcome : Outcome Item}
    {image : Outcome Other} {next : Item → Outcome Result} {imageNext : Other → Outcome Answer}
    (first : Alike Faults Items outcome image)
    (each : ∀ item other, Items item other → Alike Faults Results (next item) (imageNext other)) :
    Alike Faults Results (outcome >>= next) (image >>= imageNext) := by
  cases first with
  | ok alike => exact each _ _ alike
  | error alike => exact .error alike

namespace Source

/-! ## Lines and computations -/

variable {Base Image : Type → Type} [Monad Base] [MonadExceptOf Fault Base] [Monad Image]
  [MonadExceptOf Fault Image]

/-- What two lines with the same settings, and the computations by which they are read, have in
common: which cursors and which places in the lines correspond, which faults do, and which outcomes
do if their results correspond in some way. Tokens have to be the same, and to touch in the one line
where they touch in the other. -/
structure Likeness (Base Image : Type → Type) [Monad Base] [MonadExceptOf Fault Base]
    [Monad Image] [MonadExceptOf Fault Image] where
  settings : Preferences
  size : ℕ
  imageSize : ℕ
  Cursors : Cursor → Cursor → Prop
  Places : Span → Span → Prop
  Faults : Fault → Fault → Prop
  Outcomes {Item Other : Type} (Results : Item → Other → Prop) : Base Item → Image Other → Prop
  tokens {cursor image : Cursor} (alike : Cursors cursor image) :
    List.Forall₂ (fun next other => next.token = other.token ∧ Places next.span other.span)
      cursor.rest image.rest
  passes {passed imagePassed : Option Nat} {next other : Token.Spanned}
    {rest imageRest : List Token.Spanned}
    (alike : Cursors ⟨passed, next :: rest⟩ ⟨imagePassed, other :: imageRest⟩) :
    Cursors ⟨some next.span.stop, rest⟩ ⟨some other.span.stop, imageRest⟩
  touches {passed imagePassed : Option Nat} {next other : Token.Spanned}
    {rest imageRest : List Token.Spanned}
    (alike : Cursors ⟨passed, next :: rest⟩ ⟨imagePassed, other :: imageRest⟩) :
    some next.span.offset = passed ↔ some other.span.offset = imagePassed
  ending : Places ⟨size, 0⟩ ⟨imageSize, 0⟩
  toEnd {place other : Span} (alike : Places place other) :
    Places (.between place.offset size) (.between other.offset imageSize)
  upTo {cursor image : Cursor} (cursors : Cursors cursor image) {place other : Span}
    (alike : Places place other) :
    Places (.between place.offset (cursor.passed.getD 0))
      (.between other.offset (image.passed.getD 0))
  placed {make : Span → Fault} (located : ∀ place, (make place).span? = some place)
    {place other : Span} (alike : Places place other) : Faults (make place) (make other)
  unplaced {fault : Fault} (unlocated : fault.span? = none) : Faults fault fault
  pure {Item Other : Type} {Results : Item → Other → Prop} {item : Item} {other : Other}
    (alike : Results item other) : Outcomes Results (pure item) (pure other)
  throw {Item Other : Type} {Results : Item → Other → Prop} {fault other : Fault}
    (alike : Faults fault other) : Outcomes Results (throw fault) (throw other)
  bind {Item Other Result Answer : Type} {Items : Item → Other → Prop}
    {Results : Result → Answer → Prop} {outcome : Base Item} {image : Image Other}
    {next : Item → Base Result} {imageNext : Other → Image Answer}
    (first : Outcomes Items outcome image)
    (each : ∀ item other, Items item other → Outcomes Results (next item) (imageNext other)) :
    Outcomes Results (outcome >>= next) (image >>= imageNext)

/-- Lines with the same settings and the same tokens, which are compared without regard to where in
the lines these stand. -/
def Likeness.placeless (settings : Preferences) (size imageSize : ℕ)
    (Cursors : Cursor → Cursor → Prop)
    (tokens : ∀ {cursor image : Cursor}, Cursors cursor image →
      List.Forall₂ (fun next other => next.token = other.token) cursor.rest image.rest)
    (passes : ∀ {passed imagePassed : Option Nat} {next other : Token.Spanned}
      {rest imageRest : List Token.Spanned},
      Cursors ⟨passed, next :: rest⟩ ⟨imagePassed, other :: imageRest⟩ →
        Cursors ⟨some next.span.stop, rest⟩ ⟨some other.span.stop, imageRest⟩)
    (touches : ∀ {passed imagePassed : Option Nat} {next other : Token.Spanned}
      {rest imageRest : List Token.Spanned},
      Cursors ⟨passed, next :: rest⟩ ⟨imagePassed, other :: imageRest⟩ →
        (some next.span.offset = passed ↔ some other.span.offset = imagePassed)) :
    Likeness Outcome Outcome where
  settings := settings
  size := size
  imageSize := imageSize
  Cursors := Cursors
  Places _ _ := True
  Faults _ _ := True
  Outcomes := Outcome.Alike fun _ _ => True
  tokens alike := (tokens alike).imp fun _ _ same => ⟨same, trivial⟩
  passes := passes
  touches := touches
  ending := trivial
  toEnd _ := trivial
  upTo _ _ _ _ := trivial
  placed _ _ _ _ := trivial
  unplaced _ := trivial
  pure := .ok
  throw alike := by exact Outcome.Alike.error alike
  bind := .bind

namespace Likeness

variable (like : Likeness Base Image)

/-- The line that is compared. -/
def line : Line := ⟨like.settings, like.size⟩

/-- The line with which it is compared. -/
def imageLine : Line := ⟨like.settings, like.imageSize⟩

/-- The same token at places that correspond. -/
inductive Tokens : Token.Spanned → Token.Spanned → Prop
  | at (token : Token) {place other : Span} (places : like.Places place other) :
      Tokens ⟨token, place⟩ ⟨token, other⟩

/-- The same number at places that correspond. -/
inductive Numbers : String × Span → String × Span → Prop
  | at (digits : String) {place other : Span} (places : like.Places place other) :
      Numbers (digits, place) (digits, other)

/-- Whether two readings are alike: from cursors that correspond they come to outcomes that do, with
results that correspond in a certain way. -/
def Readings {Item Other : Type} (Results : Item → Other → Prop) (reading : ReadingOn Base Item)
    (image : ReadingOn Image Other) : Prop :=
  ∀ cursor imageCursor, like.Cursors cursor imageCursor →
    like.Outcomes (fun found other => Results found.1 other.1 ∧ like.Cursors found.2 other.2)
      (reading like.line cursor) (image like.imageLine imageCursor)

/-- What lies ahead of two cursors that correspond: nothing, or the same token. -/
inductive Ahead : Cursor → Cursor → Prop
  | nothing (passed imagePassed : Option Nat) : Ahead ⟨passed, []⟩ ⟨imagePassed, []⟩
  | token (passed imagePassed : Option Nat) (token : Token) {place other : Span}
      (places : like.Places place other) (rest imageRest : List Token.Spanned) :
      Ahead ⟨passed, ⟨token, place⟩ :: rest⟩ ⟨imagePassed, ⟨token, other⟩ :: imageRest⟩

/-- Ahead of cursors that correspond lies the same. -/
theorem ahead {cursor image : Cursor} (alike : like.Cursors cursor image) :
    like.Ahead cursor image := by
  obtain ⟨passed, rest⟩ := cursor
  obtain ⟨imagePassed, imageRest⟩ := image
  cases rest with
  | nil =>
    obtain rfl := List.forall₂_nil_left_iff.mp (like.tokens alike)
    exact .nothing _ _
  | cons next rest =>
    obtain ⟨⟨_, _⟩, imageRest, ⟨rfl, places⟩, -, rfl⟩ :=
      List.forall₂_cons_left_iff.mp (like.tokens alike)
    exact .token _ _ _ places _ _

variable {like} {Item Other Result Answer : Type} {Items : Item → Other → Prop}
  {Results : Result → Answer → Prop}

/-! ## Steps -/

/-- Results that correspond. -/
theorem readings_pure {result : Result} {answer : Answer} (alike : Results result answer) :
    like.Readings Results (Pure.pure result) (Pure.pure answer) :=
  fun _ _ cursors => like.pure ⟨alike, cursors⟩

/-- Readings in a row. -/
theorem Readings.bind {reading : ReadingOn Base Item} {image : ReadingOn Image Other}
    {next : Item → ReadingOn Base Result} {imageNext : Other → ReadingOn Image Answer}
    (first : like.Readings Items reading image)
    (each : ∀ item other, Items item other → like.Readings Results (next item) (imageNext other)) :
    like.Readings Results (reading >>= next) (image >>= imageNext) :=
  fun _ _ cursors => like.bind (first _ _ cursors) fun found other ⟨item, after⟩ =>
    each found.1 other.1 item found.2 other.2 after

/-- Readings in a row, of which the first ones have the same result. -/
theorem Readings.same {reading : ReadingOn Base Item} {image : ReadingOn Image Item}
    {next : Item → ReadingOn Base Result} {imageNext : Item → ReadingOn Image Answer}
    (first : like.Readings Eq reading image)
    (each : ∀ item, like.Readings Results (next item) (imageNext item)) :
    like.Readings Results (reading >>= next) (image >>= imageNext) :=
  first.bind fun item _ same => same ▸ each item

/-- A reading with something done to its result. -/
theorem Readings.map {reading : ReadingOn Base Item} {image : ReadingOn Image Item}
    (alike : like.Readings Eq reading image) (change : Item → Result) :
    like.Readings Eq (change <$> reading) (change <$> image) :=
  fun _ _ cursors => like.bind (alike _ _ cursors) fun _ _ ⟨item, after⟩ =>
    like.pure ⟨congrArg change item, after⟩

/-- Faults that correspond. -/
theorem readings_throw {fault other : Fault} (alike : like.Faults fault other) :
    like.Readings Results (MonadExcept.throw fault) (MonadExcept.throw other) :=
  fun _ _ _ => like.bind (like.throw alike : like.Outcomes (fun _ _ => False) _ _)
    fun _ _ none => none.elim

/-- Faults of the same kind at places that correspond. -/
theorem readings_throw_at (make : Span → Fault)
    (located : ∀ place, (make place).span? = some place) {place other : Span}
    (alike : like.Places place other) :
    like.Readings Results (MonadExcept.throw (make place)) (MonadExcept.throw (make other)) :=
  readings_throw (like.placed located alike)

/-- Faults that are found by readings. -/
theorem Readings.throw {reading : ReadingOn Base Fault} {image : ReadingOn Image Fault}
    (alike : like.Readings like.Faults reading image) :
    like.Readings Results (reading >>= fun fault => MonadExcept.throw fault)
      (image >>= fun fault => MonadExcept.throw fault) :=
  alike.bind fun _ _ => readings_throw

/-- How far the lines have been read. -/
theorem readings_get : like.Readings like.Cursors get get :=
  fun _ _ cursors => like.pure ⟨cursors, cursors⟩

/-- To go to a cursor that was met before. -/
theorem readings_set {cursor image : Cursor} (alike : like.Cursors cursor image) :
    like.Readings Eq (set cursor) (set image) :=
  fun _ _ _ => like.pure ⟨rfl, alike⟩

/-- What does not change while the lines are read. -/
theorem readings_read :
    like.Readings (fun line image => line = like.line ∧ image = like.imageLine) read read :=
  fun _ _ cursors => like.pure ⟨⟨rfl, rfl⟩, cursors⟩

/-- The same tokens are left. -/
theorem length_rest {cursor image : Cursor} (alike : like.Cursors cursor image) :
    cursor.rest.length = image.rest.length :=
  (like.tokens alike).length_eq

/-- The next token is the same. -/
theorem readings_peek : like.Readings Eq peek peek :=
  readings_get.bind fun cursor image alike => by
    cases like.ahead alike <;> exact readings_pure rfl

/-- The places of the next tokens correspond. -/
theorem readings_here : like.Readings like.Places here here := by
  refine readings_get.bind fun cursor image alike => ?_
  cases like.ahead alike with
  | nothing =>
    refine readings_read.bind ?_
    rintro _ _ ⟨rfl, rfl⟩
    exact readings_pure like.ending
  | token _ _ _ places => exact readings_pure places

/-- The tokens that are passed over are the same. -/
theorem readings_advance : like.Readings (Option.Rel like.Tokens) advance advance := by
  refine readings_get.bind fun cursor image alike => ?_
  cases like.ahead alike with
  | nothing => exact readings_pure .none
  | token _ _ _ places =>
    exact (readings_set (like.passes alike)).same fun _ => readings_pure (.some (.at _ places))

/-- To pass over the next token, whatever it is. -/
theorem readings_discard_advance : like.Readings Eq (discard advance) (discard advance) :=
  fun _ _ cursors => like.bind (readings_advance _ _ cursors) fun _ _ ⟨_, after⟩ =>
    like.pure ⟨rfl, after⟩

/-- What has been read since corresponding places are corresponding places. -/
theorem readings_consumed {place other : Span} (alike : like.Places place other) :
    like.Readings (fun length image =>
      like.Places (.between place.offset length) (.between other.offset image))
      consumed consumed :=
  readings_get.bind fun _ _ cursors => readings_pure (like.upTo cursors alike)

/-- Tokens touch in both lines or in none. -/
theorem readings_isAdjacent : like.Readings Eq isAdjacent isAdjacent := by
  refine readings_get.bind fun cursor image alike => ?_
  cases like.ahead alike with
  | nothing passed imagePassed =>
    cases passed <;> cases imagePassed <;> exact readings_pure rfl
  | token passed imagePassed =>
    have touches := like.touches alike
    cases passed <;> cases imagePassed <;>
      exact readings_pure (Bool.eq_iff_iff.mpr (by simp_all))

/-- To pass over a token that touches the last one. -/
theorem readings_advanceAdjacent (token : Token) :
    like.Readings Eq (advanceAdjacent token) (advanceAdjacent token) := by
  refine readings_isAdjacent.same fun touching => readings_peek.same fun next => ?_
  split
  · exact readings_discard_advance.same fun _ => readings_pure rfl
  · exact readings_pure rfl

/-- The numbers that touch the last token are the same. -/
theorem readings_adjacentNumber? :
    like.Readings (Option.Rel like.Numbers) adjacentNumber? adjacentNumber? := by
  refine readings_isAdjacent.same fun touching => ?_
  split
  · refine readings_get.bind fun cursor image alike => ?_
    cases like.ahead alike with
    | nothing => exact readings_pure .none
    | token _ _ token places =>
      cases token with
      | number text =>
        exact readings_discard_advance.same fun _ => readings_pure (.some (.at _ places))
      | _ => exact readings_pure .none
  · exact readings_pure .none

/-- The cursors behind separators correspond. -/
theorem cursors_skipSeparators {cursor image : Cursor} (alike : like.Cursors cursor image) :
    like.Cursors cursor.skipSeparators image.skipSeparators := by
  obtain ⟨passed, rest⟩ := cursor
  obtain ⟨imagePassed, imageRest⟩ := image
  unfold Cursor.skipSeparators
  induction rest generalizing passed imagePassed imageRest with
  | nil =>
    cases like.ahead alike
    exact alike
  | cons next rest inductionHypothesis =>
    cases like.ahead alike
    rw [Cursor.skipSeparators.go, Cursor.skipSeparators.go]
    split
    · exact inductionHypothesis _ _ _ (like.passes alike)
    · exact alike

/-- To pass over separators. -/
theorem readings_skipSeparators :
    like.Readings Eq (modify Cursor.skipSeparators) (modify Cursor.skipSeparators) :=
  fun _ _ cursors => like.pure ⟨rfl, cursors_skipSeparators cursors⟩

/-- Faults of constructs that the lines end in. -/
theorem readings_unterminated (construct : Construct) {opening other : Span}
    (alike : like.Places opening other) :
    like.Readings like.Faults (unterminated construct opening) (unterminated construct other) := by
  refine readings_read.bind ?_
  rintro _ _ ⟨rfl, rfl⟩
  exact readings_pure (like.placed (fun _ => rfl) (like.toEnd alike))

/-- A number is the same. -/
theorem readings_number (digits : String) {span other : Span} (alike : like.Places span other) :
    like.Readings Eq (number digits span) (number digits other) := by
  unfold number
  split
  · exact readings_pure rfl
  · split
    · refine readings_read.bind ?_
      rintro _ _ ⟨rfl, rfl⟩
      exact readings_pure rfl
    · exact readings_throw_at (.invalidNumber digits) (fun _ => rfl) alike

/-- A quotient only fails for its denominator. -/
theorem fault_of_ofQuotient {numerator denominator : ℤ} {fault : Fault}
    (failed : Real.ofQuotient numerator denominator = .error fault) : fault = .divideByZero := by
  unfold Real.ofQuotient at failed
  split at failed
  · exact (Except.error.inj failed).symm
  · dsimp only at failed
    split at failed <;> cases failed

/-- An outcome whose fault is nowhere in the lines. -/
theorem readings_ofExcept {outcome : Outcome Result}
    (unlocated : ∀ fault, outcome = .error fault → fault.span? = none) :
    like.Readings Eq (MonadExcept.ofExcept outcome) (MonadExcept.ofExcept outcome) := by
  cases outcome with
  | ok result => exact readings_pure rfl
  | error fault => exact readings_throw (like.unplaced (unlocated fault rfl))

/-! ## Constructs -/

/-- Whether what is read one level deeper is alike. -/
structure Deeper (like : Likeness Base Image) (deeper : DeeperOn Base) (image : DeeperOn Image) :
    Prop where
  algebraic (minimum : Precedence) :
    like.Readings Eq (deeper.algebraic minimum) (image.algebraic minimum)
  sequence (kind : SequenceKind) {opening other : Span} (places : like.Places opening other) :
    like.Readings Eq (deeper.sequence kind opening) (image.sequence kind other)

section Constructs

variable {deeper : DeeperOn Base} {image : DeeperOn Image} (alike : like.Deeper deeper image)
  {opening other : Span}

/-- The denominators behind a stroke are the same. -/
theorem readings_denominator? : like.Readings Eq denominator? denominator? := by
  unfold denominator?
  refine readings_get.bind fun start imageStart starts => ?_
  have back : like.Readings Eq
      (set start >>= fun _ => Pure.pure none : ReadingOn Base (Option Real))
      (set imageStart >>= fun _ => Pure.pure none) :=
    (readings_set starts).same fun _ => readings_pure rfl
  refine (readings_advanceAdjacent _).same fun touching => ?_
  split
  · refine readings_adjacentNumber?.bind ?_
    rintro _ _ (⟨digits, places⟩ | _)
    · dsimp only
      split
      · exact (readings_number _ places).same fun denominator => readings_pure rfl
      · exact back
    · exact back
  · exact back

/-- The closing parentheses are the same. -/
theorem readings_closeParenthesis (places : like.Places opening other) :
    like.Readings Eq (closeParenthesis opening) (closeParenthesis other) := by
  unfold closeParenthesis
  refine readings_peek.same fun next => ?_
  split
  · exact readings_discard_advance
  · rename_i token _
    exact readings_here.bind fun _ _ =>
      readings_throw_at (.unexpectedToken token.message) fun _ => rfl
  · exact (readings_unterminated _ places).throw

/-- The parts of complex numbers are the same. -/
theorem readings_complexPart (items : List Value) (places : like.Places opening other) :
    like.Readings Eq (complexPart items opening) (complexPart items other) := by
  unfold complexPart
  split
  · exact readings_pure rfl
  · exact readings_throw_at .partsNotReal (fun _ => rfl) places

/-- A text is the same. -/
theorem readings_text (body : String) (closed : Bool) (places : like.Places opening other) :
    like.Readings Eq (text body closed opening) (text body closed other) := by
  unfold text
  split
  · exact readings_pure rfl
  · exact (readings_unterminated _ places).throw

/-- The operators between operands are the same. -/
theorem readings_infixed? : like.Readings Eq infixed? infixed? := by
  unfold infixed?
  exact readings_peek.same fun next => readings_pure rfl

include alike

/-- Units are the same. -/
theorem readings_unitSuffix (value : Value) :
    like.Readings Eq (unitSuffix deeper value) (unitSuffix image value) := by
  unfold unitSuffix
  refine (readings_advanceAdjacent _).same fun touching => ?_
  split
  · exact (alike.algebraic _).same fun items => readings_pure rfl
  · exact readings_pure rfl

/-- Literals with what touches them are the same. -/
theorem readings_literalSuffix (value : Value) :
    like.Readings Eq (literalSuffix deeper value) (literalSuffix image value) := by
  unfold literalSuffix
  split
  · refine readings_denominator?.same fun denominator => ?_
    split
    · refine (readings_ofExcept fun fault failed => ?_).same fun quotient =>
        readings_unitSuffix alike _
      rw [fault_of_ofQuotient failed]
      rfl
    · exact readings_unitSuffix alike _
  · exact readings_unitSuffix alike _

/-- Expressions between quotation marks are the same. -/
theorem readings_quoted (places : like.Places opening other) :
    like.Readings Eq (quoted deeper opening) (quoted image other) := by
  unfold quoted
  refine (alike.algebraic _).same fun items => readings_advance.bind ?_
  rintro _ _ (⟨token, span⟩ | _)
  · cases token with
    | quote => exact readings_pure rfl
    | _ => exact readings_throw_at (.unexpectedToken _) (fun _ => rfl) span
  · exact (readings_unterminated _ places).throw

/-- Polynomials are the same. -/
theorem readings_polynomial (places : like.Places opening other) :
    like.Readings Eq (polynomial deeper opening) (polynomial image other) := by
  unfold polynomial
  refine readings_here.bind fun mark otherMark marks => readings_peek.same fun next => ?_
  split
  · refine readings_discard_advance.same fun _ => (readings_quoted alike marks).same fun items => ?_
    refine readings_read.bind ?_
    rintro _ _ ⟨rfl, rfl⟩
    dsimp only [line, imageLine]
    split
    · exact readings_pure rfl
    · rename_i reason _
      refine (readings_consumed places).bind fun _ _ => ?_
      exact readings_throw_at (.notPolynomial reason) fun _ => rfl
  · exact readings_throw_at .polynomialExpected (fun _ => rfl) places

/-- Complex numbers in either form are the same. -/
theorem readings_complexFrom (form : ComplexForm) (first : List Value)
    (places : like.Places opening other) :
    like.Readings Eq (complexFrom deeper form first opening)
      (complexFrom image form first other) := by
  unfold complexFrom
  refine (readings_complexPart _ places).same fun first => readings_discard_advance.same fun _ => ?_
  refine (alike.algebraic _).same fun items => (readings_complexPart _ places).same fun second => ?_
  exact (readings_closeParenthesis places).same fun _ => readings_pure rfl

/-- Expressions in parentheses are the same. -/
theorem readings_parenthesized (places : like.Places opening other) :
    like.Readings Eq (parenthesized deeper opening) (parenthesized image other) := by
  unfold parenthesized
  refine (alike.algebraic _).same fun items => readings_peek.same fun next => ?_
  split
  · exact readings_complexFrom alike _ _ places
  · exact readings_complexFrom alike _ _ places
  · exact (readings_closeParenthesis places).same fun _ => readings_pure rfl

/-- Complex numbers are the same. -/
theorem readings_complex (places : like.Places opening other) :
    like.Readings Eq (complex deeper opening) (complex image other) := by
  unfold complex
  refine (readings_parenthesized alike places).same fun items => ?_
  split
  · exact readings_pure rfl
  · exact readings_throw_at .complexExpected (fun _ => rfl) places

/-- Values that begin with the same token are the same. -/
theorem readings_objectFrom (token : Token) (places : like.Places opening other) :
    like.Readings Eq (objectFrom deeper token opening) (objectFrom image token other) := by
  unfold objectFrom
  split
  · exact (readings_number _ places).same fun _ => readings_literalSuffix alike _
  · refine readings_adjacentNumber?.bind ?_
    rintro _ _ (⟨digits, span⟩ | _)
    · exact (readings_number _ span).same fun _ => readings_literalSuffix alike _
    · exact readings_pure rfl
  · exact readings_pure rfl
  · split
    · exact readings_pure rfl
    · exact readings_literalSuffix alike _
  · exact readings_text _ _ places
  · exact alike.sequence _ places
  · exact alike.sequence _ places
  · exact alike.sequence _ places
  · exact (readings_quoted alike places).same fun _ => readings_pure rfl
  · exact readings_polynomial alike places
  · exact readings_complex alike places
  · rename_i token _
    exact readings_throw_at (.unexpectedToken _) (fun _ => rfl) places

/-- The next values are the same. -/
theorem readings_object? : like.Readings Eq (object? deeper) (object? image) := by
  unfold object?
  refine readings_skipSeparators.same fun _ => readings_advance.bind ?_
  rintro _ _ (⟨token, span⟩ | _)
  · exact (readings_objectFrom alike token span).same fun _ => readings_pure rfl
  · exact readings_pure rfl

/-- The items of sequences are the same. -/
theorem readings_itemsWithin (kind : SequenceKind) (places : like.Places opening other)
    (steps : Nat) :
    like.Readings Eq (itemsWithin deeper kind opening steps)
      (itemsWithin image kind other steps) := by
  induction steps with
  | zero => exact (readings_unterminated _ places).throw
  | succ steps inductionHypothesis =>
    rw [itemsWithin, itemsWithin]
    refine readings_peek.same fun next => ?_
    split
    · exact (readings_unterminated _ places).throw
    · split
      · exact readings_discard_advance.same fun _ => readings_pure rfl
      · split
        · exact readings_discard_advance.same fun _ => inductionHypothesis
        · exact (readings_object? alike).same fun _ => inductionHypothesis.same fun _ =>
            readings_pure rfl

/-- Sequences are the same. -/
theorem readings_sequenceItems (kind : SequenceKind) (places : like.Places opening other) :
    like.Readings Eq (sequenceItems deeper kind opening) (sequenceItems image kind other) := by
  unfold sequenceItems
  refine readings_get.bind fun cursor imageCursor cursors => ?_
  rw [length_rest cursors]
  exact (readings_itemsWithin alike kind places _).same fun _ => readings_pure rfl

/-! ## Expressions -/

/-- Operators in front of the same operand are the same. -/
theorem readings_prefixedOperand (command : Command) :
    like.Readings Eq (prefixedOperand deeper command) (prefixedOperand image command) := by
  unfold prefixedOperand
  refine (alike.algebraic _).same fun items => ?_
  split
  · exact readings_pure rfl
  · exact readings_pure rfl

/-- The further arguments of functions are the same. -/
theorem readings_furtherArguments (count : Nat) :
    like.Readings Eq (furtherArguments deeper count) (furtherArguments image count) := by
  induction count with
  | zero => exact readings_pure rfl
  | succ count inductionHypothesis =>
    have argument : like.Readings Eq (do
          discard advance
          let argument ← deeper.algebraic Precedence.parentheses
          return argument :: (← furtherArguments deeper count)) (do
          discard advance
          let argument ← image.algebraic Precedence.parentheses
          return argument :: (← furtherArguments image count)) :=
      readings_discard_advance.same fun _ => (alike.algebraic _).same fun _ =>
        inductionHypothesis.same fun _ => readings_pure rfl
    rw [furtherArguments, furtherArguments]
    refine readings_peek.same fun next => ?_
    split
    · exact argument
    · exact argument
    · exact readings_here.bind fun _ _ => readings_throw_at .argumentExpected fun _ => rfl

/-- Functions behind their arguments are the same. -/
theorem readings_application (command : Command) :
    like.Readings Eq (application deeper command) (application image command) := by
  unfold application
  refine readings_peek.same fun next => ?_
  split
  · refine readings_here.bind fun _ _ places => readings_discard_advance.same fun _ => ?_
    refine (alike.algebraic _).same fun first => ?_
    refine (readings_furtherArguments alike _).same fun others => ?_
    exact (readings_closeParenthesis places).same fun _ => readings_pure rfl
  · split
    · exact (alike.algebraic _).same fun _ => readings_pure rfl
    · exact readings_here.bind fun _ _ => readings_throw_at .argumentExpected fun _ => rfl

/-- What a name stands for inside an expression is the same. -/
theorem readings_named (name : String) (places : like.Places opening other) :
    like.Readings Eq (named deeper name opening) (named image name other) := by
  unfold named
  split
  · exact readings_pure rfl
  · split
    · exact readings_throw_at (.notAlgebraic name) (fun _ => rfl) places
    · exact readings_application alike _
    · exact readings_prefixedOperand alike _
    · exact readings_throw_at (.valueExpected name) (fun _ => rfl) places
    · refine readings_peek.same fun next => ?_
      split
      · exact readings_application alike _
      · exact readings_throw_at (.valueExpected name) (fun _ => rfl) places

/-- Operands are the same. -/
theorem readings_operand : like.Readings Eq (operand deeper) (operand image) := by
  unfold operand
  refine readings_here.bind fun span imageSpan places => readings_advance.bind ?_
  rintro _ _ (⟨token, _⟩ | _)
  · dsimp only
    split
    · exact (readings_number _ places).same fun _ =>
        (readings_unitSuffix alike _).same fun _ => readings_pure rfl
    · exact (readings_text _ _ places).same fun _ => readings_pure rfl
    · exact readings_prefixedOperand alike _
    · exact readings_application alike _
    · exact readings_throw_at (.valueExpected _) (fun _ => rfl) places
    · exact readings_named alike _ places
    · exact readings_parenthesized alike places
    · exact (readings_polynomial alike places).same fun _ => readings_pure rfl
    · exact readings_throw_at .argumentExpected (fun _ => rfl) places
  · exact readings_throw_at .argumentExpected (fun _ => rfl) places

omit alike in
/-- The operators behind operands are the same, and so is what follows them. -/
theorem postfixedFrom_alike {passed imagePassed : Option Nat}
    {rest imageRest : List Token.Spanned}
    (cursors : like.Cursors ⟨passed, rest⟩ ⟨imagePassed, imageRest⟩) :
    (postfixedFrom passed rest).1 = (postfixedFrom imagePassed imageRest).1 ∧
      like.Cursors (postfixedFrom passed rest).2 (postfixedFrom imagePassed imageRest).2 := by
  induction rest generalizing passed imagePassed imageRest with
  | nil =>
    cases like.ahead cursors
    exact ⟨rfl, cursors⟩
  | cons next rest inductionHypothesis =>
    cases like.ahead cursors
    rw [postfixedFrom, postfixedFrom]
    dsimp only
    split
    · split
      · obtain ⟨operators, after⟩ := inductionHypothesis (like.passes cursors)
        exact ⟨congrArg (_ :: ·) operators, after⟩
      · exact ⟨rfl, cursors⟩
    · exact ⟨rfl, cursors⟩

/-- Operands with the operators behind them are the same. -/
theorem readings_primary : like.Readings Eq (primary deeper) (primary image) := by
  unfold primary
  refine (readings_operand alike).same fun items => ?_
  refine readings_get.bind fun cursor imageCursor cursors => ?_
  obtain ⟨operators, after⟩ := postfixedFrom_alike cursors
  exact (readings_set after).same fun _ => readings_pure (by rw [operators])

/-- The bindings in parentheses are the same. -/
theorem readings_bindingsWithin (places : like.Places opening other) (steps : Nat) :
    like.Readings Eq (bindingsWithin deeper opening steps) (bindingsWithin image other steps) := by
  induction steps with
  | zero => exact readings_here.bind fun _ _ => readings_throw_at .argumentExpected fun _ => rfl
  | succ steps inductionHypothesis =>
    rw [bindingsWithin, bindingsWithin]
    refine (alike.algebraic _).same fun binding => readings_peek.same fun next => ?_
    have further : like.Readings Eq (do
          discard advance
          let others ← bindingsWithin deeper opening steps
          return binding ++ Value.command .whereBound :: others) (do
          discard advance
          let others ← bindingsWithin image other steps
          return binding ++ Value.command .whereBound :: others) :=
      readings_discard_advance.same fun _ => inductionHypothesis.same fun _ => readings_pure rfl
    split
    · exact further
    · exact further
    · exact (readings_closeParenthesis places).same fun _ => readings_pure rfl

/-- Bindings are the same. -/
theorem readings_bindings : like.Readings Eq (bindings deeper) (bindings image) := by
  unfold bindings
  refine readings_peek.same fun next => ?_
  split
  · refine readings_here.bind fun _ _ places => readings_discard_advance.same fun _ => ?_
    refine readings_get.bind fun cursor imageCursor cursors => ?_
    rw [length_rest cursors]
    exact readings_bindingsWithin alike places _
  · exact (alike.algebraic _).same fun _ => readings_pure rfl

/-- Operators with their right operands are the same. -/
theorem readings_climbWithin (minimum : Precedence) (steps : Nat) :
    like.Readings Eq (climbWithin deeper minimum steps) (climbWithin image minimum steps) := by
  induction steps with
  | zero => exact readings_pure rfl
  | succ steps inductionHypothesis =>
    rw [climbWithin, climbWithin]
    refine readings_infixed?.same fun next => ?_
    split
    · exact readings_pure rfl
    · split
      · exact readings_pure rfl
      · have further {row : ReadingOn Base (List Value)} {imageRow : ReadingOn Image (List Value)}
            (same : like.Readings Eq row imageRow) :
            like.Readings Eq
              (row >>= fun items => climbWithin deeper minimum steps >>= fun others =>
                Pure.pure (items ++ others))
              (imageRow >>= fun items => climbWithin image minimum steps >>= fun others =>
                Pure.pure (items ++ others)) :=
          same.same fun _ => inductionHypothesis.same fun _ => readings_pure rfl
        refine readings_discard_advance.same fun _ => ?_
        dsimp only
        split
        · exact further (readings_bindings alike)
        · exact further ((alike.algebraic _).map _)

/-- Expressions up to an operator that binds less tightly are the same. -/
theorem readings_climb (minimum : Precedence) :
    like.Readings Eq (climb deeper minimum) (climb image minimum) := by
  unfold climb
  refine (readings_primary alike).same fun first => ?_
  refine readings_get.bind fun cursor imageCursor cursors => ?_
  rw [length_rest cursors]
  exact (readings_climbWithin alike minimum _).same fun _ => readings_pure rfl

/-- The values of lines are the same. -/
theorem readings_objectsWithin (steps : Nat) :
    like.Readings Eq (objectsWithin deeper steps) (objectsWithin image steps) := by
  induction steps with
  | zero => exact readings_pure rfl
  | succ steps inductionHypothesis =>
    rw [objectsWithin, objectsWithin]
    refine (readings_object? alike).same fun next => ?_
    split
    · exact readings_pure rfl
    · exact inductionHypothesis.same fun _ => readings_pure rfl

end Constructs

/-- Constructs that lie too deep fail at corresponding places. -/
theorem readings_tooDeep : like.Readings Results tooDeep tooDeep :=
  readings_here.bind fun _ _ => readings_throw_at .nestingTooDeep fun _ => rfl

/-- If what is compared are computations that may only fail, everything that is read so many levels
deep is the same. -/
theorem deeper_atMost (like : Likeness Outcome Outcome) (levels : Nat) :
    like.Deeper (atMost levels) (atMost levels) := by
  induction levels with
  | zero =>
    refine ⟨fun minimum => ?_, fun kind _ _ _ => ?_⟩
    · unfold atMost
      dsimp only
      rw [algebraicWithin]
      exact readings_tooDeep
    · unfold atMost
      dsimp only
      rw [sequenceWithin]
      exact readings_tooDeep
  | succ levels inductionHypothesis =>
    refine ⟨fun minimum => ?_, fun kind _ _ places => ?_⟩
    · unfold atMost
      dsimp only
      rw [algebraicWithin]
      exact readings_climb inductionHypothesis minimum
    · unfold atMost
      dsimp only
      rw [sequenceWithin]
      exact readings_sequenceItems inductionHypothesis kind places

end Likeness

end Source

end Calculator
