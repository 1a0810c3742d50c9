import Calculator.Proofs.Source.Lexemes
import Calculator.Proofs.Source.Likeness
import Mathlib

/-!
# Where faults are

A fault of reading points into the text that is read: its span begins and ends between two
characters or at an end of the text. For characters at which no token goes on this is a matter of
what is left of the text there. Every other span is that of a token, the end of the text, or what
lies between such places; so the steps by which constructs are read keep to them, and so do the
constructs.
-/

namespace Calculator

/-! ## Places in a text -/

/-- Whether there is a position between two characters of a text, or at one of its ends. -/
def IsBoundary (source : String) (position : ℕ) : Prop :=
  (String.Pos.Raw.mk position).IsValid source

/-- Whether a stretch lies in a text, and does not cut through a character. -/
structure Span.LiesIn (source : String) (span : Span) : Prop where
  start : IsBoundary source span.offset
  stop : IsBoundary source span.stop

variable {source : String} {position other : ℕ} {span : Span} {fault : Fault}

/-- Positions in a text are not behind it. -/
theorem IsBoundary.le (boundary : IsBoundary source position) : position ≤ source.utf8ByteSize :=
  boundary.le_rawEndPos

/-- A text begins at a boundary. -/
theorem isBoundary_zero (source : String) : IsBoundary source 0 := String.Pos.Raw.isValid_zero

/-- A text ends at a boundary. -/
theorem isBoundary_size (source : String) : IsBoundary source source.utf8ByteSize :=
  String.Pos.Raw.isValid_rawEndPos

/-- The later one of two boundaries is a boundary. -/
theorem IsBoundary.max (boundary : IsBoundary source position)
    (boundaryToo : IsBoundary source other) : IsBoundary source (max position other) := by
  rcases max_choice position other with first | second
  · rwa [first]
  · rwa [second]

/-- Behind some of the characters of a text there is a boundary. -/
theorem isBoundary_byteLength {front back : List Char} (whole : source.toList = front ++ back) :
    IsBoundary source (Token.byteLength front) := by
  rw [IsBoundary, String.Pos.Raw.isValid_iff_exists_append]
  refine ⟨String.ofList front, String.ofList back, ?_, ?_⟩
  · rw [← String.ofList_append, ← whole, String.ofList_toList]
  · rw [Token.byteLength_eq]
    rfl

/-- The stretch between two boundaries lies in the text, whichever of them comes first. -/
theorem liesIn_between (boundary : IsBoundary source position)
    (boundaryToo : IsBoundary source other) : (Span.between position other).LiesIn source := by
  have stop : (Span.between position other).stop = max position other := by
    simp only [Span.between, Span.stop]
    omega
  exact ⟨boundary, stop ▸ boundary.max boundaryToo⟩

/-- The end of a text lies in it. -/
theorem liesIn_end (source : String) : Span.LiesIn source ⟨source.utf8ByteSize, 0⟩ :=
  ⟨isBoundary_size source, isBoundary_size source⟩

/-- The tokens of a text lie in it. -/
theorem liesIn_of_split {tokens : List Token.Spanned} (accepted : Token.split source = .ok tokens) :
    ∀ next ∈ tokens, next.span.LiesIn source := by
  have laid : Token.Laid 0 tokens source.toList := Token.laid_of_splitWithin le_rfl accepted
  intro next among
  obtain ⟨front, lexeme, back, whole, start, length, -⟩ := laid.slice next among
  rw [Nat.zero_add] at start
  refine ⟨start ▸ isBoundary_byteLength (whole.trans (List.append_assoc _ _ _)), ?_⟩
  rw [Span.stop, ← start, ← length, ← Token.byteLength_append]
  exact isBoundary_byteLength whole

/-! ## Stray characters -/

namespace Token

/-- What is left where a number breaks off is the end of what is scanned. -/
theorem suffix_of_scanExponent? {characters left : List Char}
    (failed : scanExponent? characters = some (.error left)) : left <:+ characters := by
  unfold scanExponent? at failed
  split at failed
  · rename_i mark rest
    have sign : (scanSign rest).2 <:+ rest := by
      unfold scanSign
      split
      · exact List.suffix_cons _ _
      · exact List.suffix_cons _ _
      · exact List.suffix_rfl
    split_ifs at failed
    dsimp only at failed
    split at failed
    · obtain rfl := Except.error.inj (Option.some.inj failed)
      exact sign.trans (List.suffix_cons _ _)
    · cases Option.some.inj failed
  · cases failed

/-- What is left where no token goes on is the end of what is scanned. -/
theorem suffix_of_scan {characters left : List Char} (failed : scan characters = .error left) :
    left <:+ characters := by
  unfold scan at failed
  split at failed
  · rename_i result number
    unfold scanNumber? at number
    split at number
    · cases number
    · rename_i mantissa rest found
      obtain ⟨-, rfl⟩ := append_of_scanMantissa? found
      split at number
      · subst failed
        cases Option.some.inj number
      · rename_i brokenOff exponent
        split_ifs at number
        · obtain rfl := Except.error.inj ((Option.some.inj number).trans failed)
          exact (suffix_of_scanExponent? exponent).trans (List.suffix_append _ _)
        · subst failed
          cases Option.some.inj number
      · subst failed
        cases Option.some.inj number
  · split at failed
    · cases failed
    · obtain rfl := Except.error.inj failed
      unfold brokenOff
      split
      · exact List.suffix_cons _ _
      · exact List.suffix_cons _ _
      · exact List.suffix_rfl

/-- A text that cannot be split has a stray character at some end of it. -/
theorem stray_of_splitWithin {size steps offset : ℕ} {characters : List Char}
    (failed : splitWithin size steps characters offset = .error fault) :
    ∃ left, left <:+ characters ∧ fault = stray size left := by
  induction steps generalizing characters offset with
  | zero => cases failed
  | succ steps inductionHypothesis =>
    obtain ⟨gap, rest, rfl, skipped, -⟩ := skipBlanks_eq false characters
    rw [splitWithin_skipped skipped] at failed
    split_ifs at failed
    cases scanned : scan rest with
    | error left =>
      rw [scanned] at failed
      exact ⟨left, (suffix_of_scan scanned).trans (List.suffix_append _ _),
        (Except.error.inj failed).symm⟩
    | ok found =>
      rw [scanned] at failed
      rcases Outcome.bind_eq_error.mp failed with behind | ⟨_, -, ⟨⟩⟩
      obtain ⟨left, ending, stray⟩ := inductionHypothesis behind
      have further : found.rest <:+ rest := ⟨found.lexeme, (exact_of_scan scanned).whole.symm⟩
      exact ⟨left, (ending.trans further).trans (List.suffix_append _ _), stray⟩

/-- A stray character lies in the text. -/
theorem liesIn_of_split_error (failed : split source = .error fault) :
    ∀ span ∈ fault.span?, span.LiesIn source := by
  obtain ⟨left, ⟨front, whole⟩, rfl⟩ := stray_of_splitWithin failed
  rintro _ ⟨⟩
  have size : source.utf8ByteSize = byteLength front + byteLength left := by
    rw [← byteLength_append, whole, byteLength_eq, String.ofList_toList]
  have offset : source.utf8ByteSize - byteLength left = byteLength front := by omega
  rw [offset]
  refine ⟨isBoundary_byteLength whole.symm, ?_⟩
  cases left with
  | nil => exact isBoundary_byteLength whole.symm
  | cons character others =>
    have behind : byteLength front + character.utf8Size = byteLength (front ++ [character]) := by
      rw [byteLength_append, byteLength_cons]
      rfl
    have split : source.toList = (front ++ [character]) ++ others := by simp [← whole]
    change IsBoundary source (byteLength front + character.utf8Size)
    exact behind ▸ isBoundary_byteLength split

end Token

/-! ## What is read -/

namespace Source

/-- A text that is compared with itself, where every place that is met lies in the text. -/
def placed (source : String) (settings : Preferences) : Likeness Outcome Outcome where
  settings := settings
  size := source.utf8ByteSize
  imageSize := source.utf8ByteSize
  Cursors cursor image := cursor = image ∧
    (∀ next ∈ cursor.rest, next.span.LiesIn source) ∧ IsBoundary source (cursor.passed.getD 0)
  Places place other := place = other ∧ place.LiesIn source
  Faults fault other := fault = other ∧ ∀ span ∈ fault.span?, span.LiesIn source
  Outcomes := Outcome.Alike fun fault other => fault = other ∧ ∀ span ∈ fault.span?,
    span.LiesIn source
  tokens := by
    rintro cursor _ ⟨rfl, inside, -⟩
    exact List.forall₂_same.mpr fun next among => ⟨rfl, rfl, inside next among⟩
  passes := by
    rintro _ _ next _ _ _ ⟨⟨⟩, inside, -⟩
    obtain ⟨first, others⟩ := List.forall_mem_cons.mp inside
    exact ⟨rfl, others, first.stop⟩
  touches := by
    rintro _ _ _ _ _ _ ⟨⟨⟩, -⟩
    exact Iff.rfl
  ending := ⟨rfl, liesIn_end source⟩
  toEnd := by
    rintro place _ ⟨rfl, inside⟩
    exact ⟨rfl, liesIn_between inside.start (isBoundary_size source)⟩
  upTo := by
    rintro cursor _ ⟨rfl, -, passed⟩ place _ ⟨rfl, inside⟩
    exact ⟨rfl, liesIn_between inside.start passed⟩
  placed := by
    rintro make located place _ ⟨rfl, inside⟩
    refine ⟨rfl, fun span there => ?_⟩
    rw [located] at there
    exact Option.some.inj there ▸ inside
  unplaced unlocated := ⟨rfl, fun span there => by rw [unlocated] at there; cases there⟩
  pure := .ok
  throw alike := by exact Outcome.Alike.error alike
  bind := .bind

variable {settings : Preferences} {Result : Type}

/-- If a reading keeps to places in the text, so do its faults. -/
theorem liesIn_of_readings {reading : Reading Result}
    (alike : (placed source settings).Readings Eq reading reading)
    (failed : start source settings reading = .error fault) :
    ∀ span ∈ fault.span?, span.LiesIn source := by
  rcases Outcome.bind_eq_error.mp failed with stray | ⟨tokens, accepted, behind⟩
  · exact Token.liesIn_of_split_error stray
  · rcases Outcome.bind_eq_error.mp behind with broken | ⟨_, -, ⟨⟩⟩
    have same := alike ⟨none, tokens⟩ ⟨none, tokens⟩
      ⟨rfl, liesIn_of_split accepted, isBoundary_zero source⟩
    change Outcome.Alike _ _ (reading ⟨settings, source.utf8ByteSize⟩ ⟨none, tokens⟩)
      (reading ⟨settings, source.utf8ByteSize⟩ ⟨none, tokens⟩) at same
    rw [broken] at same
    cases same with
    | error found => exact found.2

/-- The number of bytes that were read comes with a value. -/
theorem readings_withConsumed (value : Value) :
    (placed source settings).Readings Eq (withConsumed value) (withConsumed value) :=
  Likeness.readings_get.bind fun _ _ cursors => cursors.1 ▸ Likeness.readings_pure rfl

/-- A line that cannot be read has its fault in the line. -/
theorem liesIn_of_readLine (failed : readLine source settings = .error fault) :
    ∀ span ∈ fault.span?, span.LiesIn source := by
  have deeper := (placed source settings).deeper_atMost settings.maxRecursion.toNat
  refine liesIn_of_readings ?_ failed
  refine Likeness.readings_get.bind fun cursor image cursors => ?_
  rw [Likeness.length_rest cursors]
  exact Likeness.readings_objectsWithin deeper _

/-- A text of which no value can be read has its fault in the text. -/
theorem liesIn_of_readObject {kind : Option SequenceKind} {precedence : Precedence}
    (failed : readObject source settings kind precedence = .error fault) :
    ∀ span ∈ fault.span?, span.LiesIn source := by
  have deeper := (placed source settings).deeper_atMost settings.maxRecursion.toNat
  have opening : (placed source settings).Places ⟨0, 0⟩ ⟨0, 0⟩ :=
    ⟨rfl, isBoundary_zero source, isBoundary_zero source⟩
  refine liesIn_of_readings ?_ failed
  split
  · exact (Likeness.readings_quoted deeper opening).same fun _ => readings_withConsumed _
  · exact (deeper.sequence _ opening).same fun _ => readings_withConsumed _
  · split_ifs
    · refine (Likeness.readings_object? deeper).same fun next => ?_
      split
      · exact readings_withConsumed _
      · exact Likeness.readings_pure rfl
    · refine Likeness.readings_peek.same fun next => ?_
      split_ifs
      · exact Likeness.readings_pure rfl
      · exact (deeper.algebraic precedence).same fun _ => readings_withConsumed _

end Source

end Calculator
