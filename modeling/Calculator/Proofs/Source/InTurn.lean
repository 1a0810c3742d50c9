import Calculator.Proofs.Source.Lexemes
import Calculator.Proofs.Source.Likeness
import Mathlib

/-!
# Value by value

A line may be read at once, or value by value: the first value of the line, then the first value of
what is left behind it, and so on. What is left is a text of its own, which is split into tokens
afresh. These are the tokens of the line that are left, moved to the front, because splitting a text
behind a token only depends on what is there. And nothing that is read for a value looks further
back than to the token that the value begins with. So the two ways of reading agree.
-/

namespace Calculator

namespace Token

/-! ## Splitting from the end of a token on -/

/-- A token that stands further behind. -/
def Spanned.moved (distance : ℕ) (spanned : Spanned) : Spanned :=
  ⟨spanned.token, ⟨spanned.span.offset + distance, spanned.span.length⟩⟩

variable {characters : List Char} {size steps otherSteps offset distance : ℕ}
  {tokens front rest : List Spanned} {last : Spanned}

/-- What is left of a text is split into the same tokens as when it is a text of its own. -/
theorem splitWithin_moved (enough : characters.length ≤ steps)
    (enoughToo : characters.length ≤ otherSteps) (otherSize : ℕ)
    (accepted : splitWithin size steps characters (offset + distance) = .ok tokens) :
    ∃ others, splitWithin otherSize otherSteps characters offset = .ok others ∧
      tokens = others.map (Spanned.moved distance) := by
  induction steps generalizing characters offset tokens otherSteps with
  | zero =>
    obtain rfl := List.length_eq_zero_iff.mp (Nat.le_zero.mp enough)
    obtain rfl := Except.ok.inj accepted
    exact ⟨[], splitWithin_nil _ _ _, rfl⟩
  | succ steps inductionHypothesis =>
    cases otherSteps with
    | zero =>
      obtain rfl := List.length_eq_zero_iff.mp (Nat.le_zero.mp enoughToo)
      obtain rfl := Except.ok.inj ((splitWithin_nil _ _ _).symm.trans accepted)
      exact ⟨[], splitWithin_nil _ _ _, rfl⟩
    | succ otherSteps =>
      cases divided characters with
      | stray fails => cases (fails size steps _).symm.trans accepted
      | blank padding splits =>
        obtain rfl := Except.ok.inj ((splits _ _ _).symm.trans accepted)
        exact ⟨[], splits _ _ _, rfl⟩
      | @token gap found whole padding nonempty alone splits =>
        rw [splits] at accepted
        obtain ⟨others, behind, row⟩ := Outcome.bind_eq_ok.mp accepted
        obtain rfl := Except.ok.inj row
        have positive := List.length_pos_of_ne_nil nonempty
        rw [whole, List.length_append, List.length_append] at enough enoughToo
        have place : offset + distance + byteLength gap + byteLength found.lexeme =
            offset + byteLength gap + byteLength found.lexeme + distance := by omega
        rw [place] at behind
        have shorter : found.rest.length ≤ otherSteps := by omega
        obtain ⟨behindOthers, split, rfl⟩ := inductionHypothesis (by omega) shorter behind
        refine ⟨_, (splits otherSize otherSteps offset).trans (by rw [split]; rfl), ?_⟩
        rw [List.map_cons, Spanned.moved, Nat.add_right_comm]

/-- What is behind the first token of a text is split into the tokens behind it. -/
theorem splitWithin_tail (enough : characters.length ≤ steps)
    (accepted : splitWithin size steps characters offset = .ok (last :: rest)) :
    ∃ first behind fewer, characters = first ++ behind ∧
      offset + byteLength first = last.span.stop ∧ first ≠ [] ∧ behind.length ≤ fewer ∧
        splitWithin size fewer behind last.span.stop = .ok rest := by
  cases steps with
  | zero => cases accepted
  | succ steps =>
    cases divided characters with
    | stray fails => cases (fails _ _ _).symm.trans accepted
    | blank padding splits => cases (splits _ _ _).symm.trans accepted
    | @token gap found whole padding nonempty alone splits =>
      rw [splits] at accepted
      obtain ⟨others, behind, row⟩ := Outcome.bind_eq_ok.mp accepted
      obtain ⟨rfl, rfl⟩ := List.cons.inj (Except.ok.inj row)
      have positive := List.length_pos_of_ne_nil nonempty
      rw [whole, List.length_append, List.length_append] at enough
      have shorter : found.rest.length ≤ steps := by omega
      refine ⟨gap ++ found.lexeme, found.rest, steps, whole, ?_, by simp [nonempty], shorter,
        behind⟩
      rw [byteLength_append, ← Nat.add_assoc]
      rfl

/-- What is behind a token of a text is split into the tokens behind it. -/
theorem splitWithin_behind (enough : characters.length ≤ steps)
    (accepted : splitWithin size steps characters offset = .ok (front ++ last :: rest)) :
    ∃ first behind fewer, characters = first ++ behind ∧
      offset + byteLength first = last.span.stop ∧ first ≠ [] ∧ behind.length ≤ fewer ∧
        splitWithin size fewer behind last.span.stop = .ok rest := by
  induction front generalizing characters steps offset with
  | nil => exact splitWithin_tail enough accepted
  | cons head front inductionHypothesis =>
    obtain ⟨first, behind, fewer, rfl, stop, some, enough, accepted⟩ :=
      splitWithin_tail enough accepted
    obtain ⟨further, behind, fewer, rfl, stops, -, enough, accepted⟩ :=
      inductionHypothesis enough accepted
    refine ⟨first ++ further, behind, fewer, by simp, ?_, by simp [some], enough, accepted⟩
    rw [byteLength_append, ← stops, ← stop, Nat.add_assoc]

/-- A text can be split behind each of its tokens. What is left of it is split into the tokens that
are left, moved to the front. -/
theorem split_behind {source : String}
    (accepted : split source = .ok (front ++ last :: rest)) :
    ∃ first behind tokens, source = first ++ behind ∧ first.utf8ByteSize = last.span.stop ∧
      0 < last.span.stop ∧ split behind = .ok tokens ∧
        rest = tokens.map (Spanned.moved last.span.stop) := by
  obtain ⟨first, behind, fewer, whole, stop, some, enough, left⟩ :=
    splitWithin_behind le_rfl accepted
  rw [Nat.zero_add] at stop
  rw [← Nat.zero_add last.span.stop] at left
  obtain ⟨tokens, split, moved⟩ :=
    splitWithin_moved enough le_rfl (String.ofList behind).utf8ByteSize left
  refine ⟨String.ofList first, String.ofList behind, tokens, ?_, ?_, ?_, ?_, moved⟩
  · rw [← String.ofList_append, ← whole, String.ofList_toList]
  · rw [← byteLength_eq, stop]
  · exact stop ▸ byteLength_pos some
  · rw [Token.split, String.toList_ofList]
    exact split

end Token

namespace Source

open Token (Spanned)

variable {settings : Preferences} {size distance : ℕ} {tokens : List Spanned}

/-! ## Reading from the end of a token on -/

/-- A cursor in a line of which the text is a part. -/
def Cursor.moved (distance : ℕ) (cursor : Cursor) : Cursor :=
  ⟨cursor.passed.map (· + distance), cursor.rest.map (Spanned.moved distance)⟩

/-- Whether a cursor is behind one of the tokens of a text. -/
def Cursor.Behind (tokens : List Spanned) (cursor : Cursor) : Prop :=
  ∃ front last, tokens = front ++ last :: cursor.rest ∧ cursor.passed = some last.span.stop

/-- A line and a text of its own that is its end are read alike, from behind a token on. Where they
fail, the faults are not at the same places. -/
def restarted (settings : Preferences) (size otherSize distance : ℕ) (tokens : List Spanned) :
    Likeness Outcome Outcome :=
  .placeless settings size otherSize
    (fun cursor image => cursor = image.moved distance ∧ image.Behind tokens)
    (by
      rintro _ image ⟨rfl, -⟩
      rw [Cursor.moved, List.forall₂_map_left_iff]
      exact List.forall₂_same.mpr fun _ _ => rfl)
    (by
      rintro passed imagePassed next other rest imageRest ⟨same, front, last, rfl, -⟩
      obtain ⟨-, row⟩ := Cursor.mk.inj same
      obtain ⟨rfl, rfl⟩ := List.cons.inj row
      refine ⟨?_, front ++ [last], other, by simp, rfl⟩
      simp [Cursor.moved, Spanned.moved, Span.stop, Nat.add_right_comm])
    (by
      rintro passed imagePassed next other rest imageRest ⟨same, -⟩
      obtain ⟨rfl, row⟩ := Cursor.mk.inj same
      obtain ⟨rfl, -⟩ := List.cons.inj row
      cases imagePassed <;> simp [Spanned.moved])

/-- The next value in the line is the first value of the text that is left of it. It does not matter
where the token in front of it ended. -/
theorem object?_restarted (settings : Preferences) (size otherSize distance levels : ℕ)
    (tokens : List Spanned) (passed otherPassed : Option ℕ) :
    Outcome.Alike (fun _ _ => True)
      (fun found other => found.1 = other.1 ∧
        (found.1.isSome → found.2 = other.2.moved distance ∧ other.2.Behind tokens))
      (object? (atMost levels) ⟨settings, size⟩ ⟨passed, tokens.map (Spanned.moved distance)⟩)
      (object? (atMost levels) ⟨settings, otherSize⟩ ⟨otherPassed, tokens⟩) := by
  have moved : (Cursor.mk passed (tokens.map (Spanned.moved distance))).skipSeparators.rest =
      (Cursor.mk otherPassed tokens).skipSeparators.rest.map (Spanned.moved distance) := by
    rw [skipSeparators_rest, skipSeparators_rest, List.dropWhile_map]
    rfl
  obtain ⟨front, whole⟩ : (Cursor.mk otherPassed tokens).skipSeparators.rest <:+ tokens := by
    rw [skipSeparators_rest]
    exact List.dropWhile_suffix _
  rw [object?_eq, object?_eq, moved]
  generalize (Cursor.mk otherPassed tokens).skipSeparators.rest = left at whole
  cases left with
  | nil => exact .ok ⟨rfl, fun some => absurd some Bool.false_ne_true⟩
  | cons next rest =>
    subst whole
    let like := restarted settings size otherSize distance (front ++ next :: rest)
    have value : like.Readings Eq
        (objectFrom (atMost levels) next.token (next.moved distance).span)
        (objectFrom (atMost levels) next.token next.span) :=
      Likeness.readings_objectFrom (like.deeper_atMost levels) next.token trivial
    refine (value ⟨some (next.moved distance).span.stop, rest.map (Spanned.moved distance)⟩
      ⟨some next.span.stop, rest⟩ ⟨?_, front, next, rfl, rfl⟩).bind ?_
    · simp [Cursor.moved, Spanned.moved, Span.stop, Nat.add_right_comm]
    · rintro ⟨value, cursor⟩ ⟨_, image⟩ ⟨rfl, after⟩
      exact .ok ⟨rfl, fun _ => after⟩

/-- The first value of a text is read from its first token on. -/
theorem readObject_eq {source : String} (accepted : Token.split source = .ok tokens) :
    readObject source settings none 0 =
      object? (outermost settings) ⟨settings, source.utf8ByteSize⟩ ⟨none, tokens⟩ >>= fun found =>
        .ok (found.1.map fun value => (value, found.2.passed.getD 0)) := by
  obtain ⟨next, started, some, nothing⟩ :
      ∃ next : Option Value → Reading (Option (Value × ℕ)),
        readObject source settings none 0 =
          start source settings (object? (outermost settings) >>= next) ∧
        (∀ value, next (some value) = withConsumed value) ∧ next none = pure none :=
    ⟨_, rfl, fun _ => rfl, rfl⟩
  rw [started, start, accepted]
  change (object? (outermost settings) _ _ >>= _) >>= _ = _
  cases object? (outermost settings) ⟨settings, source.utf8ByteSize⟩ ⟨none, tokens⟩ with
  | error fault => rfl
  | ok found =>
    obtain ⟨_ | value, cursor⟩ := found
    · change (next none ⟨settings, source.utf8ByteSize⟩ cursor >>= _) = _
      rw [nothing]
      rfl
    · change (next (.some value) ⟨settings, source.utf8ByteSize⟩ cursor >>= _) = _
      rw [some]
      rfl

/-! ## In turn -/

/-- Whether values are read in turn from a text that stands at some place of a line: each is the
first value of what is left behind the one before it, and behind the last one nothing is left. Each
takes some characters, up to one of the places at which tokens of the line end. -/
inductive ReadsInTurn (settings : Preferences) (Ends : ℕ → Prop) : ℕ → String → List Value → Prop
  | done {offset : ℕ} {text : String} (nothing : readObject text settings none 0 = .ok none) :
      ReadsInTurn settings Ends offset text []
  | value {offset : ℕ} {first behind : String} {value : Value} {values : List Value}
      (read : readObject (first ++ behind) settings none 0 = .ok (some (value, first.utf8ByteSize)))
      (positive : 0 < first.utf8ByteSize) (ends : Ends (offset + first.utf8ByteSize))
      (others : ReadsInTurn settings Ends (offset + first.utf8ByteSize) behind values) :
      ReadsInTurn settings Ends offset (first ++ behind) (value :: values)

/-- A text has only one beginning of a given length. -/
theorem append_inj_of_size {first second behind other : String}
    (same : first ++ behind = second ++ other)
    (size : first.utf8ByteSize = second.utf8ByteSize) : behind = other := by
  have bytes := congrArg (fun text => text.toByteArray.data) same
  simp only [String.toByteArray_append, ByteArray.data_append] at bytes
  rw [← String.size_toByteArray, ← String.size_toByteArray] at size
  exact String.toByteArray_inj.mp (ByteArray.ext (Array.append_inj bytes size).2)

section ReadsInTurn

variable {Ends : ℕ → Prop} {offset : ℕ} {text first behind : String} {value : Value}
  {values : List Value}

/-- Where there is nothing to read, there are no values in turn. -/
theorem readsInTurn_of_nothing (nothing : readObject text settings none 0 = .ok none) :
    ReadsInTurn settings Ends offset text values ↔ values = [] := by
  constructor
  · intro reads
    cases reads with
    | done => rfl
    | value read => cases nothing.symm.trans read
  · rintro rfl
    exact .done nothing

/-- Where the first value cannot be read, there are no values in turn. -/
theorem not_readsInTurn_of_error {fault : Fault}
    (failed : readObject text settings none 0 = .error fault) :
    ¬ ReadsInTurn settings Ends offset text values := by
  intro reads
  cases reads with
  | done nothing => cases failed.symm.trans nothing
  | value read => cases failed.symm.trans read

/-- Where a first value is read, it is followed by those that are read in turn behind it. -/
theorem readsInTurn_of_value
    (read : readObject (first ++ behind) settings none 0 = .ok (some (value, first.utf8ByteSize)))
    (positive : 0 < first.utf8ByteSize) (ends : Ends (offset + first.utf8ByteSize)) :
    ReadsInTurn settings Ends offset (first ++ behind) values ↔ ∃ others, values = value :: others ∧
      ReadsInTurn settings Ends (offset + first.utf8ByteSize) behind others := by
  constructor
  · generalize whole : first ++ behind = text at read
    intro reads
    cases reads with
    | done nothing => cases read.symm.trans nothing
    | value found _ _ others =>
      obtain ⟨rfl, size⟩ := Prod.mk.inj (Option.some.inj (Except.ok.inj (read.symm.trans found)))
      rw [← size, ← append_inj_of_size whole size] at others
      exact ⟨_, rfl, others⟩
  · rintro ⟨others, rfl, reads⟩
    exact .value read positive ends reads

end ReadsInTurn

/-- Tokens that are moved twice. -/
theorem moved_moved (near far : ℕ) (tokens : List Spanned) :
    (tokens.map (Spanned.moved near)).map (Spanned.moved far) =
      tokens.map (Spanned.moved (far + near)) := by
  rw [List.map_map]
  refine List.map_congr_left fun next _ => ?_
  simp [Spanned.moved, Nat.add_assoc, Nat.add_comm near far]

/-- The values of a line are the next one and those behind it. -/
theorem objectsWithin_succ (deeper : Deeper) (steps : ℕ) (line : Line) (cursor : Cursor) :
    objectsWithin deeper (steps + 1) line cursor =
      object? deeper line cursor >>= fun found =>
        match found.1 with
        | none => .ok ([], found.2)
        | some value => objectsWithin deeper steps line found.2 >>= fun others =>
            .ok (value :: others.1, others.2) := by
  change (object? deeper line cursor >>= fun found => _) = _
  cases object? deeper line cursor with
  | error fault => rfl
  | ok found =>
    obtain ⟨_ | value, after⟩ := found <;> rfl

/-- What is found where a text of its own is left of a line: a fault, nothing, or the first value of
the text. Then what is left behind the value is the tokens of the rest of the text. -/
inductive Found (settings : Preferences) (Ends : ℕ → Prop) (distance : ℕ) (text : String)
    (tokens : List Spanned) : Outcome (Option Value × Cursor) → Prop
  | fault {fault other : Fault} (read : readObject text settings none 0 = .error other) :
      Found settings Ends distance text tokens (.error fault)
  | nothing {cursor : Cursor} (read : readObject text settings none 0 = .ok none) :
      Found settings Ends distance text tokens (.ok (none, cursor))
  | value {value : Value} {first behind : String} {others : List Spanned} {passed : Option ℕ}
      (whole : text = first ++ behind)
      (read : readObject text settings none 0 = .ok (some (value, first.utf8ByteSize)))
      (positive : 0 < first.utf8ByteSize) (ends : Ends (distance + first.utf8ByteSize))
      (split : Token.split behind = .ok others)
      (endsBehind : ∀ next ∈ others, Ends (distance + first.utf8ByteSize + next.span.stop))
      (fewer : others.length < tokens.length) :
      Found settings Ends distance text tokens
        (.ok (some value, ⟨passed, others.map (Spanned.moved (distance + first.utf8ByteSize))⟩))

/-- The next value that is left of a line is found in the text that is left of it. -/
theorem found_object? {Ends : ℕ → Prop} {text : String}
    (accepted : Token.split text = .ok tokens)
    (ends : ∀ next ∈ tokens, Ends (distance + next.span.stop)) (passed : Option ℕ) :
    Found settings Ends distance text tokens
      (object? (outermost settings) ⟨settings, size⟩
        ⟨passed, tokens.map (Spanned.moved distance)⟩) := by
  have alike := object?_restarted settings size text.utf8ByteSize distance
    settings.maxRecursion.toNat tokens passed none
  have read : readObject text settings none 0 = _ := readObject_eq accepted
  change Outcome.Alike _ _ (object? (outermost settings) _ _) (object? (outermost settings) _ _)
    at alike
  generalize object? (outermost settings) ⟨settings, size⟩ _ = outcome at alike ⊢
  generalize object? (outermost settings) ⟨settings, text.utf8ByteSize⟩ _ = image at alike read
  cases alike with
  | error => exact .fault read
  | @ok found other alike =>
    obtain ⟨next, cursor⟩ := found
    obtain ⟨_, image⟩ := other
    obtain ⟨rfl, after⟩ := alike
    dsimp only at read after
    cases next with
    | none => exact .nothing read
    | some value =>
      obtain ⟨rfl, front, last, rfl, stop⟩ := after rfl
      obtain ⟨first, behind, others, whole, length, positive, split, moved⟩ :=
        Token.split_behind accepted
      have endsBehind : ∀ next ∈ others, Ends (distance + last.span.stop + next.span.stop) := by
        intro next member
        have among : next.moved last.span.stop ∈ image.rest := moved ▸ List.mem_map_of_mem member
        have there := ends _ (List.mem_append_right front (List.mem_cons_of_mem last among))
        have place : distance + (next.moved last.span.stop).span.stop =
            distance + last.span.stop + next.span.stop := by
          simp only [Spanned.moved, Span.stop]
          omega
        exact place ▸ there
      have fewer : others.length < (front ++ last :: image.rest).length := by
        rw [moved, List.length_append, List.length_cons, List.length_map]
        omega
      have behindLast : image.moved distance = ⟨(image.moved distance).passed,
          others.map (Spanned.moved (distance + last.span.stop))⟩ := by
        rw [← moved_moved, ← moved]
        rfl
      rw [Outcome.ok_bind, stop] at read
      rw [behindLast]
      rw [← length] at positive endsBehind read ⊢
      exact .value whole read positive (length ▸ ends last (by simp)) split endsBehind fewer

/-- The values that are left of a line are those that are read in turn from the text that is left of
it. -/
theorem objectsWithin_iff {Ends : ℕ → Prop} {text : String}
    (accepted : Token.split text = .ok tokens)
    (ends : ∀ next ∈ tokens, Ends (distance + next.span.stop)) {steps : ℕ}
    (enough : tokens.length ≤ steps) (passed : Option ℕ) (values : List Value) :
    (∃ cursor, objectsWithin (outermost settings) steps ⟨settings, size⟩
        ⟨passed, tokens.map (Spanned.moved distance)⟩ = .ok (values, cursor)) ↔
      ReadsInTurn settings Ends distance text values := by
  have finished (values : List Value) (cursor : Cursor) :
      (∃ after, (.ok ([], cursor) : Outcome (List Value × Cursor)) = .ok (values, after)) ↔
        values = [] := by
    simp [eq_comm]
  induction steps generalizing text tokens distance passed values with
  | zero =>
    obtain rfl := List.length_eq_zero_iff.mp (Nat.le_zero.mp enough)
    have nothing : readObject text settings none 0 = .ok none := readObject_eq accepted
    rw [readsInTurn_of_nothing nothing]
    exact finished _ _
  | succ steps inductionHypothesis =>
    have found : Found settings Ends distance text tokens (object? (outermost settings)
        ⟨settings, size⟩ ⟨passed, tokens.map (Spanned.moved distance)⟩) :=
      found_object? accepted ends passed
    rw [objectsWithin_succ]
    generalize object? (outermost settings) _ _ = outcome at found ⊢
    cases found with
    | fault read =>
      refine iff_of_false ?_ (not_readsInTurn_of_error read)
      rintro ⟨_, ⟨⟩⟩
    | nothing read =>
      rw [readsInTurn_of_nothing read]
      exact finished _ _
    | @value _ _ _ _ stop whole read positive endsHere split endsBehind fewer =>
      subst whole
      have behind_iff (rest : List Value) :=
        inductionHypothesis split endsBehind (by omega) stop rest
      rw [readsInTurn_of_value read positive endsHere, Outcome.ok_bind]
      constructor
      · rintro ⟨cursor, all⟩
        obtain ⟨⟨rest, last⟩, left, same⟩ := Outcome.bind_eq_ok.mp all
        obtain ⟨rfl, -⟩ := Prod.mk.inj (Except.ok.inj same)
        exact ⟨rest, rfl, (behind_iff rest).mp ⟨last, left⟩⟩
      · rintro ⟨rest, rfl, reads⟩
        obtain ⟨last, left⟩ := (behind_iff rest).mpr reads
        exact ⟨last, Outcome.bind_eq_ok.mpr ⟨_, left, rfl⟩⟩

/-- To read a line is to read its values in turn. The values of a line are those that are read one
by one from what is left of it, starting with the whole line: each call reads the next value, uses
up some characters, and ends where a token of the line ends, at which the next call goes on; and
behind the last value a call finds nothing more. Where the line cannot be read, this does not
succeed either. -/
theorem readLine_iff_in_turn (source : String) (settings : Preferences) (values : List Value) :
    readLine source settings = .ok values ↔ ∃ tokens, Token.split source = .ok tokens ∧
      ReadsInTurn settings (fun stop => ∃ token ∈ tokens, token.span.stop = stop) 0 source
        values := by
  have whole : readLine source settings = Token.split source >>= fun tokens =>
      objectsWithin (outermost settings) tokens.length ⟨settings, source.utf8ByteSize⟩
        ⟨none, tokens⟩ >>= fun found => .ok found.1 := rfl
  rw [whole]
  cases accepted : Token.split source with
  | error fault =>
    refine iff_of_false ?_ ?_
    · rintro ⟨⟩
    · rintro ⟨_, ⟨⟩, _⟩
  | ok tokens =>
    have unmoved : tokens.map (Spanned.moved 0) = tokens := List.map_id tokens
    have inTurn : (∃ cursor, objectsWithin (outermost settings) tokens.length
          ⟨settings, source.utf8ByteSize⟩ ⟨none, tokens.map (Spanned.moved 0)⟩ =
            .ok (values, cursor)) ↔ ReadsInTurn settings
        (fun stop => ∃ token ∈ tokens, token.span.stop = stop) 0 source values :=
      objectsWithin_iff accepted (fun next member => ⟨next, member, (Nat.zero_add _).symm⟩) le_rfl
        none values
    rw [unmoved] at inTurn
    rw [Outcome.ok_bind, Outcome.bind_eq_ok]
    constructor
    · rintro ⟨⟨_, cursor⟩, read, ⟨⟩⟩
      exact ⟨tokens, rfl, inTurn.mp ⟨cursor, read⟩⟩
    · rintro ⟨_, ⟨⟩, reads⟩
      obtain ⟨cursor, read⟩ := inTurn.mpr reads
      exact ⟨_, read, rfl⟩

end Source

end Calculator
