import Calculator.Proofs.Outcome
import Calculator.Proofs.Source.Tokens
import Mathlib

/-!
# Lexemes

Splitting a text loses nothing. The characters of the text are those of its tokens, one after the
other and each where its span says, and blanks and comments in front of them, between them and
behind them. The characters of a token that stand alone are split into the same token again: what
has been read behind a token has decided where it ends, but not what it is.
-/

namespace Calculator.Token

variable {gap lexeme rest characters : List Char}

/-! ## Bytes -/

/-- The number of bytes of a row of characters is that of the text they make up. -/
theorem byteLength_eq (characters : List Char) :
    byteLength characters = (String.ofList characters).utf8ByteSize := by
  have counted (bytes : ℕ) : characters.foldl (fun bytes character => bytes + character.utf8Size)
      bytes = bytes + String.utf8Len characters := by
    induction characters generalizing bytes with
    | nil => rfl
    | cons character others inductionHypothesis =>
      rw [List.foldl_cons, inductionHypothesis, String.utf8Len_cons]
      omega
  rw [byteLength, counted, Nat.zero_add, String.utf8ByteSize_ofList]

theorem byteLength_append (first second : List Char) :
    byteLength (first ++ second) = byteLength first + byteLength second := by
  rw [byteLength_eq, byteLength_eq, byteLength_eq, String.ofList_append,
    String.utf8ByteSize_append]

theorem byteLength_cons (character : Char) (others : List Char) :
    byteLength (character :: others) = character.utf8Size + byteLength others := by
  rw [byteLength_eq, byteLength_eq, String.utf8ByteSize_ofList, String.utf8ByteSize_ofList,
    String.utf8Len_cons, Nat.add_comm]

/-- Characters have bytes. -/
theorem byteLength_pos (nonempty : characters ≠ []) : 0 < byteLength characters := by
  obtain ⟨character, others, rfl⟩ := List.exists_cons_of_ne_nil nonempty
  rw [byteLength_cons]
  exact Nat.add_pos_left character.utf8Size_pos _

/-! ## Blanks and comments -/

/-- What may stand in front of a token: blanks, and comments with the end of their line. -/
inductive Padding : List Char → Prop where
  | nothing : Padding []
  | blank {character : Char} {rest : List Char} (blank : Text.isBlank character = true)
      (behind : Padding rest) : Padding (character :: rest)
  | comment {body rest : List Char} (line : '\n' ∉ body) (behind : Padding rest) :
      Padding ('@' :: body ++ '\n' :: rest)

/-- What may stand behind the last token: the last comment needs no end of its line. -/
inductive LastPadding : List Char → Prop where
  | closed {gap : List Char} (padding : Padding gap) : LastPadding gap
  | comment {gap body : List Char} (padding : Padding gap) (line : '\n' ∉ body) :
      LastPadding (gap ++ '@' :: body)

/-- A comment may be longer. -/
theorem Padding.longer {character : Char} (inside : character ≠ '\n')
    (padding : Padding ('@' :: gap)) : Padding ('@' :: character :: gap) := by
  cases padding with
  | blank blank => exact absurd blank (by decide)
  | @comment body rest line behind =>
    have longer : '\n' ∉ character :: body := by simp [Ne.symm inside, line]
    exact .comment longer behind

/-- The last comment may be longer. -/
theorem LastPadding.longer {character : Char} (inside : character ≠ '\n')
    (padding : LastPadding ('@' :: gap)) : LastPadding ('@' :: character :: gap) := by
  generalize whole : '@' :: gap = characters at padding
  cases padding with
  | closed padding =>
    subst whole
    exact .closed (padding.longer inside)
  | @comment before body padding line =>
    cases before with
    | nil =>
      obtain rfl := (List.cons.inj whole).2
      have longer : '\n' ∉ character :: gap := by simp [Ne.symm inside, line]
      exact .comment .nothing longer
    | cons mark before =>
      obtain ⟨rfl, rfl⟩ := List.cons.inj whole
      exact .comment (padding.longer inside) line

/-- A blank may stand in front. -/
theorem LastPadding.blank {character : Char} (blank : Text.isBlank character = true)
    (padding : LastPadding gap) : LastPadding (character :: gap) := by
  cases padding with
  | closed padding => exact .closed (.blank blank padding)
  | comment padding line => exact .comment (.blank blank padding) line

/-- An empty comment may stand in front. -/
theorem LastPadding.empty_comment (padding : LastPadding gap) :
    LastPadding ('@' :: '\n' :: gap) := by
  have noBreak : '\n' ∉ [] := List.not_mem_nil
  cases padding with
  | closed padding => exact .closed (.comment noBreak padding)
  | comment padding line => exact .comment (.comment noBreak padding) line

/-- What is passed over in front of a token, after the mark of a comment or without one. -/
structure Passed (comment : Bool) (gap rest : List Char) : Prop where
  last : rest = [] → LastPadding (if comment then '@' :: gap else gap)
  padding : rest ≠ [] → Padding (if comment then '@' :: gap else gap)
  stops : ∀ first ∈ rest.head?, Text.isBlank first = false ∧ first ≠ '@'

/-- Only blanks and comments are passed over, and all of them, wherever they stand. -/
theorem skipBlanks_eq (comment : Bool) (characters : List Char) :
    ∃ gap rest, characters = gap ++ rest ∧
      (∀ offset, skipBlanks comment offset characters = (offset + byteLength gap, rest)) ∧
        Passed comment gap rest := by
  induction characters generalizing comment with
  | nil =>
    refine ⟨[], [], rfl, fun _ => rfl, fun _ => ?_, fun some => absurd rfl some, by simp⟩
    cases comment with
    | true => exact .comment .nothing List.not_mem_nil
    | false => exact .closed .nothing
  | cons character characters inductionHypothesis =>
    have further {comment : Bool} {gap rest : List Char}
        (skipped : ∀ offset, skipBlanks comment offset characters = (offset + byteLength gap, rest))
        (offset : ℕ) : skipBlanks comment (offset + character.utf8Size) characters =
          (offset + byteLength (character :: gap), rest) := by
      rw [skipped, byteLength_cons, Nat.add_assoc]
    cases comment with
    | true =>
      obtain ⟨gap, rest, rfl, skipped, passed⟩ := inductionHypothesis (character != '\n')
      refine ⟨character :: gap, rest, rfl, further skipped, ?_⟩
      by_cases ends : character = '\n'
      · subst ends
        exact ⟨fun none => (passed.last none).empty_comment,
          fun some => .comment List.not_mem_nil (passed.padding some), passed.stops⟩
      · rw [bne_iff_ne.mpr ends] at passed
        exact ⟨fun none => (passed.last none).longer ends,
          fun some => (passed.padding some).longer ends, passed.stops⟩
    | false =>
      simp only [skipBlanks, Bool.false_eq_true, if_false]
      split_ifs with blank mark
      · obtain ⟨gap, rest, rfl, skipped, passed⟩ := inductionHypothesis false
        exact ⟨character :: gap, rest, rfl, further skipped,
          fun none => (passed.last none).blank blank,
          fun some => .blank blank (passed.padding some), passed.stops⟩
      · obtain ⟨gap, rest, rfl, skipped, passed⟩ := inductionHypothesis true
        obtain rfl := eq_of_beq mark
        exact ⟨'@' :: gap, rest, rfl, further skipped, passed.last, passed.padding, passed.stops⟩
      · refine ⟨[], character :: characters, rfl, fun _ => rfl, by simp, fun _ => .nothing, ?_⟩
        rintro _ ⟨⟩
        exact ⟨Bool.eq_false_iff.mpr blank, fun same => mark (beq_iff_eq.mpr same)⟩

/-! ## Lexemes -/

/-- What is scanned stands at the front, and alone it is scanned as the same token. -/
structure Scanned.Exact (found : Scanned) (characters : List Char) : Prop where
  whole : characters = found.lexeme ++ found.rest
  nonempty : found.lexeme ≠ []
  alone : scan found.lexeme = .ok ⟨found.token, found.lexeme, []⟩

/-- The end of a text runs on nowhere. -/
theorem ends_nil : Ends [] := nofun

theorem exact_of_scanNumber? {found : Scanned}
    (scanned : scanNumber? characters = some (.ok found)) : found.Exact characters := by
  obtain ⟨numeral, token, whole⟩ := append_of_scanNumber? scanned
  obtain ⟨first, others, worded, -⟩ := numeral.head
  have alone := scan_number numeral ends_nil
  rw [List.append_nil, ← token] at alone
  exact ⟨whole, by simp [worded], alone⟩

theorem exact_of_scanText? {found : Scanned} (scanned : scanText? characters = some found) :
    found.Exact characters := by
  unfold scanText? at scanned
  split at scanned
  · rename_i body
    have inside : '"' ∉ body.takeWhile (· != '"') := fun member => by
      simpa using List.mem_takeWhile_imp member
    have parts : body.takeWhile (· != '"') ++ body.dropWhile (· != '"') = body :=
      List.takeWhile_append_dropWhile
    dsimp only at scanned
    split at scanned
    · rename_i mark rest behind
      obtain rfl := Option.some.inj scanned
      obtain rfl : mark = '"' := by
        have closes := List.head?_dropWhile_not (· != '"') body
        rw [behind] at closes
        simpa using closes
      have alone : scan ('"' :: body.takeWhile (· != '"') ++ ['"']) = _ := scan_text inside
      rw [behind] at parts
      exact ⟨by simp [parts], by simp, alone⟩
    · rename_i behind
      obtain rfl := Option.some.inj scanned
      rw [behind, List.append_nil] at parts
      rw [parts] at inside ⊢
      have number : scanNumber? ('"' :: body) = none := scanNumber?_eq_none (by decide) (by decide)
      refine ⟨by simp, by simp, ?_⟩
      simp [scan, number, scanText?, behind, parts]
  · simp at scanned

theorem exact_of_scanName? {found : Scanned} (scanned : scanName? characters = some found) :
    found.Exact characters := by
  have spelled : ∃ letters, found.token = .name letters ∧ letters.toList = found.lexeme ∧
      found.lexeme ≠ [] ∧ characters = found.lexeme ++ found.rest := by
    unfold scanName? at scanned
    split at scanned
    · split_ifs at scanned
      obtain rfl := Option.some.inj scanned
      exact ⟨_, rfl, String.toList_ofList, by simp [nameFrom], by simp [nameFrom]⟩
    · split_ifs at scanned
      obtain rfl := Option.some.inj scanned
      exact ⟨_, rfl, String.toList_ofList, by simp [nameFrom], by simp [nameFrom]⟩
    · simp at scanned
  obtain ⟨letters, token, worded, nonempty, whole⟩ := spelled
  have name := isName_of_scanName scanned token
  have alone := scan_name name ends_nil
  rw [List.append_nil, String.ofList_toList, worded, ← token] at alone
  exact ⟨whole, nonempty, alone⟩

theorem exact_of_scanMark? {found : Scanned} (scanned : scanMark? characters = some found) :
    found.Exact characters := by
  unfold scanMark? at scanned
  split at scanned
  all_goals first
    | obtain rfl := Option.some.inj scanned
      exact ⟨rfl, by simp, (scan_symbol (by decide) (by decide) (by simp)).trans rfl⟩
    | simp at scanned

theorem exact_of_scanOperator? {found : Scanned}
    (scanned : scanOperator? characters = some found) : found.Exact characters := by
  have apart : Apart [] := nofun
  unfold scanOperator? at scanned
  split at scanned
  case h_7 character rest _ _ _ _ _ _ =>
    obtain ⟨command, operator, rfl⟩ := Option.map_eq_some_iff.mp scanned
    refine ⟨rfl, by simp, ?_⟩
    unfold operatorOf? at operator
    split at operator
    all_goals first
      | obtain rfl := Option.some.inj operator
        exact (scan_symbol (by decide) (by decide) fun _ => apart).trans rfl
      | simp at operator
  all_goals first
    | obtain rfl := Option.some.inj scanned
      exact ⟨rfl, by simp, (scan_symbol (by decide) (by decide) (by simp)).trans rfl⟩
    | simp at scanned

/-- What is scanned as a token is scanned as that token alone. -/
theorem exact_of_scan {found : Scanned} (scanned : scan characters = .ok found) :
    found.Exact characters := by
  rcases scan_cases scanned with number | text | name | mark | operator
  · exact exact_of_scanNumber? number
  · exact exact_of_scanText? text
  · exact exact_of_scanName? name
  · exact exact_of_scanMark? mark
  · exact exact_of_scanOperator? operator

/-! ## Splitting -/

/-- The tokens of a row of characters at a given place: each lexeme is split into its token when it
stands alone, and only blanks and comments are left out. -/
inductive Laid : ℕ → List Spanned → List Char → Prop where
  | done {offset : ℕ} {gap : List Char} (padding : LastPadding gap) : Laid offset [] gap
  | token {offset : ℕ} {gap lexeme rest : List Char} {token : Token} {others : List Spanned}
      (padding : Padding gap) (nonempty : lexeme ≠ [])
      (alone : split (String.ofList lexeme) = .ok [⟨token, ⟨0, byteLength lexeme⟩⟩])
      (behind : Laid (offset + byteLength gap + byteLength lexeme) others rest) :
      Laid offset (⟨token, ⟨offset + byteLength gap, byteLength lexeme⟩⟩ :: others)
        (gap ++ lexeme ++ rest)

/-- The end of a text is split into no tokens. -/
theorem splitWithin_nil (size steps offset : ℕ) : splitWithin size steps [] offset = .ok [] := by
  cases steps <;> rfl

/-- A lexeme that stands alone is split into its token. -/
theorem split_lexeme {token : Token} (nonempty : lexeme ≠ [])
    (stops : ∀ first ∈ lexeme.head?, Text.isBlank first = false ∧ first ≠ '@')
    (alone : scan lexeme = .ok ⟨token, lexeme, []⟩) :
    split (String.ofList lexeme) = .ok [⟨token, ⟨0, byteLength lexeme⟩⟩] := by
  obtain ⟨first, others, rfl⟩ := List.exists_cons_of_ne_nil nonempty
  obtain ⟨blank, mark⟩ := stops first rfl
  have skipped : skipBlanks false 0 (first :: others) = (0, first :: others) := by
    simp [skipBlanks, blank, mark]
  rw [split, String.toList_ofList, List.length_cons, splitWithin, skipped]
  simp [alone, splitWithin_nil]

/-- How a row of characters is split: into no tokens if there are only blanks and comments, and
otherwise into a token behind blanks and comments and those behind it, wherever the row stands. If
no token begins there, the row cannot be split. -/
inductive Divided (characters : List Char) : Prop
  | blank (padding : LastPadding characters)
      (splits : ∀ size steps offset, splitWithin size (steps + 1) characters offset = .ok [])
  | token {gap : List Char} {found : Scanned}
      (whole : characters = gap ++ found.lexeme ++ found.rest) (padding : Padding gap)
      (nonempty : found.lexeme ≠ [])
      (alone : split (String.ofList found.lexeme) =
        .ok [⟨found.token, ⟨0, byteLength found.lexeme⟩⟩])
      (splits : ∀ size steps offset, splitWithin size (steps + 1) characters offset =
        splitWithin size steps found.rest (offset + byteLength gap + byteLength found.lexeme) >>=
          fun others => .ok
            (⟨found.token, ⟨offset + byteLength gap, byteLength found.lexeme⟩⟩ :: others))
  | stray {left : List Char}
      (fails : ∀ size steps offset,
        splitWithin size (steps + 1) characters offset = .error (stray size left))

/-- Splitting passes over blanks and comments and goes on with what is scanned behind them. -/
theorem splitWithin_skipped {gap rest : List Char}
    (skipped : ∀ offset, skipBlanks false offset characters = (offset + byteLength gap, rest))
    (size steps offset : ℕ) : splitWithin size (steps + 1) characters offset =
      if rest.isEmpty then .ok []
      else
        match scan rest with
        | .error left => .error (stray size left)
        | .ok found =>
          splitWithin size steps found.rest (offset + byteLength gap + byteLength found.lexeme) >>=
            fun others => .ok
              (⟨found.token, ⟨offset + byteLength gap, byteLength found.lexeme⟩⟩ :: others) := by
  rw [splitWithin, skipped]
  rfl

/-- Every row of characters is split in this way. -/
theorem divided (characters : List Char) : Divided characters := by
  obtain ⟨gap, rest, rfl, skipped, passed⟩ := skipBlanks_eq false characters
  have splits := splitWithin_skipped skipped
  by_cases none : rest = []
  · subst none
    refine .blank ?_ splits
    rw [List.append_nil]
    exact passed.last rfl
  · simp only [List.isEmpty_iff, none, if_false] at splits
    cases scanned : scan rest with
    | error left =>
      simp only [scanned] at splits
      exact .stray splits
    | ok found =>
      have exact := exact_of_scan scanned
      have stops : ∀ first ∈ found.lexeme.head?, Text.isBlank first = false ∧ first ≠ '@' := by
        intro first member
        refine passed.stops first ?_
        rw [exact.whole, List.head?_append, Option.mem_def.mp member]
        rfl
      have padding : Padding gap := passed.padding none
      simp only [scanned] at splits
      exact .token (by rw [List.append_assoc, ← exact.whole]) padding exact.nonempty
        (split_lexeme exact.nonempty stops exact.alone) splits

/-- As many steps as there are characters are enough: with more of them, a text is split in the same
way. -/
theorem splitWithin_eq {size steps otherSteps offset : ℕ} (enough : characters.length ≤ steps)
    (enoughToo : characters.length ≤ otherSteps) :
    splitWithin size steps characters offset = splitWithin size otherSteps characters offset := by
  induction steps generalizing characters offset otherSteps with
  | zero =>
    obtain rfl := List.length_eq_zero_iff.mp (Nat.le_zero.mp enough)
    rw [splitWithin_nil, splitWithin_nil]
  | succ steps inductionHypothesis =>
    cases otherSteps with
    | zero =>
      obtain rfl := List.length_eq_zero_iff.mp (Nat.le_zero.mp enoughToo)
      rw [splitWithin_nil, splitWithin_nil]
    | succ otherSteps =>
      cases divided characters with
      | blank padding splits => rw [splits, splits]
      | @token gap found whole padding nonempty alone splits =>
        have positive := List.length_pos_of_ne_nil nonempty
        rw [whole, List.length_append, List.length_append] at enough enoughToo
        have shorter : found.rest.length ≤ steps := by omega
        have shorterToo : found.rest.length ≤ otherSteps := by omega
        rw [splits, splits, inductionHypothesis shorter shorterToo]
      | stray fails => rw [fails, fails]

/-- What is left of a text is split into its tokens. -/
theorem laid_of_splitWithin {size steps offset : ℕ} {tokens : List Spanned}
    (enough : characters.length ≤ steps)
    (accepted : splitWithin size steps characters offset = .ok tokens) :
    Laid offset tokens characters := by
  induction steps generalizing characters offset tokens with
  | zero =>
    obtain rfl := List.length_eq_zero_iff.mp (Nat.le_zero.mp enough)
    obtain rfl := Except.ok.inj accepted
    exact .done (.closed .nothing)
  | succ steps inductionHypothesis =>
    cases divided characters with
    | stray fails => cases (fails size steps offset).symm.trans accepted
    | blank padding splits =>
      obtain rfl := Except.ok.inj ((splits size steps offset).symm.trans accepted)
      exact .done padding
    | token whole padding nonempty alone splits =>
      rw [splits] at accepted
      obtain ⟨others, behind, row⟩ := Outcome.bind_eq_ok.mp accepted
      obtain rfl := Except.ok.inj row
      have positive := List.length_pos_of_ne_nil nonempty
      rw [whole, List.length_append, List.length_append] at enough
      rw [whole]
      exact .token padding nonempty alone (inductionHypothesis (by omega) behind)

/-- Every token of a row has its lexeme where its span says. -/
theorem Laid.slice {offset : ℕ} {tokens : List Spanned} (laid : Laid offset tokens characters) :
    ∀ spanned ∈ tokens, ∃ front lexeme back, characters = front ++ lexeme ++ back ∧
      offset + byteLength front = spanned.span.offset ∧
        byteLength lexeme = spanned.span.length ∧ lexeme ≠ [] ∧
          split (String.ofList lexeme) = .ok [⟨spanned.token, ⟨0, spanned.span.length⟩⟩] := by
  induction laid with
  | done => nofun
  | @token offset gap lexeme rest token others padding nonempty alone behind inductionHypothesis =>
    intro spanned member
    rcases List.mem_cons.mp member with rfl | member
    · exact ⟨gap, lexeme, rest, rfl, rfl, rfl, nonempty, alone⟩
    · obtain ⟨front, inner, back, rfl, start, length, some, aloneInner⟩ :=
        inductionHypothesis spanned member
      refine ⟨gap ++ lexeme ++ front, inner, back, by simp, ?_, length, some, aloneInner⟩
      rw [← start, byteLength_append, byteLength_append]
      omega

/-- The tokens of a row follow one another without overlapping. -/
theorem Laid.ordered {offset : ℕ} {tokens : List Spanned} (laid : Laid offset tokens characters) :
    tokens.Pairwise fun first second =>
      first.span.offset < second.span.offset ∧ first.span.stop ≤ second.span.offset := by
  induction laid with
  | done => exact .nil
  | @token offset gap lexeme rest token others padding nonempty alone behind inductionHypothesis =>
    refine .cons (fun second member => ?_) inductionHypothesis
    obtain ⟨front, -, -, -, start, -⟩ := behind.slice second member
    have positive := byteLength_pos nonempty
    simp only [Span.stop]
    omega

/-- Nothing is lost when a text is split. Its tokens are laid out over the whole of it, with nothing
but blanks and comments between them. No span is empty, each ends before the next one begins, and
each lies in the text, beginning and ending between two characters. What stands in a span is split
into that token when it is a text of its own. -/
theorem split_lossless {source : String} {tokens : List Spanned}
    (accepted : split source = .ok tokens) :
    Laid 0 tokens source.toList ∧
      (tokens.Pairwise fun first second =>
        first.span.offset < second.span.offset ∧ first.span.stop ≤ second.span.offset) ∧
      ∀ spanned ∈ tokens, 0 < spanned.span.length ∧ spanned.span.stop ≤ source.utf8ByteSize ∧
        ∃ front lexeme back : String, source = front ++ lexeme ++ back ∧
          front.utf8ByteSize = spanned.span.offset ∧
          lexeme.utf8ByteSize = spanned.span.length ∧
          split lexeme = .ok [⟨spanned.token, ⟨0, spanned.span.length⟩⟩] := by
  have laid : Laid 0 tokens source.toList := laid_of_splitWithin le_rfl accepted
  refine ⟨laid, laid.ordered, fun spanned member => ?_⟩
  obtain ⟨front, lexeme, back, whole, start, length, nonempty, alone⟩ :=
    laid.slice spanned member
  have text : source = String.ofList front ++ String.ofList lexeme ++ String.ofList back := by
    rw [← String.ofList_append, ← String.ofList_append, ← whole, String.ofList_toList]
  have starts : (String.ofList front).utf8ByteSize = spanned.span.offset := by
    rw [← byteLength_eq, ← start, Nat.zero_add]
  have lasts : (String.ofList lexeme).utf8ByteSize = spanned.span.length := by
    rw [← byteLength_eq, length]
  refine ⟨length ▸ byteLength_pos nonempty, ?_, _, _, _, text, starts, lasts, alone⟩
  rw [text, String.utf8ByteSize_append, String.utf8ByteSize_append, starts, lasts, Span.stop]
  omega

/-- A comment is left out between a number and a text, and a name that touches the text is a token
of its own. -/
theorem split_lossless_comment :
    let source := "1.e2 @ -\n\"é\"x"
    let tokens : List Spanned :=
      [⟨.number "1.e2", ⟨0, 4⟩⟩, ⟨.text "é" true, ⟨9, 4⟩⟩, ⟨.name "x", ⟨13, 1⟩⟩]
    split source = .ok tokens ∧ Laid 0 tokens source.toList ∧
      ∀ spanned ∈ tokens, ∃ front lexeme back : String, source = front ++ lexeme ++ back ∧
        front.utf8ByteSize = spanned.span.offset ∧ lexeme.utf8ByteSize = spanned.span.length ∧
        split lexeme = .ok [⟨spanned.token, ⟨0, spanned.span.length⟩⟩] := by
  intro source tokens
  have accepted : split source = .ok tokens := by decide +kernel
  obtain ⟨laid, -, spans⟩ := split_lossless accepted
  exact ⟨accepted, laid, fun spanned member => (spans spanned member).2.2⟩

end Calculator.Token
