import Calculator.Proofs.Symbol
import Mathlib

/-!
# Names in lower case

Two names are compared after their characters are put into lower case one by one; a name is compared
with a text after both are put into lower case as a whole. The two ways differ where a capital sigma ends
a word: on its own it becomes the inner small sigma, within the text the final one. So they agree on a
name and a text in which such sigmas stand at the same places, and only on those, apart from names and
texts that are different both ways. The comparison of names is an equivalence, and the order of names
goes with it.
-/

namespace Calculator

namespace Text

/-! ## Cased characters -/

/-- A table is looked up in its rows one by one. -/
theorem within_toList (ranges : Array (ℕ × ℕ)) (point : ℕ) :
    within ranges point = ranges.toList.any fun range => range.1 ≤ point && point ≤ range.2 :=
  Array.any_toList.symm

/-- A character is passed over if it is ignorable for casing, and decides otherwise. -/
theorem nextIsCased_cons (character : Char) (rest : List Char) :
    nextIsCased (character :: rest) =
      if within ignorableRanges character.toNat then nextIsCased rest
      else within casedRanges character.toNat := by
  cases ignored : within ignorableRanges character.toNat with
  | true => simp only [nextIsCased, List.dropWhile_cons, ignored, if_true]
  | false => simp only [nextIsCased, List.dropWhile_cons, ignored, Bool.false_eq_true, if_false]

/-! ## Capital sigmas that end a word -/

/-- For every character of a text whose characters are put into lower case one by one, whether it comes
from a capital sigma that ends a word, given the characters already passed, nearest first. -/
def finalMarks : List Char → List Char → List Bool
  | _, [] => []
  | passed, character :: rest =>
    let marks :=
      if character == 'Σ' then [nextIsCased passed && !nextIsCased rest]
      else (lowercaseCharacter character).map fun _ => false
    marks ++ finalMarks (character :: passed) rest

/-- The places in a text whose characters are put into lower case one by one that come from a capital
sigma that ends a word. -/
def finalSigmas (text : String) : Set ℕ := {place | (finalMarks [] text.toList)[place]? = some true}

/-- The small letter at a place that is marked or not. -/
def markedLetter (character : Char) (mark : Bool) : Char := if mark then 'ς' else character

/-- Only the inner small sigma is marked. -/
def Marked (character : Char) (mark : Bool) : Prop := mark = true → character = 'σ'

/-- On its own the capital sigma becomes the inner small sigma. -/
theorem lowercaseCharacter_sigma : lowercaseCharacter 'Σ' = ['σ'] := by
  decide +kernel

/-- A capital sigma has a mark of its own. -/
theorem finalMarks_sigma (passed rest : List Char) :
    finalMarks passed ('Σ' :: rest) =
      (nextIsCased passed && !nextIsCased rest) :: finalMarks ('Σ' :: passed) rest := by
  simp [finalMarks]

/-- What comes from any other character is not marked. -/
theorem finalMarks_other {character : Char} (other : character ≠ 'Σ') (passed rest : List Char) :
    finalMarks passed (character :: rest) =
      (lowercaseCharacter character).map (fun _ => false) ++
        finalMarks (character :: passed) rest := by
  simp [finalMarks, other]

/-- The marks belong to the characters one by one. -/
theorem marked_finalMarks (passed text : List Char) :
    List.Forall₂ Marked (text.flatMap lowercaseCharacter) (finalMarks passed text) := by
  induction text generalizing passed with
  | nil => exact .nil
  | cons character rest inductionHypothesis =>
    rw [List.flatMap_cons]
    by_cases sigma : character = 'Σ'
    · subst sigma
      rw [finalMarks_sigma, lowercaseCharacter_sigma]
      exact .cons (fun _ => rfl) (inductionHypothesis _)
    · rw [finalMarks_other sigma]
      refine List.rel_append ?_ (inductionHypothesis _)
      rw [List.forall₂_map_right_iff, List.forall₂_same]
      exact fun _ _ unmarked => absurd unmarked Bool.false_ne_true

/-- Without a capital sigma nothing is marked. -/
theorem notMem_finalMarks {text : List Char} (absent : 'Σ' ∉ text) (passed : List Char) :
    true ∉ finalMarks passed text := by
  induction text generalizing passed with
  | nil => exact List.not_mem_nil
  | cons character rest inductionHypothesis =>
    rw [List.mem_cons, not_or] at absent
    obtain ⟨different, others⟩ := absent
    rw [finalMarks_other (Ne.symm different), List.mem_append, not_or]
    exact ⟨by simp, inductionHypothesis others _⟩

/-- Without marks a text stays as it is. -/
theorem zipWith_unmarked (text : List Char) :
    List.zipWith markedLetter text (text.map fun _ => false) = text := by
  induction text with
  | nil => rfl
  | cons character rest inductionHypothesis =>
    rw [List.map_cons, List.zipWith_cons_cons, inductionHypothesis]
    rfl

/-- A whole text in lower case has the final sigma at the marked places, and at all others the
characters that are put into lower case one by one. -/
theorem lowercaseAfter_eq (passed text : List Char) :
    lowercaseAfter passed text =
      List.zipWith markedLetter (text.flatMap lowercaseCharacter) (finalMarks passed text) := by
  induction text generalizing passed with
  | nil => rfl
  | cons character rest inductionHypothesis =>
    rw [lowercaseAfter, List.flatMap_cons]
    by_cases sigma : character = 'Σ'
    · subst sigma
      simp [finalMarks_sigma, lowercaseCharacter_sigma, markedLetter, inductionHypothesis]
    · rw [finalMarks_other sigma, List.zipWith_append (by simp), zipWith_unmarked]
      simp [sigma, inductionHypothesis]

/-- Where small letters with marks look the same, the letters are the same exactly if the marks are. -/
theorem markedLetter_inj {first second : Char} {mark other : Bool} (left : Marked first mark)
    (right : Marked second other) (same : markedLetter first mark = markedLetter second other) :
    first = second ↔ mark = other := by
  cases mark with
  | false =>
    cases other with
    | false => exact iff_of_true same rfl
    | true =>
      obtain rfl := right rfl
      obtain rfl : first = 'ς' := same
      decide
  | true =>
    cases other with
    | false =>
      obtain rfl := left rfl
      obtain rfl : 'ς' = second := same
      decide
    | true => exact iff_of_true ((left rfl).trans (right rfl).symm) rfl

/-- Where texts with marks look the same, the texts are the same exactly if the marks are. -/
theorem zipWith_marked_inj {first second : List Char} {marks others : List Bool}
    (left : List.Forall₂ Marked first marks) (right : List.Forall₂ Marked second others)
    (same : List.zipWith markedLetter first marks = List.zipWith markedLetter second others) :
    first = second ↔ marks = others := by
  induction left generalizing second others with
  | nil =>
    cases right with
    | nil => simp
    | cons => simp at same
  | cons letter _ inductionHypothesis =>
    cases right with
    | nil => simp at same
    | cons other rest =>
      rw [List.zipWith_cons_cons, List.zipWith_cons_cons, List.cons.injEq] at same
      rw [List.cons.injEq, List.cons.injEq, markedLetter_inj letter other same.1,
        inductionHypothesis rest same.2]

/-! ## Texts in lower case -/

/-- The marks of a whole text. -/
theorem marked_text (text : String) :
    List.Forall₂ Marked (foldedCharacters text) (finalMarks [] text.toList) :=
  marked_finalMarks [] text.toList

/-- The characters of a whole text in lower case. -/
theorem toList_lowercase (text : String) :
    (lowercase text).toList =
      List.zipWith markedLetter (foldedCharacters text) (finalMarks [] text.toList) := by
  rw [lowercase, String.toList_ofList, lowercaseAfter_eq]
  rfl

/-- In a text without capital sigmas none ends a word. -/
theorem finalSigmas_eq_empty {text : String} (absent : 'Σ' ∉ text.toList) :
    finalSigmas text = ∅ := by
  rw [finalSigmas, Set.eq_empty_iff_forall_notMem]
  intro place marked
  exact notMem_finalMarks absent [] (List.mem_of_getElem? marked)

/-- Of two texts with equally many small letters the same ones are marked if the marks are the same. -/
theorem finalSigmas_eq_iff {left right : String}
    (even : (foldedCharacters left).length = (foldedCharacters right).length) :
    finalSigmas left = finalSigmas right ↔
      finalMarks [] left.toList = finalMarks [] right.toList := by
  rw [(marked_text left).length_eq, (marked_text right).length_eq] at even
  constructor
  · intro same
    refine List.ext_getElem even fun place inside insideToo => ?_
    have here : (finalMarks [] left.toList)[place]? = some true ↔
        (finalMarks [] right.toList)[place]? = some true := Set.ext_iff.mp same place
    rw [List.getElem?_eq_getElem inside, List.getElem?_eq_getElem insideToo, Option.some.injEq,
      Option.some.injEq] at here
    exact Bool.eq_iff_iff.mpr here
  · intro same
    rw [finalSigmas, finalSigmas, same]

/-- Two texts that are the same in lower case have equally many small letters. -/
theorem length_eq_of_lowercase {left right : String} (same : lowercase left = lowercase right) :
    (foldedCharacters left).length = (foldedCharacters right).length := by
  have lengths := congrArg (fun text => text.toList.length) same
  simpa [toList_lowercase, ← (marked_text _).length_eq] using lengths

/-- Two texts that are the same in lower case are so character by character exactly if the capital
sigmas that end a word stand at the same places. -/
theorem folded_eq_iff_of_lowercase {left right : String}
    (same : lowercase left = lowercase right) :
    foldedCharacters left = foldedCharacters right ↔ finalSigmas left = finalSigmas right := by
  rw [finalSigmas_eq_iff (length_eq_of_lowercase same)]
  refine zipWith_marked_inj (marked_text left) (marked_text right) ?_
  rw [← toList_lowercase, ← toList_lowercase, same]

/-- Two texts that are the same in lower case character by character are so as a whole exactly if the
capital sigmas that end a word stand at the same places. -/
theorem lowercase_eq_iff_of_folded {left right : String}
    (same : foldedCharacters left = foldedCharacters right) :
    lowercase left = lowercase right ↔ finalSigmas left = finalSigmas right := by
  constructor
  · intro whole
    exact (folded_eq_iff_of_lowercase whole).mp same
  · intro places
    rw [finalSigmas_eq_iff (by rw [same])] at places
    rw [← String.toList_inj, toList_lowercase, toList_lowercase, same, places]

end Text

namespace Symbol

open Text

variable {left right : Symbol}

/-! ## Names and texts -/

/-- Where capital letters count, a name is spelled like the texts of the names that are the same. -/
theorem matchesText_sensitive (left right : Symbol) :
    left.matchesText right.name true = left.sameAs right true := by
  rw [Bool.eq_iff_iff, sameAs_iff, matchesText, if_pos rfl, beq_iff_eq]
  exact String.toList_inj.symm

/-- Where capital letters do not count, a name is spelled like the texts that are the same in lower
case. -/
theorem matchesText_iff :
    left.matchesText right.name false = true ↔ lowercase left.name = lowercase right.name := by
  rw [matchesText, if_neg Bool.false_ne_true, beq_iff_eq]

/-- Where capital letters do not count, names are the same if their characters are in lower case. -/
theorem sameAs_iff_folded :
    left.sameAs right false = true ↔ foldedCharacters left.name = foldedCharacters right.name := by
  rw [sameAs_iff, key, key, if_neg Bool.false_ne_true, if_neg Bool.false_ne_true]

/-- Where capital letters do not count, a name is spelled like the text of a name that is the same, and
not like that of another one, exactly if the capital sigmas that end a word stand at the same places or
the names are different both ways. -/
theorem matchesText_insensitive (left right : Symbol) :
    left.matchesText right.name false = left.sameAs right false ↔
      finalSigmas left.name = finalSigmas right.name ∨
        left.matchesText right.name false = false ∧ left.sameAs right false = false := by
  rw [← Bool.not_eq_true, ← Bool.not_eq_true, Bool.eq_iff_iff, matchesText_iff, sameAs_iff_folded]
  by_cases whole : lowercase left.name = lowercase right.name
  · rw [← folded_eq_iff_of_lowercase whole]
    simp [whole]
  · by_cases folded : foldedCharacters left.name = foldedCharacters right.name
    · rw [← lowercase_eq_iff_of_folded folded]
      simp [whole, folded]
    · simp [whole, folded]

/-- The two comparisons of names. A name is spelled like the text of another name exactly if the two
names are the same: where capital letters count always, and where they do not count unless capital
sigmas that end a word stand at different places and one of the comparisons holds nevertheless. To be
the same is an equivalence; the order of names is a total one, it takes exactly the names that are the
same for equal, and it does not tell them apart. -/
theorem comparisons_coincide (caseSensitive : Bool) :
    (∀ left right : Symbol,
      left.matchesText right.name caseSensitive = left.sameAs right caseSensitive ↔
        caseSensitive = true ∨ finalSigmas left.name = finalSigmas right.name ∨
          left.matchesText right.name caseSensitive = false ∧
            left.sameAs right caseSensitive = false) ∧
      (Equivalence fun left right : Symbol => left.sameAs right caseSensitive = true) ∧
      (Std.TransCmp fun left right : Symbol => left.compare right caseSensitive) ∧
      (∀ left right : Symbol,
        left.sameAs right caseSensitive = true ↔ left.compare right caseSensitive = .eq) ∧
      ∀ left right other : Symbol, left.sameAs right caseSensitive = true →
        left.compare other caseSensitive = right.compare other caseSensitive ∧
          other.compare left caseSensitive = other.compare right caseSensitive := by
  refine ⟨fun left right => ?_, sameAs_equivalence caseSensitive, inferInstance,
    fun _ _ => sameAs_iff_compare, fun _ _ other same => compare_congr same other⟩
  cases caseSensitive with
  | true => simp [matchesText_sensitive]
  | false => simpa using matchesText_insensitive left right

/-- A letter is cased in both of its forms. -/
theorem nextIsCased_x : nextIsCased ['X'] = true ∧ nextIsCased ['x'] = true := by
  simp only [nextIsCased_cons, within_toList]
  decide +kernel

/-- A capital and a small letter with a sigma are the same name. -/
theorem sameAs_sigma : (Symbol.mk "XΣ").sameAs ⟨"xσ"⟩ false = true := by
  decide +kernel

/-- A capital sigma behind a cased letter, at the end of the text. -/
theorem finalMarks_pair {letter : Char} (other : letter ≠ 'Σ') (cased : nextIsCased [letter] = true) :
    finalMarks [] [letter, 'Σ'] = (lowercaseCharacter letter).map (fun _ => false) ++ [true] := by
  rw [finalMarks_other other, finalMarks_sigma, cased]
  rfl

/-- A capital sigma ends both spellings of a name, which are the same either way. A third spelling with an
inner small sigma is the same name and has the same place in the order. -/
theorem comparisons_coincide_sigma :
    let capital : Symbol := ⟨"XΣ"⟩
    let mixed : Symbol := ⟨"xΣ"⟩
    let small : Symbol := ⟨"xσ"⟩
    let other : Symbol := ⟨"Y"⟩
    finalSigmas capital.name = finalSigmas mixed.name ∧
      capital.matchesText mixed.name false = capital.sameAs mixed false ∧
      capital.sameAs small false = true ∧ capital.compare other false = small.compare other false := by
  intro capital mixed small other
  obtain ⟨alike, -, -, -, ordered⟩ := comparisons_coincide false
  have letters : capital.name.toList = ['X', 'Σ'] ∧ mixed.name.toList = ['x', 'Σ'] := by decide
  have places : finalSigmas capital.name = finalSigmas mixed.name := by
    rw [finalSigmas, finalSigmas, letters.1, letters.2,
      finalMarks_pair (by decide) nextIsCased_x.1, finalMarks_pair (by decide) nextIsCased_x.2]
    rfl
  exact ⟨places, (alike capital mixed).mpr (.inr (.inl places)), sameAs_sigma,
    (ordered capital small other sameAs_sigma).1⟩

/-- A capital sigma that ends a word is an inner small sigma on its own and a final one in the text, so that
a name is not spelled like the text of a name that is the same. -/
theorem comparisons_differ :
    (Symbol.mk "XΣ").sameAs ⟨"xσ"⟩ false = true ∧
      (Symbol.mk "XΣ").matchesText "xσ" false = false := by
  refine ⟨sameAs_sigma, ?_⟩
  have letters : "XΣ".toList = ['X', 'Σ'] := by decide
  have last : 1 ∈ finalSigmas "XΣ" := by
    rw [finalSigmas, letters, finalMarks_pair (by decide) nextIsCased_x.1]
    rfl
  have none : finalSigmas "xσ" = ∅ := finalSigmas_eq_empty (by decide)
  rw [← Bool.not_eq_true, matchesText_iff,
    lowercase_eq_iff_of_folded (sameAs_iff_folded.mp sameAs_sigma), none]
  exact (Set.nonempty_of_mem last).ne_empty

end Symbol

end Calculator
