import Calculator.Proofs.Outcome
import Calculator.Proofs.Source.Likeness
import Mathlib

/-!
# Repetitions end

What may be repeated in a line, be it values, operators, items or bindings, is read in so many
steps as there are tokens left. Every step passes over a token at least, and nothing that is read
goes back behind its beginning. So the tokens are used up before the steps are, and what is read
would not be different if there were more of them.
-/

namespace Calculator.Source

variable {Item Result : Type} {line : Line} {cursor : Cursor}

/-! ## Tokens that are left -/

/-- A line of which so many tokens are left at most, compared with itself. -/
def remaining (line : Line) (count : ℕ) : Likeness Outcome Outcome :=
  .placeless line.settings line.size line.size
    (fun cursor image => cursor = image ∧ cursor.rest.length ≤ count)
    (by
      rintro cursor _ ⟨rfl, -⟩
      exact List.forall₂_same.mpr fun _ _ => rfl)
    (by
      rintro _ _ _ _ _ _ ⟨⟨⟩, left⟩
      exact ⟨rfl, (Nat.le_succ _).trans left⟩)
    (by
      rintro _ _ _ _ _ _ ⟨⟨⟩, -⟩
      exact Iff.rfl)

/-- Whether a reading leaves no more tokens than there were. -/
def Onward (line : Line) (reading : Reading Result) : Prop :=
  ∀ ⦃cursor result after⦄, reading line cursor = .ok (result, after) →
    after.rest.length ≤ cursor.rest.length

/-- A reading that is like itself, however many tokens are left, leaves no more of them. -/
theorem onward_of_readings {reading : Reading Result}
    (alike : ∀ count, (remaining line count).Readings Eq reading reading) :
    Onward line reading := by
  intro cursor result after read
  have same := alike cursor.rest.length cursor cursor ⟨rfl, le_rfl⟩
  change Outcome.Alike _ _ (reading line cursor) (reading line cursor) at same
  rw [read] at same
  cases same with
  | ok found => exact found.2.2

/-- Readings in a row from the same cursor are the same if what follows is the same from where the
first one ends. -/
theorem bind_congr_at {reading other : Reading Item} {next otherNext : Item → Reading Result}
    (first : reading line cursor = other line cursor)
    (others : ∀ item after, reading line cursor = .ok (item, after) →
      next item line after = otherNext item line after) :
    (reading >>= next) line cursor = (other >>= otherNext) line cursor := by
  change (reading line cursor >>= fun found => next found.1 line found.2) =
    (other line cursor >>= fun found => otherNext found.1 line found.2)
  rw [← first]
  cases read : reading line cursor with
  | error fault => rfl
  | ok found => exact others _ _ read

/-- What follows a look at the next token goes on from the same cursor. -/
theorem peek_bind (next : Option Token → Reading Result) :
    (peek >>= next) line cursor = next (cursor.rest.head?.map Token.Spanned.token) line cursor :=
  rfl

/-- What follows a token that is passed over goes on behind it. -/
theorem discard_advance_bind (next : Unit → Reading Result) (passed : Option ℕ)
    (first : Token.Spanned) (rest : List Token.Spanned) :
    (discard advance >>= next) line ⟨passed, first :: rest⟩ =
      next () line ⟨some first.span.stop, rest⟩ :=
  rfl

/-! ## Repetitions -/

/-- Whether what is read one level deeper passes over tokens only forwards. -/
def DeeperOnward (line : Line) (deeper : Deeper) : Prop :=
  ∀ count, (remaining line count).Deeper deeper deeper

/-- Whatever may be repeated in a line, its repetition has ended before the steps have: with more of
them, the same is read. -/
structure LoopsEnd (line : Line) (deeper : Deeper) : Prop where
  values {cursor : Cursor} {steps : ℕ} (enough : cursor.rest.length ≤ steps) :
    objectsWithin deeper steps line cursor =
      objectsWithin deeper cursor.rest.length line cursor
  operators (minimum : Precedence) {cursor : Cursor} {steps : ℕ}
    (enough : cursor.rest.length ≤ steps) :
    climbWithin deeper minimum steps line cursor =
      climbWithin deeper minimum cursor.rest.length line cursor
  items (kind : SequenceKind) (opening : Span) {cursor : Cursor} {steps : ℕ}
    (enough : cursor.rest.length < steps) :
    itemsWithin deeper kind opening steps line cursor =
      itemsWithin deeper kind opening (cursor.rest.length + 1) line cursor
  bindings (opening : Span) {cursor : Cursor} {steps : ℕ} (enough : cursor.rest.length < steps) :
    bindingsWithin deeper opening steps line cursor =
      bindingsWithin deeper opening (cursor.rest.length + 1) line cursor

section Constructs

variable {deeper : Deeper} (onward : DeeperOnward line deeper) {steps otherSteps : ℕ}

include onward

/-- What is read one level deeper leaves no more tokens than there were. -/
theorem onward_algebraic (minimum : Precedence) : Onward line (deeper.algebraic minimum) :=
  onward_of_readings fun count => (onward count).algebraic minimum

/-- The next value leaves fewer tokens, if there were any. Without any there is none. -/
theorem object?_shorter {value : Option Value} {after : Cursor}
    (read : object? deeper line cursor = .ok (value, after)) :
    after.rest.length < cursor.rest.length ∨ value = none ∧ cursor.rest = [] := by
  have left : cursor.skipSeparators.rest.length ≤ cursor.rest.length := by
    rw [skipSeparators_rest]
    exact (List.dropWhile_suffix _).length_le
  rw [object?_eq] at read
  cases row : cursor.skipSeparators.rest with
  | nil =>
    -- Only separators were left, or nothing at all.
    rw [row] at read
    obtain ⟨rfl, rfl⟩ := Prod.mk.inj (Except.ok.inj read)
    rw [row]
    rcases cursor.rest.eq_nil_or_concat with none | ⟨_, _, some⟩
    · exact .inr ⟨rfl, none⟩
    · exact .inl (by simp [some])
  | cons next rest =>
    rw [row] at read left
    obtain ⟨⟨found, behind⟩, inside, same⟩ := Outcome.bind_eq_ok.mp read
    obtain ⟨-, rfl⟩ := Prod.mk.inj (Except.ok.inj same)
    have fewer : behind.rest.length ≤ rest.length := by
      refine onward_of_readings (fun count => ?_) inside
      exact Likeness.readings_objectFrom (onward count) next.token trivial
    exact .inl (fewer.trans_lt left)

/-- Operators are read in as many steps as there are tokens left. -/
theorem climbWithin_eq (minimum : Precedence) (enough : cursor.rest.length ≤ steps)
    (enoughToo : cursor.rest.length ≤ otherSteps) :
    climbWithin deeper minimum steps line cursor =
      climbWithin deeper minimum otherSteps line cursor := by
  have ended (steps : ℕ) (passed : Option ℕ) :
      climbWithin deeper minimum steps line ⟨passed, []⟩ = .ok ([], ⟨passed, []⟩) := by
    cases steps <;> rfl
  induction steps generalizing cursor otherSteps with
  | zero =>
    obtain ⟨passed, rest⟩ := cursor
    obtain rfl := List.length_eq_zero_iff.mp (Nat.le_zero.mp enough)
    rw [ended, ended]
  | succ steps inductionHypothesis =>
    obtain ⟨passed, _ | ⟨first, rest⟩⟩ := cursor
    · rw [ended, ended]
    · obtain ⟨otherSteps, rfl⟩ := Nat.exists_eq_add_one.mpr (Nat.zero_lt_of_lt enoughToo)
      rw [climbWithin, climbWithin]
      refine bind_congr_at rfl fun next after looked => ?_
      obtain rfl : _ = after := (Prod.mk.inj (Except.ok.inj looked)).2
      -- The operator itself has been passed over, whatever is read for what it stands in front of.
      have further {row : Reading (List Value)} (ends : Onward line row) :
          (row >>= fun items => climbWithin deeper minimum steps >>= fun others =>
            pure (items ++ others)) line ⟨some first.span.stop, rest⟩ =
          (row >>= fun items => climbWithin deeper minimum otherSteps >>= fun others =>
            pure (items ++ others)) line ⟨some first.span.stop, rest⟩ := by
        refine bind_congr_at rfl fun items after read => bind_congr_at ?_ fun _ _ _ => rfl
        have fewer : after.rest.length ≤ rest.length := ends read
        rw [List.length_cons] at enough enoughToo
        exact inductionHypothesis (by omega) (by omega)
      split
      · rfl
      · split
        · rfl
        · rw [discard_advance_bind, discard_advance_bind]
          split
          · exact further (onward_of_readings fun count =>
              Likeness.readings_bindings (onward count))
          · exact further (onward_of_readings fun count => ((onward count).algebraic _).map _)

/-- Items are read in more steps than there are tokens left, because the closing mark is sought
behind the last one. -/
theorem itemsWithin_eq (kind : SequenceKind) (opening : Span) (enough : cursor.rest.length < steps)
    (enoughToo : cursor.rest.length < otherSteps) :
    itemsWithin deeper kind opening steps line cursor =
      itemsWithin deeper kind opening otherSteps line cursor := by
  induction steps generalizing cursor otherSteps with
  | zero => exact absurd enough (Nat.not_lt_zero _)
  | succ steps inductionHypothesis =>
    obtain ⟨otherSteps, rfl⟩ := Nat.exists_eq_add_one.mpr (Nat.zero_lt_of_lt enoughToo)
    rw [itemsWithin, itemsWithin]
    obtain ⟨passed, _ | ⟨first, rest⟩⟩ := cursor
    · rfl
    · rw [peek_bind, peek_bind, List.head?_cons, Option.map_some]
      rw [List.length_cons] at enough enoughToo
      dsimp only
      split
      · rfl
      · split
        · rw [discard_advance_bind, discard_advance_bind]
          exact inductionHypothesis (Nat.lt_of_succ_lt_succ enough)
            (Nat.lt_of_succ_lt_succ enoughToo)
        · refine bind_congr_at rfl fun item after read => bind_congr_at ?_ fun _ _ _ => rfl
          have fewer : after.rest.length < rest.length + 1 :=
            (object?_shorter onward read).resolve_right (by simp)
          exact inductionHypothesis (by omega) (by omega)

/-- Bindings are read in more steps than there are tokens left, because a binding is sought behind
the last separator. -/
theorem bindingsWithin_eq (opening : Span) (enough : cursor.rest.length < steps)
    (enoughToo : cursor.rest.length < otherSteps) :
    bindingsWithin deeper opening steps line cursor =
      bindingsWithin deeper opening otherSteps line cursor := by
  induction steps generalizing cursor otherSteps with
  | zero => exact absurd enough (Nat.not_lt_zero _)
  | succ steps inductionHypothesis =>
    obtain ⟨otherSteps, rfl⟩ := Nat.exists_eq_add_one.mpr (Nat.zero_lt_of_lt enoughToo)
    rw [bindingsWithin, bindingsWithin]
    refine bind_congr_at rfl fun binding after read => ?_
    have fewer : after.rest.length ≤ cursor.rest.length := onward_algebraic onward _ read
    obtain ⟨passed, _ | ⟨first, rest⟩⟩ := after
    · rfl
    · rw [List.length_cons] at fewer
      have enoughBehind : rest.length < steps := by omega
      have enoughBehindToo : rest.length < otherSteps := by omega
      have further : bindingsWithin deeper opening steps line ⟨some first.span.stop, rest⟩ =
          bindingsWithin deeper opening otherSteps line ⟨some first.span.stop, rest⟩ :=
        inductionHypothesis enoughBehind enoughBehindToo
      rw [peek_bind, peek_bind]
      generalize Option.map Token.Spanned.token _ = next
      split
      · rw [discard_advance_bind, discard_advance_bind]
        exact bind_congr_at further fun _ _ _ => rfl
      · rw [discard_advance_bind, discard_advance_bind]
        exact bind_congr_at further fun _ _ _ => rfl
      · rfl

/-- Values are read in as many steps as there are tokens left. -/
theorem objectsWithin_eq (enough : cursor.rest.length ≤ steps)
    (enoughToo : cursor.rest.length ≤ otherSteps) :
    objectsWithin deeper steps line cursor = objectsWithin deeper otherSteps line cursor := by
  have ended (steps : ℕ) (passed : Option ℕ) :
      objectsWithin deeper steps line ⟨passed, []⟩ = .ok ([], ⟨passed, []⟩) := by
    cases steps <;> rfl
  induction steps generalizing cursor otherSteps with
  | zero =>
    obtain ⟨passed, rest⟩ := cursor
    obtain rfl := List.length_eq_zero_iff.mp (Nat.le_zero.mp enough)
    rw [ended, ended]
  | succ steps inductionHypothesis =>
    obtain ⟨passed, _ | ⟨first, rest⟩⟩ := cursor
    · rw [ended, ended]
    · obtain ⟨otherSteps, rfl⟩ := Nat.exists_eq_add_one.mpr (Nat.zero_lt_of_lt enoughToo)
      rw [objectsWithin, objectsWithin]
      refine bind_congr_at rfl fun item after read => ?_
      rw [List.length_cons] at enough enoughToo
      have fewer : after.rest.length < rest.length + 1 :=
        (object?_shorter onward read).resolve_right (by simp)
      split
      · rfl
      · exact bind_congr_at (inductionHypothesis (by omega) (by omega)) fun _ _ _ => rfl

/-- Where what is read one level deeper passes over tokens only forwards, repetitions end. -/
theorem loopsEnd_of_onward : LoopsEnd line deeper where
  values enough := objectsWithin_eq onward enough le_rfl
  operators minimum _ _ enough := climbWithin_eq onward minimum enough le_rfl
  items kind opening _ _ enough := itemsWithin_eq onward kind opening enough (Nat.lt_succ_self _)
  bindings opening _ _ enough := bindingsWithin_eq onward opening enough (Nat.lt_succ_self _)

end Constructs

/-- On every level, repetitions end. -/
theorem loopsEnd_atMost (line : Line) (levels : ℕ) : LoopsEnd line (atMost levels) :=
  loopsEnd_of_onward fun count => (remaining line count).deeper_atMost levels

end Calculator.Source
