import Calculator.Fault
import Calculator.Number.Power
import Mathlib

/-!
# Computations with an outcome

A computation that has a result has one at each of its steps. The lemmas here take such a
computation apart: two steps in a row, a step for every entry of a row, and the squarings and
products of which a power is made.
-/

namespace Calculator

namespace Outcome

variable {α β : Type}

/-- What succeeds is followed by the next step. -/
theorem ok_bind (item : α) (next : α → Outcome β) :
    ((.ok item : Outcome α) >>= next) = next item := rfl

/-- Two steps have a result if the first one has and the second one has with that. -/
theorem bind_eq_ok {first : Outcome α} {next : α → Outcome β} {result : β} :
    first >>= next = .ok result ↔ ∃ middle, first = .ok middle ∧ next middle = .ok result := by
  cases first with
  | error fault =>
    constructor
    · rintro ⟨⟩
    · rintro ⟨_, ⟨⟩, _⟩
  | ok middle =>
    constructor
    · intro done
      exact ⟨middle, rfl, done⟩
    · rintro ⟨_, ⟨⟩, done⟩
      exact done

/-- Two steps have a fault if the first one has it, or the second one behind what the first one
made. -/
theorem bind_eq_error {first : Outcome α} {next : α → Outcome β} {fault : Fault} :
    first >>= next = .error fault ↔
      first = .error fault ∨ ∃ middle, first = .ok middle ∧ next middle = .error fault := by
  cases first with
  | error other =>
    constructor
    · rintro ⟨⟩
      exact .inl rfl
    · rintro (⟨⟨⟩⟩ | ⟨_, ⟨⟩, _⟩)
      rfl
  | ok middle =>
    constructor
    · intro failed
      exact .inr ⟨middle, rfl, failed⟩
    · rintro (⟨⟨⟩⟩ | ⟨_, ⟨⟩, failed⟩)
      exact failed

/-- Two computations that fail only in one way are the same if they have the same results. -/
theorem eq_of_results {first second : Outcome α} (fault : Fault)
    (fails : ∀ other, first = .error other → other = fault)
    (failsOther : ∀ other, second = .error other → other = fault)
    (same : ∀ result, first = .ok result ↔ second = .ok result) : first = second := by
  cases first with
  | ok result => exact ((same result).mp rfl).symm
  | error other =>
    cases second with
    | ok result => exact (same result).mpr rfl
    | error another => rw [fails other rfl, failsOther another rfl]

/-- A result that is put in another form is a result. -/
theorem map_eq_ok {outcome : Outcome α} {form : α → β} {result : β} :
    outcome.map form = .ok result ↔ ∃ plain, outcome = .ok plain ∧ form plain = result := by
  cases outcome with
  | error fault =>
    constructor
    · rintro ⟨⟩
    · rintro ⟨_, ⟨⟩, _⟩
  | ok plain =>
    constructor
    · intro done
      exact ⟨plain, rfl, Except.ok.inj done⟩
    · rintro ⟨_, ⟨⟩, rfl⟩
      rfl

/-- What is left when faults are forgotten is the result. -/
theorem toOption_eq_some {outcome : Outcome α} {result : α} :
    outcome.toOption = some result ↔ outcome = .ok result := by
  cases outcome with
  | error fault =>
    constructor
    · rintro ⟨⟩
    · rintro ⟨⟩
  | ok plain =>
    constructor
    · rintro ⟨⟩
      rfl
    · rintro ⟨⟩
      rfl

/-- A step for every entry of a row has a result for every entry. -/
theorem forall₂_of_mapM {step : α → Outcome β} {entries : List α} {results : List β}
    (done : entries.mapM step = .ok results) :
    List.Forall₂ (fun entry result => step entry = .ok result) entries results := by
  induction entries generalizing results with
  | nil =>
    obtain rfl : [] = results := Except.ok.inj done
    exact .nil
  | cons entry entries inductionHypothesis =>
    rw [List.mapM_cons] at done
    obtain ⟨first, stepped, rest⟩ := bind_eq_ok.mp done
    obtain ⟨others, mapped, same⟩ := bind_eq_ok.mp rest
    obtain rfl : first :: others = results := Except.ok.inj same
    exact .cons stepped (inductionHypothesis mapped)

/-- Steps with results make for the row of the results. -/
theorem mapM_of_forall₂ {step : α → Outcome β} {entries : List α} {results : List β}
    (steps : List.Forall₂ (fun entry result => step entry = .ok result) entries results) :
    entries.mapM step = .ok results := by
  induction steps with
  | nil => rfl
  | cons first _ inductionHypothesis =>
    rw [List.mapM_cons, first, ok_bind, inductionHypothesis]
    rfl

/-- Steps that come to the same for two rows, entry by entry, come to the same for the rows. -/
theorem mapM_eq_mapM {γ : Type} {step : α → Outcome γ} {other : β → Outcome γ} {entries : List α}
    {others : List β}
    (same : List.Forall₂ (fun entry another => step entry = other another) entries others) :
    entries.mapM step = others.mapM other := by
  induction same with
  | nil => rfl
  | cons first _ inductionHypothesis =>
    rw [List.mapM_cons, List.mapM_cons, first, inductionHypothesis]

/-- Every result of a step for every entry of a row comes of some entry. -/
theorem exists_of_mem_mapM {step : α → Outcome β} {entries : List α} {results : List β}
    (done : entries.mapM step = .ok results) {result : β} (among : result ∈ results) :
    ∃ entry ∈ entries, step entry = .ok result := by
  obtain ⟨place, inside, rfl⟩ := List.mem_iff_getElem.mp among
  obtain ⟨length, stepped⟩ := List.forall₂_iff_get.mp (forall₂_of_mapM done)
  have insideEntries : place < entries.length := length ▸ inside
  exact ⟨_, List.getElem_mem insideEntries, stepped place insideEntries inside⟩

/-- If a step for every entry of a row fails, then the step for some entry does. -/
theorem exists_of_mapM_eq_error {step : α → Outcome β} {entries : List α} {fault : Fault}
    (failed : entries.mapM step = .error fault) : ∃ entry ∈ entries, step entry = .error fault := by
  induction entries with
  | nil => cases failed
  | cons entry entries inductionHypothesis =>
    rw [List.mapM_cons] at failed
    rcases bind_eq_error.mp failed with here | ⟨_, -, rest⟩
    · exact ⟨entry, List.mem_cons_self, here⟩
    · rcases bind_eq_error.mp rest with later | ⟨_, -, ⟨⟩⟩
      obtain ⟨other, among, found⟩ := inductionHypothesis later
      exact ⟨other, List.mem_cons_of_mem entry among, found⟩

/-- Whatever is said of results holds of a fault, which has none. -/
theorem satisfiesM_error {Holds : α → Prop} (fault : Fault) :
    SatisfiesM Holds (.error fault : Outcome α) := ⟨.error fault, rfl⟩

end Outcome

section Power

variable {α : Type} {multiply : α → α → Outcome α}

/-- A power takes one binary digit off its exponent, if there is one. -/
theorem raiseOnto_eq (multiply : α → α → Outcome α) (result base : α) (exponent : ℕ) :
    raiseOnto multiply result base exponent =
      if exponent = 0 then .ok result
      else (if exponent % 2 = 1 then multiply result base else .ok result) >>= fun next =>
        if exponent / 2 = 0 then .ok next
        else multiply base base >>= fun square => raiseOnto multiply next square (exponent / 2) := by
  rw [raiseOnto]
  split_ifs <;> rfl

/-- What holds of a result and of a base, counting the factors that went into each, holds of the
power of the base that is multiplied onto the result, if products and squares keep it. -/
theorem raiseOnto_induction (motive baseMotive : ℕ → α → Prop)
    (product : ∀ {i j x y z},
      motive i x → baseMotive j y → multiply x y = .ok z → motive (i + j) z)
    (square : ∀ {j x z}, baseMotive j x → multiply x x = .ok z → baseMotive (j + j) z)
    {i j : ℕ} {result base power : α} {exponent : ℕ} (held : motive i result)
    (heldBase : baseMotive j base) (done : raiseOnto multiply result base exponent = .ok power) :
    motive (i + j * exponent) power := by
  induction exponent using Nat.strong_induction_on generalizing i j result base with
  | _ exponent inductionHypothesis =>
    rw [raiseOnto_eq] at done
    split at done
    · rename_i finished
      obtain rfl : result = power := Except.ok.inj done
      rwa [finished, Nat.mul_zero, Nat.add_zero]
    · rename_i unfinished
      obtain ⟨next, multiplied, rest⟩ := Outcome.bind_eq_ok.mp done
      -- The last binary digit of the exponent is worth one factor of the base, or none.
      have heldNext : motive (i + j * (exponent % 2)) next := by
        split at multiplied
        · rename_i odd
          rw [odd, Nat.mul_one]
          exact product held heldBase multiplied
        · rename_i even
          obtain rfl : result = next := Except.ok.inj multiplied
          have zero : exponent % 2 = 0 := by omega
          rwa [zero, Nat.mul_zero, Nat.add_zero]
      split at rest
      · rename_i last
        obtain rfl : next = power := Except.ok.inj rest
        have single : exponent % 2 = exponent := by omega
        rwa [single] at heldNext
      · obtain ⟨doubled, squared, raised⟩ := Outcome.bind_eq_ok.mp rest
        have smaller : exponent / 2 < exponent := by omega
        have whole := inductionHypothesis _ smaller heldNext (square heldBase squared) raised
        have digits : exponent % 2 + 2 * (exponent / 2) = exponent := Nat.mod_add_div exponent 2
        have halves : i + j * (exponent % 2) + (j + j) * (exponent / 2) = i + j * exponent := by
          nth_rewrite 3 [← digits]
          ring
        rwa [halves] at whole

end Power

end Calculator
