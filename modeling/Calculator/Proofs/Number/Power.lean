import Calculator.Number.Exact
import Calculator.Proofs.Number.Rational
import Calculator.Proofs.Outcome
import Mathlib

/-!
# Repeated squaring

Powers are made by repeated squaring, of magnitudes that may overflow a word as well as of integers
that never do, and of complex numbers. Wherever the squarings and products have results, the power is
made of them, and for integers it is the power.
-/

namespace Calculator

/-! ## Repeated squaring -/

section Squaring

variable {α : Type}

/-- Where products and squares have results of which more is known, a power has such a result. -/
theorem raiseOnto_total (multiply : α → α → Outcome α) (motive baseMotive : ℕ → α → Prop)
    (product : ∀ {i j x y}, motive i x → baseMotive j y →
      ∃ z, multiply x y = .ok z ∧ motive (i + j) z)
    (square : ∀ {j x}, baseMotive j x → ∃ z, multiply x x = .ok z ∧ baseMotive (j + j) z)
    {i j : ℕ} {result base : α} (exponent : ℕ) (held : motive i result)
    (heldBase : baseMotive j base) :
    ∃ power, raiseOnto multiply result base exponent = .ok power ∧
      motive (i + j * exponent) power := by
  have answers : ∃ power, raiseOnto multiply result base exponent = .ok power := by
    induction exponent using Nat.strong_induction_on generalizing i j result base with
    | _ exponent inductionHypothesis =>
      rw [raiseOnto_eq]
      split
      · exact ⟨result, rfl⟩
      · have step : ∃ next i', (if exponent % 2 = 1 then multiply result base else .ok result) =
            .ok next ∧ motive i' next := by
          split
          · obtain ⟨next, multiplied, holds⟩ := product held heldBase
            exact ⟨next, _, multiplied, holds⟩
          · exact ⟨result, i, rfl, held⟩
        obtain ⟨next, i', multiplied, heldNext⟩ := step
        obtain ⟨doubled, squared, heldSquare⟩ := square heldBase
        rw [multiplied]
        show ∃ power, (if exponent / 2 = 0 then .ok next else multiply base base >>= fun square =>
          raiseOnto multiply next square (exponent / 2)) = .ok power
        split
        · exact ⟨next, rfl⟩
        · rw [squared]
          exact inductionHypothesis (exponent / 2) (by omega) heldNext heldSquare
  obtain ⟨power, raised⟩ := answers
  refine ⟨power, raised, raiseOnto_induction motive baseMotive (fun first second multiplied => ?_)
    (fun base multiplied => ?_) held heldBase raised⟩
  · obtain ⟨z, same, holds⟩ := product first second
    obtain rfl := Except.ok.inj (same.symm.trans multiplied)
    exact holds
  · obtain ⟨z, same, holds⟩ := square base
    obtain rfl := Except.ok.inj (same.symm.trans multiplied)
    exact holds

/-- A power may be made in another monad. -/
theorem raiseOnto_map (First Second : Type → Type) [Monad First] [Monad Second]
    (form : ∀ {β : Type}, First β → Second β)
    (pure_form : ∀ {β : Type} (x : β), form (pure x) = pure x)
    (bind_form : ∀ {β γ : Type} (x : First β) (next : β → First γ),
      form (x >>= next) = form x >>= fun y => form (next y))
    (multiply : α → α → First α) (result base : α) (exponent : ℕ) :
    form (raiseOnto multiply result base exponent) =
      raiseOnto (fun x y => form (multiply x y)) result base exponent := by
  induction exponent using Nat.strong_induction_on generalizing result base with
  | _ exponent inductionHypothesis =>
    rw [raiseOnto, raiseOnto]
    split
    · exact pure_form result
    · have last (next : α) : form (if exponent / 2 = 0 then pure next else
          multiply base base >>= fun square => raiseOnto multiply next square (exponent / 2)) =
            if exponent / 2 = 0 then pure next else form (multiply base base) >>= fun square =>
              raiseOnto (fun x y => form (multiply x y)) next square (exponent / 2) := by
        split
        · exact pure_form next
        · rw [bind_form]
          congr 1
          funext square
          exact inductionHypothesis (exponent / 2) (by omega) next square
      dsimp only
      split
      · rw [bind_form]
        exact congrArg _ (funext last)
      · rw [bind_form, pure_form]
        exact congrArg _ (funext last)

end Squaring

/-- An exact power of an integer is the power. -/
theorem exactPower_eq (base : ℤ) (exponent : ℕ) : exactPower base exponent = base ^ exponent := by
  have map := raiseOnto_map Id Outcome (fun x => .ok x.run)
    (fun _ => rfl) (fun _ _ => rfl) (fun left right : ℤ => (left * right : Id ℤ)) 1 base exponent
  obtain ⟨power, raised, value⟩ := raiseOnto_total (fun x y : ℤ => .ok (x * y))
    (fun count z => z = base ^ count) (fun count z => z = base ^ count)
    (fun first second => ⟨_, rfl, by rw [first, second, pow_add]⟩)
    (fun first => ⟨_, rfl, by rw [first, pow_add]⟩)
    (i := 0) (j := 1) exponent (pow_zero base).symm (pow_one base).symm
  rw [Nat.zero_add, Nat.one_mul] at value
  exact (Except.ok.inj (map.trans raised)).trans value

/-! ## Machine integers -/

namespace Word

/-- A product of magnitudes that fits is the product. -/
theorem toNat_multiplyMagnitudes {x y z : UInt64} (fits : multiplyMagnitudes? x y = some z) :
    z.toNat = x.toNat * y.toNat := by
  unfold multiplyMagnitudes? at fits
  split at fits
  · rename_i small
    obtain rfl := Option.some.inj fits
    rw [UInt64.toNat_mul, Nat.mod_eq_of_lt small]
  · cases fits

/-- A power of a magnitude that fits is the power. -/
theorem toNat_raiseOnto {base power : UInt64} {exponent : ℕ}
    (fits : raiseOnto multiplyMagnitudes? 1 base exponent = some power) :
    power.toNat = base.toNat ^ exponent := by
  have map := raiseOnto_map Option Outcome (fun outcome => outcome.elim (.error .outOfMemory) .ok)
    (fun _ => rfl) (fun outcome _ => by cases outcome <;> rfl) multiplyMagnitudes? 1 base exponent
  rw [fits] at map
  have product {x y z : UInt64}
      (done : (multiplyMagnitudes? x y).elim (.error .outOfMemory) .ok = (.ok z : Outcome UInt64)) :
      z.toNat = x.toNat * y.toNat := by
    cases multiplied : multiplyMagnitudes? x y with
    | none =>
      rw [multiplied] at done
      cases done
    | some result =>
      rw [multiplied] at done
      obtain rfl := Except.ok.inj done
      exact toNat_multiplyMagnitudes multiplied
  have value := raiseOnto_induction (fun count z => z.toNat = base.toNat ^ count)
    (fun count z => z.toNat = base.toNat ^ count)
    (fun first second multiplied => by rw [product multiplied, first, second, pow_add])
    (fun first multiplied => by rw [product multiplied, first, pow_add])
    (i := 0) (j := 1) (pow_zero _).symm (pow_one _).symm map.symm
  rwa [Nat.zero_add, Nat.one_mul] at value

/-- A power that fits has the value of the power. -/
theorem toInt_power {x result : Word} {exponent : UInt64}
    (fits : x.power? exponent = some result) : result.toInt = x.toInt ^ exponent.toNat := by
  obtain ⟨magnitude, raised, rfl⟩ := Option.map_eq_some_iff.mp fits
  have value := toNat_raiseOnto raised
  have odd : (exponent % 2 == 1) = decide (exponent.toNat % 2 = 1) := by
    rw [Bool.eq_iff_iff, beq_iff_eq, decide_eq_true_eq, ← UInt64.toNat_inj, UInt64.toNat_mod]
    rfl
  rw [toInt_ofSign, value, odd, toInt]
  rcases Nat.even_or_odd exponent.toNat with even | odd
  · have rest : exponent.toNat % 2 = 0 := Nat.even_iff.mp even
    cases x.negative <;> simp [rest, even.neg_pow]
  · have rest : exponent.toNat % 2 = 1 := Nat.odd_iff.mp odd
    cases x.negative <;> simp [rest, odd.neg_pow]

end Word

/-! ## What comes of a power -/

/-- What comes of a power with a natural exponent: the power, unless zero is raised to zero or the
power is too large to be computed. -/
inductive Raised {Number : Type} (indeterminate : Prop) (power : Number) : Outcome Number → Prop
  | done : Raised indeterminate power (.ok power)
  | undefined (indeed : indeterminate) : Raised indeterminate power (.error .undefinedOperation)
  | tooLarge : Raised indeterminate power (.error .outOfMemory)

/-- A power may be put in another form. -/
theorem Raised.map {Number Form : Type} {indeterminate : Prop} {power : Number}
    {outcome : Outcome Number} (raised : Raised indeterminate power outcome) (form : Number → Form) :
    Raised indeterminate (form power) (outcome.map form) := by
  cases raised with
  | done => exact .done
  | undefined indeed => exact .undefined indeed
  | tooLarge => exact .tooLarge

/-- The condition under which there is no power may be weakened. -/
theorem Raised.imp {Number : Type} {indeterminate weaker : Prop} {power : Number}
    {outcome : Outcome Number} (raised : Raised indeterminate power outcome)
    (weakens : indeterminate → weaker) : Raised weaker power outcome := by
  cases raised with
  | done => exact .done
  | undefined indeed => exact .undefined (weakens indeed)
  | tooLarge => exact .tooLarge

end Calculator
