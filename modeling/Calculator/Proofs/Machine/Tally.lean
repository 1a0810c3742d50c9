import Calculator.Proofs.Machine.Evaluation
import Calculator.Proofs.Machine.Execution
import Mathlib

/-!
# A tally of evaluations

The nesting of a machine says how many evaluations are going on within each other only if every
evaluation raises it and lowers it again. To say how many there are in fact, they are counted apart
from it, by a storage with a tally. The tally is raised when an evaluation begins and lowered when
it ends, and no other action touches it. Apart from the tally, machines do what they do without one.

An action with a tally mirrors another one without it, as long as so many levels are left, if both
answer the same and leave the same machine behind, the nesting and the tally are put back, and no
more evaluations than levels have been going on at the same time.
-/

namespace Calculator

/-- A storage, and a tally of the evaluations that go on within each other. -/
structure Tallied (Store : Type) where
  storage : Store
  /-- How many evaluations are going on. -/
  active : ℕ
  /-- The most evaluations that have been going on at the same time. -/
  peak : ℕ

namespace Tallied

variable {Store Reference : Type}

/-- One more evaluation goes on. -/
def begun (tallied : Tallied Store) : Tallied Store :=
  { tallied with active := tallied.active + 1, peak := max tallied.peak (tallied.active + 1) }

/-- One evaluation less goes on. -/
def ended (tallied : Tallied Store) : Tallied Store :=
  { tallied with active := tallied.active - 1 }

instance [Storage Store Reference] : Storage (Tallied Store) Reference where
  place tallied roots object :=
    let (outcome, storage) := Storage.place tallied.storage roots object
    (outcome, { tallied with storage })
  valueOf tallied := Storage.valueOf tallied.storage
  collect tallied roots :=
    let (reclaimed, storage) := Storage.collect tallied.storage roots
    (reclaimed, { tallied with storage })

/-- A storage with a tally stands for the storage itself. -/
def untallied (Store Reference : Type) : Link (Tallied Store) Reference Store Reference where
  image _ reference := reference
  Valid _ _ := True
  Matched tallied storage := tallied.storage = storage
  Lost _ := False
  Reports := False

/-- A tally changes nothing. -/
theorem lawful_untallied [Storage Store Reference] : (untallied Store Reference).Lawful where
  value := by
    rintro tallied storage reference rfl -
    rfl
  place := by
    rintro tallied storage roots value rfl -
    rw [show roots.map ((untallied Store Reference).image tallied) = roots from List.map_id' roots]
    simp only [Storage.place]
    rcases Storage.place tallied.storage roots (Encoding.encode value) with ⟨_ | reference, next⟩
    · exact .failed ⟨rfl, fun _ _ => trivial, fun _ _ => rfl⟩
    · exact .done ⟨rfl, fun _ _ => trivial, fun _ _ => rfl⟩ trivial
  collect := by
    rintro tallied storage roots rfl -
    rw [show roots.map ((untallied Store Reference).image tallied) = roots from List.map_id' roots]
    exact .inr ⟨rfl, fun _ _ => trivial, fun _ _ => rfl⟩
  placeLost _ _ gone := gone
  collectLost _ gone := gone

end Tallied

namespace Machine

variable {Store Reference Item Result : Type}

/-- The machine with a tally, on which no evaluation is going on. -/
def tallied (machine : Machine Store Reference) : Machine (Tallied Store) Reference :=
  { machine with storage := ⟨machine.storage, 0, 0⟩ }

/-- The machine without its tally. -/
def untallied (machine : Machine (Tallied Store) Reference) : Machine Store Reference :=
  { machine with storage := machine.storage.storage }

/-- An action that counts as an evaluation from its beginning to its end, even if it fails. -/
def counted (action : ActionOn (Tallied Store) Reference Unit) :
    ActionOn (Tallied Store) Reference Unit := ExceptT.mk do
  modify fun machine => { machine with storage := machine.storage.begun }
  let outcome ← action.run
  modify fun machine => { machine with storage := machine.storage.ended }
  return outcome

/-- The tally is raised before the action and lowered after it. -/
theorem enact_counted (action : ActionOn (Tallied Store) Reference Unit)
    (machine : Machine (Tallied Store) Reference) :
    enact (counted action) machine =
      let (outcome, inner) := enact action { machine with storage := machine.storage.begun }
      (outcome, { inner with storage := inner.storage.ended }) :=
  rfl

/-- What actions leave alone at so many levels: the settings, the nesting and the evaluations that
are going on. Within them no more evaluations than levels have been going on at the same time. -/
structure Keeps (levels : ℕ) (before after : Machine (Tallied Store) Reference) : Prop where
  settings : after.settings = before.settings
  nesting : after.nesting = before.nesting
  active : after.storage.active = before.storage.active
  peak : after.storage.peak ≤ max before.storage.peak (before.storage.active + levels)

theorem Keeps.trans {levels : ℕ} {before after last : Machine (Tallied Store) Reference}
    (first : Keeps levels before after) (second : Keeps levels after last) :
    Keeps levels before last where
  settings := second.settings.trans first.settings
  nesting := second.nesting.trans first.nesting
  active := second.active.trans first.active
  peak := by
    have early := first.peak
    have late := second.peak
    rw [first.active] at late
    omega

/-- Whether an action on machines with a tally does the same as another one on machines without it,
and keeps what it should, if so many levels are left. -/
def Mirrors (levels : ℕ) (action : ActionOn (Tallied Store) Reference Item)
    (mirror : ActionOn Store Reference Item) : Prop :=
  ∀ machine : Machine (Tallied Store) Reference,
    machine.settings.maxRecursion.toNat - machine.nesting = levels →
      ∃ outcome after, enact action machine = (outcome, after) ∧
        enact mirror machine.untallied = (outcome, after.untallied) ∧ Keeps levels machine after

/-! ## Actions made of actions -/

section Combination

variable {levels : ℕ} {action : ActionOn (Tallied Store) Reference Item}
variable {mirror : ActionOn Store Reference Item}

/-- The number of levels that are left is kept. -/
theorem Keeps.left {before after : Machine (Tallied Store) Reference}
    (keeps : Keeps levels before after)
    (left : before.settings.maxRecursion.toNat - before.nesting = levels) :
    after.settings.maxRecursion.toNat - after.nesting = levels := by
  rw [keeps.settings, keeps.nesting, left]

/-- Two actions in a row mirror two others if each one mirrors its counterpart. -/
theorem Mirrors.bind {next : Item → ActionOn (Tallied Store) Reference Result}
    {nextMirror : Item → ActionOn Store Reference Result} (head : Mirrors levels action mirror)
    (tails : ∀ item, Mirrors levels (next item) (nextMirror item)) :
    Mirrors levels (action >>= next) (mirror >>= nextMirror) := by
  intro machine left
  obtain ⟨outcome, after, answer, answerMirror, keeps⟩ := head machine left
  cases outcome with
  | ok item =>
    obtain ⟨final, last, rest, restMirror, keepsRest⟩ := tails item after (keeps.left left)
    exact ⟨final, last, (enact_bind_ok answer _).trans rest,
      (enact_bind_ok answerMirror _).trans restMirror, keeps.trans keepsRest⟩
  | error fault =>
    exact ⟨.error fault, after, enact_bind_error answer _, enact_bind_error answerMirror _, keeps⟩

/-- An action with a handler mirrors another one if both are mirrored. -/
theorem Mirrors.tryCatch {handler : Fault → ActionOn (Tallied Store) Reference Item}
    {handlerMirror : Fault → ActionOn Store Reference Item} (body : Mirrors levels action mirror)
    (handlers : ∀ fault, Mirrors levels (handler fault) (handlerMirror fault)) :
    Mirrors levels (tryCatch action handler) (tryCatch mirror handlerMirror) := by
  intro machine left
  obtain ⟨outcome, after, answer, answerMirror, keeps⟩ := body machine left
  cases outcome with
  | ok item =>
    exact ⟨.ok item, after, enact_tryCatch_ok answer _, enact_tryCatch_ok answerMirror _, keeps⟩
  | error fault =>
    obtain ⟨final, last, rest, restMirror, keepsRest⟩ := handlers fault after (keeps.left left)
    exact ⟨final, last, (enact_tryCatch_error answer _).trans rest,
      (enact_tryCatch_error answerMirror _).trans restMirror, keeps.trans keepsRest⟩

variable [Storage Store Reference]

/-- However a machine with a tally evolves, the tally is what it was. -/
theorem Evolves.keeps {before after : Machine (Tallied Store) Reference}
    (evolves : Evolves before after) : Keeps levels before after := by
  obtain ⟨settings, nesting⟩ := evolves.settings_nesting
  have tally : after.storage.active = before.storage.active ∧
      after.storage.peak = before.storage.peak := by
    clear settings nesting
    induction evolves with
    | unchanged => exact ⟨rfl, rfl⟩
    | change first _ inductionHypothesis =>
      have untouched {roots : List Reference} {object : List UInt8} {outcome : Outcome Reference}
          {storage next : Tallied Store}
          (taken : Storage.place storage roots object = (outcome, next)) :
          next.active = storage.active ∧ next.peak = storage.peak := by
        obtain ⟨-, rfl⟩ := Prod.mk.inj taken
        exact ⟨rfl, rfl⟩
      refine ⟨inductionHypothesis.1.trans ?_, inductionHypothesis.2.trans ?_⟩
      · cases first with
        | pushed _ taken => exact (untouched taken).1
        | stored _ _ _ _ taken => exact (untouched taken).1
        | _ => rfl
      · cases first with
        | pushed _ taken => exact (untouched taken).2
        | stored _ _ _ _ taken => exact (untouched taken).2
        | _ => rfl
    | nested _ _ _ body rest => exact ⟨rest.1.trans body.1, rest.2.trans body.2⟩
  exact ⟨settings, nesting, tally.1, tally.2 ▸ le_max_left _ _⟩

omit [Storage Store Reference] in
/-- A machine with a tally is linked to the machine without it. -/
theorem linked_untallied (machine : Machine (Tallied Store) Reference) :
    (Tallied.untallied Store Reference).Linked machine.retained machine.retained machine
      machine.untallied where
  matched := rfl
  valid _ _ := trivial
  preferences := rfl
  searchless reports := reports.elim
  stack := (List.map_id' _).symm
  retained := rfl
  retainedImages := rfl
  keptImages := (List.map_id' _).symm
  tree := (Directory.map_itself _).symm
  path := rfl
  lastFault := rfl
  interruptRequested := rfl
  nesting := rfl

omit [Storage Store Reference] in
/-- What a machine with a tally is linked to is the machine without it, if the settings are the
same. -/
theorem eq_untallied_of_linked {kept images : List Reference}
    {machine : Machine (Tallied Store) Reference} {other : Machine Store Reference}
    (linked : (Tallied.untallied Store Reference).Linked kept images machine other)
    (settings : other.settings = machine.settings) : other = machine.untallied := by
  have stack : other.stack = machine.stack := linked.stack.trans (List.map_id' _)
  have tree : other.tree = machine.tree := linked.tree.trans (Directory.map_itself _)
  have retained : other.retained = machine.retained :=
    (linked.retainedImages.trans (linked.keptImages.trans (List.map_id' _))).trans
      linked.retained.symm
  have storage : machine.storage.storage = other.storage := linked.matched
  have path := linked.path
  have lastFault := linked.lastFault
  have interruptRequested := linked.interruptRequested
  have nesting := linked.nesting
  cases other
  cases machine
  simp_all only [untallied]

/-- An action in which no evaluation begins mirrors itself. -/
theorem mirrors_of_simulates
    (simulates : (Tallied.untallied Store Reference).Simulates action mirror)
    (evolving : Evolving action) (evolvingMirror : Evolving mirror) :
    Mirrors levels action mirror := by
  intro machine _
  have agreed := simulates.agreed (linked_untallied machine)
  have keeps : Keeps levels machine (enact action machine).2 := (evolving machine).keeps
  have settings : (enact mirror machine.untallied).2.settings = machine.settings :=
    (evolvingMirror machine.untallied).settings_nesting.1
  generalize enact action machine = answered at agreed keeps ⊢
  generalize enact mirror machine.untallied = mirrored at agreed settings ⊢
  cases agreed with
  | lost gone => exact gone.elim
  | refused reports => exact reports.elim
  | done linked same =>
    rw [same, eq_untallied_of_linked linked (settings.trans keeps.settings.symm)]
    exact ⟨_, _, rfl, rfl, keeps⟩
  | failed linked =>
    rw [eq_untallied_of_linked linked (settings.trans keeps.settings.symm)]
    exact ⟨_, _, rfl, rfl, keeps⟩

end Combination

/-! ## Evaluations within evaluations -/

section Nested

variable {levels : ℕ} {action : ActionOn (Tallied Store) Reference Unit}
variable {mirror : ActionOn Store Reference Unit}

/-- Where no level is left, no evaluation begins. -/
theorem mirrors_nested_zero :
    Mirrors 0 (nested (counted action))
      (throw .tooMuchRecursion : ActionOn Store Reference Unit) := by
  intro machine left
  refine ⟨.error .tooMuchRecursion, machine, ?_, rfl, ⟨rfl, rfl, rfl, le_max_left _ _⟩⟩
  rw [enact_nested, if_pos left]

/-- An evaluation that is counted mirrors one that is not, if so does its action with one level
less. It is one of the evaluations that go on at the same time. -/
theorem Mirrors.nested (body : Mirrors levels action mirror) :
    Mirrors (levels + 1) (nested (counted action)) (nested mirror) := by
  intro machine left
  let entered : Machine (Tallied Store) Reference :=
    { machine with storage := machine.storage.begun, nesting := machine.nesting + 1 }
  have deeper : entered.settings.maxRecursion.toNat - entered.nesting = levels := by
    change machine.settings.maxRecursion.toNat - (machine.nesting + 1) = levels
    omega
  obtain ⟨outcome, after, answer, answerMirror, keeps⟩ := body entered deeper
  refine ⟨outcome, { after with
    storage := after.storage.ended
    nesting := after.nesting - 1 }, ?_, ?_, ?_⟩
  · have inner : enact (counted action) { machine with nesting := machine.nesting + 1 } =
        (outcome, { after with storage := after.storage.ended }) := by
      rw [enact_counted]
      exact congrArg (fun answer : Outcome Unit × Machine (Tallied Store) Reference =>
        (answer.1, { answer.2 with storage := answer.2.storage.ended })) answer
    rw [enact_nested, if_neg (by omega), inner]
  · have inner : enact mirror { machine.untallied with nesting := machine.nesting + 1 } =
        (outcome, after.untallied) := answerMirror
    have room : machine.untallied.settings.maxRecursion.toNat - machine.untallied.nesting ≠ 0 := by
      change machine.settings.maxRecursion.toNat - machine.nesting ≠ 0
      omega
    rw [enact_nested, if_neg room]
    exact congrArg (fun answer : Outcome Unit × Machine Store Reference =>
      (answer.1, { answer.2 with nesting := answer.2.nesting - 1 })) inner
  · exact {
      settings := keeps.settings
      nesting := congrArg (· - 1) keeps.nesting
      active := congrArg (· - 1) keeps.active
      peak := by
        have peak : after.storage.peak ≤
          max (max machine.storage.peak (machine.storage.active + 1))
            (machine.storage.active + 1 + levels) := keeps.peak
        change after.storage.peak ≤
          max machine.storage.peak (machine.storage.active + (levels + 1))
        omega }

end Nested

end Machine

end Calculator
