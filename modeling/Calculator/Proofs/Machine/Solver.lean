import Calculator.Proofs.Machine.Actions
import Calculator.Proofs.Machine.Congruence
import Mathlib

/-!
# The search for a root on linked machines

A search does the same on linked machines if the evaluation of its target does. It is the only
action that goes on after a fault of a part of it: a sample that cannot be taken may be passed
over. Where a link reports, this would hide that there was no memory left, but there no search
takes a sample.
-/

namespace Calculator.Link

open Machine

variable {Store Reference Other Image : Type} {link : Link Store Reference Other Image}

/-- A link by which no machines are linked, but with the same storages lost. -/
def blind (link : Link Store Reference Other Image) : Link Store Reference Other Image :=
  { link with Matched := fun _ _ => False, Reports := False }

/-- An action that does the same does not bring a lost storage back. -/
theorem Relates.blind {First Second : Type} {related : Store → First → Second → Prop}
    {action : ActionOn Store Reference First} {mirror : ActionOn Other Image Second}
    (relates : link.Relates related action mirror) : link.blind.Relates related action mirror :=
  ⟨relates.lost, fun linked => linked.matched.elim⟩

/-- Whether a computation is asked to stop is the same. -/
theorem simulates_interrupted :
    link.Simulates (interrupted : ActionOn Store Reference Bool) interrupted := by
  refine relates_get (fun _ gone => gone) fun linked => ?_
  exact .done { linked with interruptRequested := rfl } linked.interruptRequested.symm

variable [Storage Store Reference] [Storage Other Image]

/-- The link by which no machines are linked is lawful. -/
theorem Lawful.blind (lawful : link.Lawful) : link.blind.Lawful where
  value matched := matched.elim
  place _ matched := matched.elim
  collect matched := matched.elim
  placeLost := lawful.placeLost
  collectLost := lawful.collectLost

section Search

variable (lawful : link.Lawful)
include lawful

/-- The values of names are the same. -/
theorem simulates_fetchNumbers? (names : List Symbol) :
    link.Simulates (fetchNumbers? names) (fetchNumbers? names) := by
  refine simulates_read fun {_ _ machine other} linked => ?_
  unfold numbers?
  congr 1
  funext name
  rw [lawful.lookup? linked]

/-- To do the same is a relation that evaluation keeps. -/
theorem compositional : Compositional fun _ action mirror => link.Simulates action mirror where
  pure := simulates_pure
  throw := relates_throw
  bind := Simulates.bind
  preferences := simulates_preferences
  depth := simulates_depth
  requireLevels := simulates_requireLevels
  drop := simulates_drop
  pick := simulates_pick
  swap := simulates_swap
  rotate := simulates_rotate
  clear := simulates_clear
  push := simulates_push lawful
  level := simulates_level lawful
  pop := simulates_pop lawful
  arguments := simulates_arguments lawful
  fetch? := simulates_fetch? lawful
  fetchNumbers? := simulates_fetchNumbers? lawful
  store := simulates_store lawful
  purge := simulates_purge
  createDirectory := simulates_createDirectory
  enter := simulates_enter
  upDirectory := simulates_upDirectory
  home := simulates_home

variable {evaluate : Value → ActionOn Store Reference Value}
variable {evaluateMirror : Value → ActionOn Other Image Value}
variable (evaluates : ∀ value, link.Simulates (evaluate value) (evaluateMirror value))
include evaluates

/-- A search under way does the same. Where the link reports, it must be at its end. -/
theorem simulates_searchFrom (problem : Problem) (precision : Precision) (remaining : Nat)
    (searchless : link.Reports → remaining = 0) (search : Search) (iteration : Nat) :
    link.Simulates (Solver.searchFrom evaluate problem precision search iteration remaining)
      (Solver.searchFrom evaluateMirror problem precision search iteration remaining) := by
  by_cases reports : link.Reports
  · rw [searchless reports]
    exact (compositional lawful).fail problem precision search.best .noSolution
  · refine (compositional lawful).searchFrom problem precision simulates_interrupted ?_ _ _ _
    exact (compositional lawful).attempt problem precision evaluates
      fun body handlers => body.tryCatch handlers fun told => absurd told reports

/-- A search does the same. -/
theorem simulates_solve (equation unknown guess : Value) :
    link.Simulates (solve evaluate equation unknown guess)
      (solve evaluateMirror equation unknown guess) := by
  refine (simulates_require _).bind fun problem => ⟨fun machine gone => ?_, fun linked => ?_⟩
  · have persistent := simulates_searchFrom lawful.blind (fun value => (evaluates value).blind)
      problem machine.settings.precision machine.settings.solverIterations.toNat False.elim
    rw [enact_preferences_bind]
    exact (persistent _ 0).lost machine gone
  · rename_i kept images machine other
    have alike := simulates_searchFrom lawful evaluates problem machine.settings.precision
      machine.settings.solverIterations.toNat fun reports => by
        rw [linked.searchless reports]
        rfl
    rw [enact_preferences_bind, enact_preferences_bind, linked.preferences]
    exact (alike _ 0).agreed linked

end Search

end Calculator.Link
