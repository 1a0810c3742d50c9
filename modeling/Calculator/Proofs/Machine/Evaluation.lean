import Calculator.Machine.Evaluation
import Calculator.Proofs.Machine.Solver
import Mathlib

/-!
# Evaluation on linked machines

Commands, evaluations within evaluations and whole lines do the same on linked machines. The
induction is on the number of levels that are left, and follows the order in which evaluation
is put together: a level does the same if the deeper one does.

A line that fails puts back the stack it began with. Until then the objects on that stack are
retained, so that they still are what they were.
-/

namespace Calculator

/-- An action as a line is performed: if it fails, the stack is what it was before, and the reason
is recorded. Until its end the objects on the stack are retained for that. -/
def Machine.recovering {Store Reference : Type} (action : ActionOn Store Reference Unit) :
    ActionOn Store Reference Unit := do
  let stack := (← get).stack
  let before ← marker
  stack.forM retain
  try action
  catch fault =>
    release before
    setStack stack
    recordFault fault
    throw fault
  release before

namespace Link

open Machine

variable {Store Reference Other Image : Type} {link : Link Store Reference Other Image}

/-! ## Evaluations within evaluations -/

/-- The number of levels that are left is the same. -/
theorem simulates_levelsLeft :
    link.Simulates (levelsLeft : ActionOn Store Reference Nat) levelsLeft :=
  simulates_read fun linked => by rw [linked.preferences, linked.nesting]

/-- Leaving an evaluation does the same. -/
theorem simulates_leave : link.Simulates (leave : ActionOn Store Reference Unit) leave :=
  simulates_modify (fun _ => rfl) fun linked =>
    { linked with nesting := congrArg (· - 1) linked.nesting }

/-- An evaluation within another one does the same if its action does. -/
theorem simulates_nested {action : ActionOn Store Reference Unit}
    {mirror : ActionOn Other Image Unit} (alike : link.Simulates action mirror) :
    link.Simulates (nested action) (nested mirror) := by
  refine simulates_levelsLeft.bind fun levels => Relates.guard fun _ => ?_
  refine Simulates.bind (simulates_modify (fun _ => rfl) fun linked => ?_) fun _ => ?_
  · exact { linked with nesting := congrArg (· + 1) linked.nesting }
  · refine Simulates.bind ?_ fun _ => simulates_leave
    refine alike.tryCatch (fun fault => ?_) fun _ _ => rfl
    exact simulates_leave.bind fun _ => relates_throw fault

variable [Storage Store Reference] [Storage Other Image] (lawful : link.Lawful)
include lawful

/-- To do the same is a relation that evaluation keeps, searches included. -/
theorem congruence : Congruence fun _ action mirror => link.Simulates action mirror where
  toCompositional := compositional lawful
  solve := simulates_solve lawful

/-! ## All levels -/

/-- Evaluation does the same with any number of levels left. -/
theorem alike_within (levels : Nat) :
    (within levels : Deeper Store Reference).Alike
      (fun _ action mirror => link.Simulates action mirror) (within levels) := by
  induction levels with
  | zero =>
    exact ⟨fun _ => relates_throw .tooMuchRecursion, fun _ => relates_throw .tooMuchRecursion⟩
  | succ levels inductionHypothesis =>
    constructor
    · intro value
      exact simulates_nested ((congruence lawful).evaluateAt inductionHypothesis value)
    · intro name
      exact simulates_nested ((congruence lawful).resolve inductionHypothesis name)

/-- Running a command as on the command line does the same. -/
theorem simulates_command (command : Command) :
    link.Simulates (Machine.command command) (Machine.command command) :=
  simulates_levelsLeft.bind fun levels =>
    (congruence lawful).perform (alike_within lawful levels) command

/-- Executing the values of a line does the same. -/
theorem simulates_performLine (line : String) :
    link.Simulates (performLine line) (performLine line) := by
  refine simulates_preferences.bind fun settings => (simulates_require _).bind fun items => ?_
  exact simulates_levelsLeft.bind fun levels =>
    (congruence lawful).executeAll (alike_within lawful levels) items

/-! ## Lines -/

omit lawful [Storage Store Reference] [Storage Other Image] in
/-- To retain some references puts them before those that are retained already. -/
theorem enact_retainAll (references : List Reference) (machine : Machine Store Reference) :
    enact (references.forM retain) machine =
      (.ok (), { machine with retained := references.reverse ++ machine.retained }) := by
  induction references generalizing machine with
  | nil => rfl
  | cons reference references inductionHypothesis =>
    change enact (retain reference >>= fun _ => references.forM retain) machine = _
    have first : enact (retain reference) machine =
        (.ok (), { machine with retained := reference :: machine.retained }) := rfl
    rw [enact_bind_ok first, inductionHypothesis, List.reverse_cons, List.append_assoc]
    rfl

omit lawful [Storage Store Reference] [Storage Other Image] in
/-- To perform an action like a line is to perform it with the levels of the stack retained. A fault
puts the stack back. -/
theorem enact_recovering (action : ActionOn Store Reference Unit)
    (machine : Machine Store Reference) :
    enact (recovering action) machine =
      match enact action
        { machine with retained := machine.stack.reverse ++ machine.retained } with
      | (.ok (), after) =>
        (.ok (), { after with
          retained := after.retained.drop (after.retained.length - machine.retained.length) })
      | (.error fault, after) =>
        (.error fault, { after with
          stack := machine.stack
          retained := after.retained.drop (after.retained.length - machine.retained.length)
          lastFault := some fault }) := by
  unfold recovering
  rw [enact_get_bind]
  dsimp only
  rw [enact_bind_ok (rfl : enact marker machine = (.ok machine.retained.length, machine)),
    enact_bind_ok (enact_retainAll machine.stack machine)]
  rcases answer : enact action
    { machine with retained := machine.stack.reverse ++ machine.retained } with ⟨outcome, after⟩
  cases outcome with
  | ok _ =>
    rw [enact_bind_ok (enact_tryCatch_ok answer _)]
    rfl
  | error fault =>
    rw [enact_bind_error ((enact_tryCatch_error answer _).trans rfl)]

omit lawful [Storage Other Image] in
/-- To run a line is to perform it with the levels of the stack retained. A fault puts the stack
back. -/
theorem enact_run (line : String) (machine : Machine Store Reference) :
    enact (run line) machine =
      match enact (performLine line)
        { machine with retained := machine.stack.reverse ++ machine.retained } with
      | (.ok (), after) =>
        (.ok (), { after with
          retained := after.retained.drop (after.retained.length - machine.retained.length) })
      | (.error fault, after) =>
        (.error fault, { after with
          stack := machine.stack
          retained := after.retained.drop (after.retained.length - machine.retained.length)
          lastFault := some fault }) :=
  enact_recovering (performLine line) machine

omit lawful [Storage Store Reference] [Storage Other Image] in
/-- The levels of the stack may be retained. -/
theorem Linked.retainStack {kept : List Reference} {images : List Image}
    {machine : Machine Store Reference} {other : Machine Other Image}
    (linked : link.Linked kept images machine other) :
    link.Linked (machine.stack.reverse ++ kept) (other.stack.reverse ++ images)
      { machine with retained := machine.stack.reverse ++ machine.retained }
      { other with retained := other.stack.reverse ++ other.retained } := by
  refine { linked with valid := ?_, retained := ?_, retainedImages := ?_, keptImages := ?_ }
  · intro root among
    rcases mem_roots.mp among with level | retained | held
    · exact linked.validLevel level
    · rcases List.mem_append.mp retained with level | retained
      · exact linked.validLevel (List.mem_reverse.mp level)
      · exact linked.validRetained (linked.retained ▸ retained)
    · exact linked.validContent held
  · exact congrArg (machine.stack.reverse ++ ·) linked.retained
  · exact congrArg (other.stack.reverse ++ ·) linked.retainedImages
  · rw [List.map_append, List.map_reverse, ← linked.stack, ← linked.keptImages]

omit lawful [Storage Store Reference] [Storage Other Image] in
/-- Retained references of the same number stand for each other. -/
theorem Linked.heldImages {held kept : List Reference} {heldImages images : List Image}
    {machine : Machine Store Reference} {other : Machine Other Image}
    (linked : link.Linked (held ++ kept) (heldImages ++ images) machine other)
    (count : heldImages.length = held.length) :
    heldImages = held.map (link.image machine.storage) ∧
      images = kept.map (link.image machine.storage) := by
  have same := linked.keptImages
  rw [List.map_append] at same
  exact List.append_inj same (count.trans (List.length_map _).symm)

omit lawful [Storage Store Reference] [Storage Other Image] in
/-- What was retained last may be released. -/
theorem Linked.release {held kept : List Reference} {heldImages images : List Image}
    {machine : Machine Store Reference} {other : Machine Other Image}
    (linked : link.Linked (held ++ kept) (heldImages ++ images) machine other)
    (count : heldImages.length = held.length) :
    link.Linked kept images
      { machine with
        retained := machine.retained.drop (machine.retained.length - kept.length) }
      { other with retained := other.retained.drop (other.retained.length - images.length) } := by
  have released : machine.retained.drop (machine.retained.length - kept.length) = kept := by
    rw [linked.retained, List.length_append, Nat.add_sub_cancel, List.drop_left]
  have releasedImages : other.retained.drop (other.retained.length - images.length) = images := by
    rw [linked.retainedImages, List.length_append, Nat.add_sub_cancel, List.drop_left]
  rw [released, releasedImages]
  refine { linked with
    valid := ?_, retained := rfl, retainedImages := rfl, keptImages := (linked.heldImages count).2 }
  intro root among
  rcases mem_roots.mp among with level | retained | content
  · exact linked.validLevel level
  · exact linked.validRetained (List.mem_append_right _ retained)
  · exact linked.validContent content

/-- Running a line does the same: the stack that a fault puts back still is what it was. -/
theorem simulates_run (line : String) : link.Simulates (run line) (run line) := by
  have performs := simulates_performLine lawful line
  constructor
  · intro machine gone
    have still := performs.lost
      { machine with retained := machine.stack.reverse ++ machine.retained } gone
    rw [enact_run]
    generalize enact (performLine line)
      { machine with retained := machine.stack.reverse ++ machine.retained } = answer at still
    obtain ⟨outcome, after⟩ := answer
    cases outcome <;> exact still
  · intro kept images machine other linked
    have agreed := performs.agreed linked.retainStack
    rw [enact_run, enact_run]
    generalize enact (performLine line)
      { machine with retained := machine.stack.reverse ++ machine.retained } = answer at agreed
    generalize enact (performLine line)
      { other with retained := other.stack.reverse ++ other.retained } = answerMirror at agreed
    have count : other.stack.reverse.length = machine.stack.reverse.length := by
      rw [linked.stack, List.length_reverse, List.length_reverse, List.length_map]
    rw [linked.retained, linked.retainedImages]
    cases agreed with
    | @lost outcome after _ gone => cases outcome <;> exact .lost gone
    | refused reports => exact .refused reports
    | done last _ => exact .done (last.release count) rfl
    | @failed fault after afterOther last =>
      have stack := (last.heldImages count).1
      rw [List.map_reverse, List.reverse_inj] at stack
      have valid : ∀ reference ∈ machine.stack, link.Valid after.storage reference := by
        intro reference level
        exact last.validRetained (List.mem_append_left _ (List.mem_reverse.mpr level))
      have restored := (last.release count).setStack valid
      rw [← stack] at restored
      exact .failed { restored with lastFault := rfl }

end Link

end Calculator
