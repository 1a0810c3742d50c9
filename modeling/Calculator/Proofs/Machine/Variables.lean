import Calculator.Proofs.Machine.Atomicity
import Calculator.Proofs.Machine.ReadBack
import Calculator.Proofs.Memory.Orderly
import Mathlib

/-!
# The tree of variables

The current directory is kept as a path of names, which is followed anew whenever it is needed.
Whatever a machine is asked to do, and whatever it evaluates, it changes the tree and the path by
steps that make no name double and do not break the path: what is removed or replaced is an entry
of the directory at the end of the path, never a directory that the path leads through. An action
on the variables takes one such step, or fails and takes none.
-/

namespace Calculator

namespace Machine

open Directory

variable {Store Reference : Type}

/-! ## Steps of a machine -/

/-- The path to the current directory and the tree of variables. -/
def position (machine : Machine Store Reference) : List Symbol × Directory Reference :=
  (machine.path, machine.tree)

/-- What becomes of the variables of a machine without a change of the sensitivity to case. -/
structure Proceeds (caseSensitive : Bool) (before after : Machine Store Reference) : Prop where
  sensitive : after.settings.caseSensitive = caseSensitive
  steps : Steps caseSensitive before.position after.position

variable [Storage Store Reference]

/-- A single change takes one step or none. -/
theorem Change.steps {before after : Machine Store Reference} (change : Change before after) :
    Steps before.settings.caseSensitive before.position after.position := by
  cases change with
  | stored name value vacant present taken =>
    exact .single (.stored name _ (Option.isSome_eq_false_iff.mp vacant |>
      Option.isNone_iff_eq_none.mp))
  | removed name found present => exact .single (.removed name found)
  | founded name vacant present => exact .single (.founded name (Option.isNone_iff_eq_none.mp vacant))
  | entered name inside => exact .single (.entered name inside)
  | ascended => exact .single .ascended
  | returned => exact .single .returned
  | handed | pushed | rearranged | answered => exact .refl

/-- However a machine evolves, its variables change by steps. -/
theorem Evolves.proceeds {before after : Machine Store Reference} (evolves : Evolves before after) :
    Proceeds before.settings.caseSensitive before after := by
  refine ⟨congrArg (·.caseSensitive) evolves.settings_nesting.1, ?_⟩
  induction evolves with
  | unchanged => exact .refl
  | change first rest inductionHypothesis =>
    rw [first.evolves.settings_nesting.1] at inductionHypothesis
    exact first.steps.trans inductionHypothesis
  | @nested machine inner last room body rest within further =>
    have same : inner.settings = machine.settings := body.settings_nesting.1
    have further : Steps inner.settings.caseSensitive inner.position last.position := further
    rw [same] at further
    exact within.trans further

/-- What becomes of the variables where a machine did as it evolves. -/
theorem Proceeds.of_evolves {caseSensitive : Bool} {before after : Machine Store Reference}
    (sensitive : before.settings.caseSensitive = caseSensitive) (evolves : Evolves before after) :
    Proceeds caseSensitive before after := sensitive ▸ evolves.proceeds

end Machine

namespace Session

open Machine

/-- Whether a request leaves the sensitivity to case as it is. -/
def Request.KeepsCase (caseSensitive : Bool) : Request → Prop
  | changeSettings settings => settings.caseSensitive = caseSensitive
  | _ => True

variable {caseSensitive : Bool}

/-- To run a line proceeds by steps, also if it fails: only the stack is put back. -/
theorem proceeds_run (line : String) {machine : Machine}
    (sensitive : machine.settings.caseSensitive = caseSensitive) :
    Proceeds caseSensitive machine (enact (run line) machine).2 := by
  have run := Link.enact_run line machine
  have evolves := evolving_performLine line machine.guarded
  have performed : Proceeds caseSensitive machine.guarded
      (enact (performLine line) machine.guarded).2 := .of_evolves sensitive evolves
  rcases answer : enact (performLine line) machine.guarded with ⟨outcome, after⟩
  rw [answer] at performed
  unfold guarded at answer
  rw [answer] at run
  rw [run]
  cases outcome <;> exact ⟨performed.sensitive, performed.steps⟩

/-- An operation proceeds by steps. -/
theorem proceeds_operation (operation : Operation) {machine : Machine}
    (sensitive : machine.settings.caseSensitive = caseSensitive) :
    Proceeds caseSensitive machine (enact operation.perform machine).2 := by
  by_cases collects : operation = .collect
  · subst collects
    show Proceeds caseSensitive machine
      (enact (do discard Machine.collect; return Answer.done) machine).2
    rw [enact_answer (discard Machine.collect) (fun _ => Answer.done), enact_discard]
    exact ⟨sensitive, .refl⟩
  · by_cases runs : ∃ line, operation = .run line
    · obtain ⟨line, rfl⟩ := runs
      show Proceeds caseSensitive machine (enact (do Machine.run line; return Answer.done) machine).2
      rw [enact_answer (Machine.run line) (fun _ => Answer.done)]
      exact proceeds_run line sensitive
    · exact .of_evolves sensitive (evolves_operation collects (not_exists.mp runs) machine)

/-- A request that leaves the sensitivity to case as it is proceeds by steps. -/
theorem proceeds_request {request : Request} (keeps : request.KeepsCase caseSensitive)
    {machine : Machine} (sensitive : machine.settings.caseSensitive = caseSensitive) :
    Proceeds caseSensitive machine (enact request.perform machine).2 := by
  have unasked {Item : Type} {action : Action Item}
      (proceeds : Proceeds caseSensitive machine (enact action machine).2) :
      Proceeds caseSensitive machine (enact (discard action) machine).2 := by
    rw [enact_discard]
    exact proceeds
  cases request with
  | plain operation => exact unasked (proceeds_operation operation sensitive)
  | make value => exact unasked (.of_evolves sensitive (evolving_make value machine))
  | execute value => exact .of_evolves sensitive (evolving_executeValue value machine)
  | evaluate value => exact .of_evolves sensitive (evolving_evaluate value machine)
  | evaluateValue value => exact unasked (.of_evolves sensitive (evolving_evaluateValue value machine))
  | findRoot equation unknown guess =>
    exact unasked (.of_evolves sensitive (evolving_findRoot equation unknown guess machine))
  | interrupted => exact unasked (.of_evolves sensitive (evolving_interrupted machine))
  | changeSettings settings => exact ⟨keeps, .refl⟩
  | pushHandle handle =>
    show Proceeds caseSensitive machine (enact (Machine.pushHandle handle) machine).2
    unfold Machine.pushHandle
    rw [enact_get_bind]
    split <;> exact ⟨sensitive, .refl⟩
  | retain | release | recordFault | clearFault | interrupt => exact ⟨sensitive, .refl⟩

/-- Requests that leave the sensitivity to case as it is proceed by steps. -/
theorem proceeds_requested {requests : List Request}
    (keeps : ∀ request ∈ requests, request.KeepsCase caseSensitive) {machine : Machine}
    (sensitive : machine.settings.caseSensitive = caseSensitive) :
    Proceeds caseSensitive machine (requested requests machine) := by
  induction requests generalizing machine with
  | nil => exact ⟨sensitive, .refl⟩
  | cons request requests inductionHypothesis =>
    obtain ⟨first, others⟩ := List.forall_mem_cons.mp keeps
    have step := proceeds_request first sensitive
    have rest := inductionHypothesis others step.sensitive
    exact ⟨rest.sensitive, step.steps.trans rest.steps⟩

end Session

namespace Machine

open Directory

variable {Store Reference : Type} [Storage Store Reference]

/-! ## Single actions -/

section Actions

variable {machine : Machine Store Reference}

/-- What is known of a machine after one entry of its current directory has changed: the path is the
same, and so is everything else in the tree. -/
structure Changes (name : Symbol) (entry : Option (Entry Reference))
    (before after : Machine Store Reference) : Prop where
  path : after.path = before.path
  differs : DiffersAlong before.settings.caseSensitive name before.path before.tree after.tree
  found : find? after.current name before.settings.caseSensitive = entry

omit [Storage Store Reference] in
/-- The current directory may be replaced by one that differs in one entry. -/
theorem changes_of_differsAt (present :
      missing? machine.settings.caseSensitive machine.path machine.tree = none)
    {name : Symbol} {entries : Directory Reference}
    (differs : DiffersAt machine.settings.caseSensitive name machine.current entries)
    (storage : Store) :
    Changes name (find? entries name machine.settings.caseSensitive) machine { machine with
      storage
      tree := replaceAt machine.settings.caseSensitive entries machine.path machine.tree } where
  path := rfl
  differs := differsAlong_replaceAt present differs
  found := by
    unfold current
    dsimp only
    rw [along_replaceAt present]

omit [Storage Store Reference] in
/-- The current directory is there to be changed while the path can be followed. -/
theorem enact_changeCurrent (present :
      missing? machine.settings.caseSensitive machine.path machine.tree = none)
    (change : Directory Reference → Outcome (Directory Reference)) :
    enact (changeCurrent change) machine =
      match change machine.current with
      | .ok entries => (.ok (), { machine with
          tree := replaceAt machine.settings.caseSensitive entries machine.path machine.tree })
      | .error fault => (.error fault, machine) := by
  unfold changeCurrent
  rw [enact_get_bind]
  dsimp only
  rw [present]
  cases change machine.current <;> rfl

omit [Storage Store Reference] in
/-- What is not there is not purged; what is there is then no longer there. -/
theorem enact_purge (followed : Followed machine.settings.caseSensitive machine.position)
    (name : Symbol) :
    if find? machine.current name machine.settings.caseSensitive = none then
      enact (purge name) machine = (.error (.undefinedName name.name), machine)
    else (enact (purge name) machine).1 = .ok () ∧
      Changes name none machine (enact (purge name) machine).2 := by
  unfold purge
  rw [enact_preferences_bind, enact_changeCurrent followed.present]
  split
  · rename_i vacant
    rw [if_pos (by rw [vacant]; rfl)]
  · rename_i found
    have some_entry : (find? machine.current name machine.settings.caseSensitive).isSome = true :=
      Option.isSome_iff_ne_none.mpr found
    rw [if_neg (by rw [Option.isNone_iff_eq_none]; exact found)]
    refine ⟨rfl, ?_⟩
    have changes := changes_of_differsAt followed.present (differsAt_remove some_entry) machine.storage
    have gone : find? (remove machine.current name machine.settings.caseSensitive) name
        machine.settings.caseSensitive = none :=
      (followed.orderly.along machine.path _ .outermost).find?_remove name
    rwa [gone] at changes

omit [Storage Store Reference] in
/-- A directory is made only under a new name. -/
theorem enact_createDirectory (followed : Followed machine.settings.caseSensitive machine.position)
    (name : Symbol) :
    if find? machine.current name machine.settings.caseSensitive = none then
      (enact (createDirectory name) machine).1 = .ok () ∧
        Changes name (some (.directory [])) machine (enact (createDirectory name) machine).2
    else enact (createDirectory name) machine = (.error .badArgumentValue, machine) := by
  unfold createDirectory
  rw [enact_preferences_bind, enact_changeCurrent followed.present]
  split
  · rename_i vacant
    rw [if_neg (by rw [vacant]; exact Bool.false_ne_true)]
    refine ⟨rfl, ?_⟩
    have changes := changes_of_differsAt followed.present
      (differsAt_insert machine.current name (.directory [])) machine.storage
    rwa [find?_insert] at changes
  · rename_i found
    rw [if_pos (Option.isSome_iff_ne_none.mpr found)]

/-- A value is stored unless its name stands for a directory or it is not taken in. -/
theorem enact_store (present :
      missing? machine.settings.caseSensitive machine.path machine.tree = none)
    (name : Symbol) (value : Value) :
    if machine.isDirectory name = true then
      enact (store name value) machine = (.error .badArgumentType, machine)
    else match (enact (make value) machine).1 with
      | .ok reference => (enact (store name value) machine).1 = .ok () ∧
          Changes name (some (.value reference)) machine (enact (store name value) machine).2
      | .error fault => (enact (store name value) machine).1 = .error fault ∧
          (enact (store name value) machine).2.position = machine.position := by
  unfold store
  rw [enact_preferences_bind, enact_get_bind]
  split
  · rfl
  · dsimp only
    rcases made : enact (make value) machine with ⟨outcome, between⟩
    cases outcome with
    | error fault =>
      rw [enact_bind_error made]
      refine ⟨rfl, ?_⟩
      rcases enact_make value machine with ⟨other, refused⟩ | placed
      · cases refused.symm.trans made
        rfl
      · rw [placed, Link.enact_place] at made
        obtain ⟨-, rfl⟩ := Prod.mk.inj made
        rfl
    | ok reference =>
      obtain ⟨storage, -, same⟩ := enact_make_ok made
      have still : missing? between.settings.caseSensitive between.path between.tree = none := by
        rw [same]
        exact present
      rw [enact_bind_ok made, enact_changeCurrent still]
      subst same
      refine ⟨rfl, ?_⟩
      have changes := changes_of_differsAt present
        (differsAt_insert machine.current name (.value reference)) storage
      rwa [find?_insert] at changes

omit [Storage Store Reference] in
/-- Only a subdirectory of the current directory is entered. -/
theorem enact_enter (name : Symbol) (machine : Machine Store Reference) :
    enact (enter name) machine =
      if machine.isDirectory name then (.ok true, { machine with path := machine.path ++ [name] })
      else (.ok false, machine) := by
  unfold enter
  rw [enact_get_bind]
  split <;> rfl

/-- What is known of the variables of a machine, and of the actions on them. -/
structure Tidy (machine : Machine Store Reference) : Prop where
  /-- No directory has two entries whose names denote the same thing. -/
  distinct : ∀ entries, Within machine.tree entries →
    Distinct machine.settings.caseSensitive entries
  /-- Every name of the path leads to a subdirectory of the directory before it. -/
  present : missing? machine.settings.caseSensitive machine.path machine.tree = none
  /-- Along the path there is a directory for every name, and the last one is the current one. -/
  directories : machine.directories.length = machine.path.length + 1 ∧
    machine.directories.getLast? = some machine.current
  /-- A directory is not overwritten by a value. Otherwise the value that is taken in is what the name
  then stands for. -/
  store : ∀ name value,
    if machine.isDirectory name = true then
      enact (store name value) machine = (.error .badArgumentType, machine)
    else match (enact (make value) machine).1 with
      | .ok reference => (enact (Machine.store name value) machine).1 = .ok () ∧
          Changes name (some (.value reference)) machine (enact (Machine.store name value) machine).2
      | .error fault => (enact (Machine.store name value) machine).1 = .error fault ∧
          (enact (Machine.store name value) machine).2.position = machine.position
  /-- What is not there is not purged. -/
  purge : ∀ name,
    if find? machine.current name machine.settings.caseSensitive = none then
      enact (purge name) machine = (.error (.undefinedName name.name), machine)
    else (enact (Machine.purge name) machine).1 = .ok () ∧
      Changes name none machine (enact (Machine.purge name) machine).2
  /-- A directory is made only under a new name. -/
  createDirectory : ∀ name,
    if find? machine.current name machine.settings.caseSensitive = none then
      (enact (createDirectory name) machine).1 = .ok () ∧
        Changes name (some (.directory [])) machine (enact (createDirectory name) machine).2
    else enact (Machine.createDirectory name) machine = (.error .badArgumentValue, machine)
  /-- Only a subdirectory is entered. -/
  enter : ∀ name, enact (enter name) machine =
    if machine.isDirectory name then (.ok true, { machine with path := machine.path ++ [name] })
    else (.ok false, machine)
  /-- To look a name up changes nothing. -/
  fetch? : ∀ name, (enact (fetch? name) machine).2 = machine
  /-- The directories around the current one can be gone back to. -/
  ascended : enact upDirectory machine = (.ok (), { machine with path := machine.path.dropLast }) ∧
    enact home machine = (.ok (), { machine with path := [] })

/-- The variables of a machine are kept well where its path can be followed in an orderly tree. -/
theorem tidy_of_followed (followed : Followed machine.settings.caseSensitive machine.position) :
    machine.Tidy where
  distinct := followed.orderly
  present := followed.present
  directories := by
    obtain ⟨around, whole⟩ := exists_chain_eq machine.settings.caseSensitive machine.path machine.tree
    refine ⟨length_chain followed.present, ?_⟩
    unfold Machine.directories
    rw [whole]
    exact List.getLast?_concat
  store := enact_store followed.present
  purge := enact_purge followed
  createDirectory := enact_createDirectory followed
  enter name := enact_enter name machine
  fetch? _ := rfl
  ascended := ⟨rfl, rfl⟩

end Actions

end Machine

namespace Session

open Machine Directory

/-- Whatever a machine was asked to do and to evaluate, without a change of the sensitivity to case:
no name is double, the path can be followed, the actions on the variables take effect on the one
entry they name or fail without an effect, and whatever the machine is asked for next changes the
tree and the path by steps of these kinds. -/
theorem variables_tidy (settings : Settings) (requests : List Request)
    (keeps : ∀ request ∈ requests, request.KeepsCase settings.caseSensitive) :
    let machine := requested requests (start settings)
    machine.settings.caseSensitive = settings.caseSensitive ∧ machine.Tidy ∧
      ∀ request : Request, request.KeepsCase settings.caseSensitive →
        Steps settings.caseSensitive machine.position (enact request.perform machine).2.position := by
  intro machine
  obtain ⟨sensitive, steps⟩ := proceeds_requested keeps
    (show (start settings).settings.caseSensitive = settings.caseSensitive from rfl)
  refine ⟨sensitive, tidy_of_followed ?_, fun request same => (proceeds_request same sensitive).steps⟩
  rw [sensitive]
  exact steps.followed followed_empty

/-- Requests for a value to be stored under two spellings of a name, in a subdirectory. -/
def spelledTwice : List Request :=
  [.plain (.createDirectory ⟨"D"⟩), .plain (.enter ⟨"d"⟩), .plain (.store ⟨"xy"⟩ (.ofInt 1)),
    .plain (.store ⟨"XY"⟩ (.ofInt 2))]

/-- Without sensitivity to case there is one entry under the two spellings, and a third spelling
purges it. -/
theorem variables_tidy_spellings :
    let machine := requested spelledTwice (start { caseSensitive := false })
    machine.path = [⟨"d"⟩] ∧ machine.names = [⟨"xy"⟩] ∧
      (enact (purge ⟨"Xy"⟩) machine).1 = .ok () ∧
      Changes ⟨"Xy"⟩ none machine (enact (purge ⟨"Xy"⟩) machine).2 := by
  intro machine
  have path : machine.path = [⟨"d"⟩] := by decide +kernel
  have names : machine.names = [⟨"xy"⟩] := by decide +kernel
  have keeps : ∀ request ∈ spelledTwice, request.KeepsCase false := by
    simp [spelledTwice, Request.KeepsCase]
  obtain ⟨sensitive, tidy, -⟩ := variables_tidy { caseSensitive := false } spelledTwice keeps
  have found : (find? machine.current ⟨"Xy"⟩ machine.settings.caseSensitive).isSome = true := by
    decide +kernel
  have purged := tidy.purge ⟨"Xy"⟩
  rw [if_neg (Option.isSome_iff_ne_none.mp found)] at purged
  exact ⟨path, names, purged⟩

/-- A program that fails has made the variable that it stored before. -/
theorem variables_changed_by_failure :
    let program : Value := .program [.ofInt 1, .expression [.symbol ⟨"X"⟩], .command .store, .ofInt 1,
      .ofInt 0, .command .divide]
    let machine := start {}
    let answer := enact (evaluate program) machine
    answer.1 = .error .divideByZero ∧ machine.names = [] ∧ answer.2.names = [⟨"X"⟩] := by
  decide +kernel

end Session

end Calculator
