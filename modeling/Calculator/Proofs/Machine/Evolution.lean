import Calculator.Proofs.Machine.Actions
import Mathlib

/-!
# How a machine changes

Whatever the actions do to a machine, they do it in a few kinds of changes: an object is taken
into the storage and put on the stack or under a name, levels are moved or taken away, a
directory is made, removed, entered or left, and a request to stop is answered. Only an
evaluation within an evaluation comes in a pair: the nesting is raised before it and lowered
after it, also if it fails.

A machine evolves by such changes and pairs. That every action evolves the machine is proved once;
what a single change and a pair preserve is then preserved by every action.
-/

namespace Calculator.Machine

variable {Store Reference : Type} [Storage Store Reference]

/-- A single change of a machine. -/
inductive Change : Machine Store Reference → Machine Store Reference → Prop
  /-- A value is handed to the storage, which may refuse it. Nothing comes to refer to it. -/
  | handed {machine} (value : Value) :
      Change machine { machine with
        storage := (Storage.place machine.storage machine.roots (Encoding.encode value)).2 }
  /-- A value is put on top of the stack. -/
  | pushed {machine} (value : Value) {reference : Reference} {storage : Store}
      (taken : Storage.place machine.storage machine.roots (Encoding.encode value) =
        (.ok reference, storage)) :
      Change machine { machine with storage, stack := reference :: machine.stack }
  /-- A value becomes a variable of the current directory. -/
  | stored {machine} (name : Symbol) (value : Value) {reference : Reference} {storage : Store}
      (vacant : machine.isDirectory name = false)
      (present : Directory.missing? machine.settings.caseSensitive machine.path machine.tree = none)
      (taken : Storage.place machine.storage machine.roots (Encoding.encode value) =
        (.ok reference, storage)) :
      Change machine { machine with
        storage
        tree := Directory.replaceAt machine.settings.caseSensitive
          (Directory.insert name (.value reference) machine.settings.caseSensitive machine.current)
          machine.path machine.tree }
  /-- The levels are moved, doubled or taken away. -/
  | rearranged {machine} (levels : List Reference)
      (among : ∀ reference ∈ levels, reference ∈ machine.stack) :
      Change machine { machine with stack := levels }
  /-- An entry of the current directory is removed. -/
  | removed {machine} (name : Symbol)
      (found : (Directory.find? machine.current name machine.settings.caseSensitive).isSome = true)
      (present : Directory.missing? machine.settings.caseSensitive machine.path machine.tree =
        none) :
      Change machine { machine with
        tree := Directory.replaceAt machine.settings.caseSensitive
          (Directory.remove machine.current name machine.settings.caseSensitive)
          machine.path machine.tree }
  /-- A subdirectory of the current directory is made. -/
  | founded {machine} (name : Symbol)
      (vacant : (Directory.find? machine.current name machine.settings.caseSensitive).isNone = true)
      (present : Directory.missing? machine.settings.caseSensitive machine.path machine.tree =
        none) :
      Change machine { machine with
        tree := Directory.replaceAt machine.settings.caseSensitive
          (Directory.insert name (.directory []) machine.settings.caseSensitive machine.current)
          machine.path machine.tree }
  /-- A subdirectory becomes the current directory. -/
  | entered {machine} (name : Symbol) (inside : machine.isDirectory name = true) :
      Change machine { machine with path := machine.path ++ [name] }
  /-- The directory around the current one becomes the current one. -/
  | ascended {machine} : Change machine { machine with path := machine.path.dropLast }
  /-- The outermost directory becomes the current one. -/
  | returned {machine} : Change machine { machine with path := [] }
  /-- A request to stop is answered. -/
  | answered {machine} : Change machine { machine with interruptRequested := false }

/-- One machine becomes another one by changes, and by evaluations within the present one. -/
inductive Evolves : Machine Store Reference → Machine Store Reference → Prop
  | unchanged {machine} : Evolves machine machine
  | change {machine next last} (first : Change machine next) (rest : Evolves next last) :
      Evolves machine last
  | nested {machine inner last}
      (room : machine.nesting < machine.settings.maxRecursion.toNat)
      (body : Evolves { machine with nesting := machine.nesting + 1 } inner)
      (rest : Evolves { inner with nesting := inner.nesting - 1 } last) :
      Evolves machine last

theorem Change.evolves {machine next : Machine Store Reference} (change : Change machine next) :
    Evolves machine next :=
  .change change .unchanged

theorem Evolves.trans {machine next last : Machine Store Reference}
    (first : Evolves machine next) (second : Evolves next last) : Evolves machine last := by
  induction first with
  | unchanged => exact second
  | change change _ inductionHypothesis => exact .change change (inductionHypothesis second)
  | nested room body _ _ inductionHypothesis => exact .nested room body (inductionHypothesis second)

/-- However a machine evolves, the settings and the nesting are what they were. An evaluation within
the present one puts the nesting back. -/
theorem Evolves.settings_nesting {before after : Machine Store Reference}
    (evolves : Evolves before after) :
    after.settings = before.settings ∧ after.nesting = before.nesting := by
  induction evolves with
  | unchanged => exact ⟨rfl, rfl⟩
  | change first _ inductionHypothesis =>
    refine ⟨inductionHypothesis.1.trans ?_, inductionHypothesis.2.trans ?_⟩
    · cases first <;> rfl
    · cases first <;> rfl
  | nested _ _ _ body rest =>
    exact ⟨rest.1.trans body.1, rest.2.trans (congrArg (· - 1) body.2)⟩

/-! ## Actions made of actions -/

/-- An action that evolves every machine it is enacted on. -/
def Evolving {Item : Type} (action : ActionOn Store Reference Item) : Prop :=
  ∀ machine, Evolves machine (enact action machine).2

section Combination

variable {Item Result : Type}

/-- What an action answers without doing anything changes nothing. -/
theorem evolving_pure (item : Item) : Evolving (pure item : ActionOn Store Reference Item) :=
  fun _ => .unchanged

/-- Failing changes nothing. -/
theorem evolving_throw (fault : Fault) : Evolving (throw fault : ActionOn Store Reference Item) :=
  fun _ => .unchanged

/-- An outcome that does not depend on the machine changes nothing. -/
theorem evolving_require (outcome : Outcome Item) :
    Evolving (require outcome : ActionOn Store Reference Item) := by
  cases outcome with
  | ok item => exact evolving_pure item
  | error fault => exact evolving_throw fault

/-- What an action does and then the next one, whatever the first one answered. -/
theorem evolves_bind {action : ActionOn Store Reference Item}
    {next : Item → ActionOn Store Reference Result} {machine : Machine Store Reference}
    (first : Evolves machine (enact action machine).2)
    (tails : ∀ item after, enact action machine = (.ok item, after) →
      Evolves after (enact (next item) after).2) :
    Evolves machine (enact (action >>= next) machine).2 := by
  rcases answer : enact action machine with ⟨outcome, after⟩
  rw [answer] at first
  cases outcome with
  | ok item =>
    rw [enact_bind_ok answer]
    exact first.trans (tails item after answer)
  | error fault =>
    rw [enact_bind_error answer]
    exact first

/-- Two actions in a row evolve a machine if both do. -/
theorem Evolving.bind {action : ActionOn Store Reference Item}
    {next : Item → ActionOn Store Reference Result} (head : Evolving action)
    (tails : ∀ item, Evolving (next item)) : Evolving (action >>= next) :=
  fun machine => evolves_bind (head machine) fun item after _ => tails item after

/-- An action with a handler evolves a machine if both do. -/
theorem Evolving.tryCatch {action : ActionOn Store Reference Item}
    {handler : Fault → ActionOn Store Reference Item} (body : Evolving action)
    (handlers : ∀ fault, Evolving (handler fault)) : Evolving (tryCatch action handler) := by
  intro machine
  have first := body machine
  rcases answer : enact action machine with ⟨outcome, after⟩
  rw [answer] at first
  cases outcome with
  | ok item =>
    rw [enact_tryCatch_ok answer]
    exact first
  | error fault =>
    rw [enact_tryCatch_error answer]
    exact first.trans (handlers fault after)

/-- A check may precede an action. -/
theorem Evolving.guard {condition : Prop} [Decidable condition] {fault : Fault}
    {next : Unit → ActionOn Store Reference Item}
    (passed : ¬ condition → Evolving (next ())) :
    Evolving (if condition then throw fault >>= next else next ()) := by
  by_cases refused : condition
  · rw [if_pos refused]
    exact evolving_throw fault
  · rw [if_neg refused]
    exact passed refused

/-- What is read off a machine changes nothing. -/
theorem evolving_read (read : Machine Store Reference → Item) :
    Evolving (do return read (← get)) :=
  fun _ => .unchanged

end Combination

/-! ## The stack -/

/-- The preferences change nothing. -/
theorem evolving_preferences : Evolving (preferences : ActionOn Store Reference Preferences) :=
  evolving_read _

/-- The number of levels changes nothing. -/
theorem evolving_depth : Evolving (depth : ActionOn Store Reference Nat) := evolving_read _

/-- Whether there are enough levels changes nothing. -/
theorem evolving_requireLevels (count : Nat) :
    Evolving (requireLevels count : ActionOn Store Reference Unit) := by
  refine evolving_depth.bind fun levels => ?_
  split
  · exact evolving_throw _
  · exact evolving_pure _

/-- To take levels away rearranges them. -/
theorem evolving_drop (count : Nat) :
    Evolving (drop count : ActionOn Store Reference Unit) :=
  (evolving_requireLevels count).bind fun _ machine =>
    (Change.rearranged (machine.stack.drop count) fun _ => List.mem_of_mem_drop).evolves

/-- To read a value changes nothing. -/
theorem evolving_value (reference : Reference) :
    Evolving (value reference : ActionOn Store Reference Value) := by
  intro machine
  rw [Link.enact_value]
  exact .unchanged

omit [Storage Store Reference] in
/-- What refers to a level is one of the levels, and to find it changes nothing. -/
theorem enact_levelHandle_ok {number : Nat} {machine after : Machine Store Reference}
    {reference : Reference} (found : enact (levelHandle number) machine = (.ok reference, after)) :
    after = machine ∧ reference ∈ machine.stack := by
  unfold levelHandle at found
  split at found
  · cases found
  · rw [enact_get_bind] at found
    cases level : machine.stack[number - 1]? with
    | none =>
      rw [level] at found
      cases found
    | some among =>
      rw [level] at found
      cases found
      exact ⟨rfl, List.mem_of_getElem? level⟩

/-- To find what refers to a level changes nothing. -/
theorem evolving_levelHandle (number : Nat) :
    Evolving (levelHandle number : ActionOn Store Reference Reference) := by
  unfold levelHandle
  refine Evolving.guard fun _ machine => ?_
  rw [enact_get_bind]
  split <;> exact .unchanged

/-- To put a level on top as well rearranges the levels. -/
theorem evolving_pick (number : Nat) :
    Evolving (pick number : ActionOn Store Reference Unit) := by
  intro machine
  refine evolves_bind (evolving_levelHandle number machine) fun reference after found => ?_
  obtain ⟨rfl, level⟩ := enact_levelHandle_ok found
  exact (Change.rearranged (reference :: after.stack)
    (List.forall_mem_cons.mpr ⟨level, fun _ => id⟩)).evolves

/-- To double the top two levels rearranges the levels. -/
theorem evolving_duplicate2 : Evolving (duplicate2 : ActionOn Store Reference Unit) :=
  (evolving_requireLevels 2).bind fun _ => (evolving_pick 2).bind fun _ => evolving_pick 2

/-- To exchange the top two levels rearranges them. -/
theorem evolving_swap : Evolving (swap : ActionOn Store Reference Unit) := by
  intro machine
  unfold swap
  rw [enact_get_bind]
  split
  · rename_i first second others levels
    refine (Change.rearranged (second :: first :: others) fun reference among => ?_).evolves
    rw [levels]
    exact (List.Perm.swap first second others).mem_iff.mp among
  · exact .unchanged

/-- To move the third level to the top rearranges the levels. -/
theorem evolving_rotate : Evolving (rotate : ActionOn Store Reference Unit) := by
  intro machine
  unfold rotate
  rw [enact_get_bind]
  split
  · rename_i first second third others levels
    refine (Change.rearranged (third :: first :: second :: others) fun reference among => ?_).evolves
    rw [levels]
    simp only [List.mem_cons] at among ⊢
    tauto
  · exact .unchanged

/-- To take all levels away rearranges them. -/
theorem evolving_clear : Evolving (clear : ActionOn Store Reference Unit) :=
  fun _ => (Change.rearranged [] (by simp)).evolves

/-- To take in a value either changes nothing or is up to the storage. -/
theorem enact_make (value : Value) (machine : Machine Store Reference) :
    (∃ fault, enact (make value) machine = (.error fault, machine)) ∨
      enact (make value) machine = enact (place (Encoding.encode value)) machine := by
  unfold make
  dsimp only
  cases Encoding.size (Encoding.encode value) with
  | error fault => exact .inl ⟨.malformed fault, rfl⟩
  | ok size =>
    rw [enact_bind_ok (rfl : enact (require ((Except.ok size).mapError Fault.malformed)) machine =
      (.ok size, machine))]
    split
    · exact .inl ⟨.malformed .sizeMismatch, rfl⟩
    · exact .inr rfl

/-- What has been taken in comes from the storage. -/
theorem enact_make_ok {value : Value} {machine after : Machine Store Reference}
    {reference : Reference} (taken : enact (make value) machine = (.ok reference, after)) :
    ∃ storage, Storage.place machine.storage machine.roots (Encoding.encode value) =
      (.ok reference, storage) ∧ after = { machine with storage } := by
  rcases enact_make value machine with ⟨fault, refused⟩ | placed
  · rw [refused] at taken
    cases taken
  · rw [placed, Link.enact_place] at taken
    obtain ⟨outcome, same⟩ := Prod.mk.inj taken
    exact ⟨_, Prod.ext outcome rfl, same.symm⟩

/-- To take in a value hands it to the storage. -/
theorem evolving_make (value : Value) :
    Evolving (make value : ActionOn Store Reference Reference) := by
  intro machine
  rcases enact_make value machine with ⟨fault, refused⟩ | placed
  · rw [refused]
    exact .unchanged
  · rw [placed, Link.enact_place]
    exact (Change.handed value).evolves

/-- A value that is taken in and then kept by a change makes for one change of the machine. -/
theorem evolves_make_bind {Item : Type} {value : Value}
    {next : Reference → ActionOn Store Reference Item} {machine : Machine Store Reference}
    (kept : ∀ reference storage, Storage.place machine.storage machine.roots
      (Encoding.encode value) = (.ok reference, storage) →
      Evolves machine (enact (next reference) { machine with storage }).2) :
    Evolves machine (enact (make value >>= next) machine).2 := by
  rcases answer : enact (make value) machine with ⟨outcome, after⟩
  cases outcome with
  | ok reference =>
    obtain ⟨storage, taken, rfl⟩ := enact_make_ok answer
    rw [enact_bind_ok answer]
    exact kept reference storage taken
  | error fault =>
    rw [enact_bind_error answer, ← congrArg Prod.snd answer]
    exact evolving_make value machine

/-- To put a value on top evolves the machine. -/
theorem evolving_push (value : Value) : Evolving (push value : ActionOn Store Reference Unit) :=
  fun _ => evolves_make_bind fun _ _ taken => (Change.pushed value taken).evolves

/-- The value on a level changes nothing. -/
theorem evolving_level (number : Nat) :
    Evolving (level number : ActionOn Store Reference Value) :=
  (evolving_levelHandle number).bind evolving_value

/-- To take the value on top away rearranges the levels. -/
theorem evolving_pop : Evolving (pop : ActionOn Store Reference Value) :=
  (evolving_level 1).bind fun _ machine =>
    (Change.rearranged (machine.stack.drop 1) fun _ => List.mem_of_mem_drop).evolves

/-- The values of the top levels change nothing. -/
theorem evolving_arguments (count : Nat) :
    Evolving (arguments count : ActionOn Store Reference (List Value)) := by
  refine (evolving_requireLevels count).bind fun _ machine => ?_
  rw [enact_get_bind, Link.enact_mapM_value]
  exact .unchanged

/-! ## Variables -/

/-- To change the current directory evolves the machine if the change that results does. -/
theorem evolves_changeCurrent {change : Directory Reference → Outcome (Directory Reference)}
    {before machine : Machine Store Reference} (still : Evolves before machine)
    (changed : ∀ entries, change machine.current = .ok entries →
      Directory.missing? machine.settings.caseSensitive machine.path machine.tree = none →
      Evolves before { machine with
        tree := Directory.replaceAt machine.settings.caseSensitive entries machine.path
          machine.tree }) :
    Evolves before (enact (changeCurrent change) machine).2 := by
  unfold changeCurrent
  rw [enact_get_bind]
  dsimp only
  split
  · exact still
  · rename_i present
    cases entered : change machine.current with
    | error fault => exact still
    | ok entries => exact changed entries entered present

/-- To remove an entry evolves the machine. -/
theorem evolving_purge (name : Symbol) :
    Evolving (purge name : ActionOn Store Reference Unit) := by
  intro machine
  unfold purge
  rw [enact_preferences_bind]
  refine evolves_changeCurrent .unchanged fun entries changed present => ?_
  split at changed
  · cases changed
  · rename_i found
    cases changed
    rw [Bool.not_eq_true, Option.isNone_eq_false_iff] at found
    exact (Change.removed name found present).evolves

/-- To make a directory evolves the machine. -/
theorem evolving_createDirectory (name : Symbol) :
    Evolving (createDirectory name : ActionOn Store Reference Unit) := by
  intro machine
  unfold createDirectory
  rw [enact_preferences_bind]
  refine evolves_changeCurrent .unchanged fun entries changed present => ?_
  split at changed
  · cases changed
  · rename_i vacant
    cases changed
    rw [Bool.not_eq_true, Option.isSome_eq_false_iff] at vacant
    exact (Change.founded name vacant present).evolves

/-- To enter a directory evolves the machine. -/
theorem evolving_enter (name : Symbol) :
    Evolving (enter name : ActionOn Store Reference Bool) := by
  intro machine
  unfold enter
  rw [enact_get_bind]
  split
  · rename_i inside
    exact (Change.entered name inside).evolves
  · exact .unchanged

/-- To leave a directory evolves the machine. -/
theorem evolving_upDirectory : Evolving (upDirectory : ActionOn Store Reference Unit) :=
  fun _ => Change.ascended.evolves

/-- To go to the outermost directory evolves the machine. -/
theorem evolving_home : Evolving (home : ActionOn Store Reference Unit) :=
  fun _ => Change.returned.evolves

/-- The value of a variable changes nothing. -/
theorem evolving_fetch? (name : Symbol) :
    Evolving (fetch? name : ActionOn Store Reference (Option Value)) :=
  evolving_read _

/-- To store a value evolves the machine. -/
theorem evolving_store (name : Symbol) (value : Value) :
    Evolving (store name value : ActionOn Store Reference Unit) := by
  intro machine
  unfold store
  rw [enact_preferences_bind, enact_get_bind]
  split
  · exact .unchanged
  · rename_i vacant
    rw [Bool.not_eq_true] at vacant
    refine evolves_make_bind fun reference storage taken => evolves_changeCurrent ?_ ?_
    · have handed : Change machine { machine with
          storage := (Storage.place machine.storage machine.roots (Encoding.encode value)).2 } :=
        .handed value
      rw [taken] at handed
      exact handed.evolves
    · intro entries inserted present
      obtain rfl := Except.ok.inj inserted
      exact (Change.stored name value vacant present taken).evolves

end Calculator.Machine
