import Calculator.Machine.Stack
import Calculator.Machine.Variables
import Calculator.Proofs.Machine.Simulation
import Mathlib

/-!
# Linked machines do the same

Every action on the stack and on the variables does the same on linked machines. What each of
them needs is that the objects it may still ask for are among those that a collection spares:
the levels of the stack, the retained objects, and the values of all directories.
-/

namespace Calculator.Link

open Machine

variable {Store Reference Other Image : Type} {link : Link Store Reference Other Image}
variable {kept : List Reference} {images : List Image}
variable {machine : Machine Store Reference} {other : Machine Other Image}

/-- A valid reference and what it is in the other machine. -/
def Stands (link : Link Store Reference Other Image) (store : Store) (reference : Reference)
    (image : Image) : Prop :=
  link.Valid store reference ∧ link.image store reference = image

/-! ## Parts of linked machines -/

/-- The levels of the stack are valid. -/
theorem Linked.validLevel (linked : link.Linked kept images machine other) {reference : Reference}
    (level : reference ∈ machine.stack) : link.Valid machine.storage reference :=
  linked.valid reference (mem_roots.mpr (.inl level))

/-- The retained objects are valid. -/
theorem Linked.validRetained (linked : link.Linked kept images machine other)
    {reference : Reference} (retained : reference ∈ kept) :
    link.Valid machine.storage reference := by
  rw [← linked.retained] at retained
  exact linked.valid reference (mem_roots.mpr (.inr (.inl retained)))

/-- The values of the variables are valid. -/
theorem Linked.validContent (linked : link.Linked kept images machine other)
    {reference : Reference} (held : reference ∈ Directory.contents machine.tree) :
    link.Valid machine.storage reference :=
  linked.valid reference (mem_roots.mpr (.inr (.inr held)))

/-- The roots of the second machine are the images of those of the first one. -/
theorem Linked.roots (linked : link.Linked kept images machine other) :
    other.roots = machine.roots.map (link.image machine.storage) := by
  unfold Machine.roots
  rw [linked.stack, linked.retainedImages, linked.keptImages, linked.retained, linked.tree,
    Directory.contents_map, List.map_append, List.map_append]

/-- Linked machines agree on the sensitivity to case. -/
theorem Linked.caseSensitive (linked : link.Linked kept images machine other) :
    other.settings.caseSensitive = machine.settings.caseSensitive :=
  congrArg Preferences.caseSensitive linked.preferences

/-- Valid levels may take the place of the stack. -/
theorem Linked.setStack (linked : link.Linked kept images machine other)
    {levels : List Reference}
    (valid : ∀ reference ∈ levels, link.Valid machine.storage reference) :
    link.Linked kept images { machine with stack := levels }
      { other with stack := levels.map (link.image machine.storage) } := by
  refine { linked with valid := ?_, stack := rfl }
  intro root among
  rcases mem_roots.mp among with level | retained | held
  · exact valid root level
  · exact linked.validRetained (linked.retained ▸ retained)
  · exact linked.validContent held

/-- A valid reference may be put on top of the stack. -/
theorem Linked.putLevel (linked : link.Linked kept images machine other) {reference : Reference}
    (valid : link.Valid machine.storage reference) :
    link.Linked kept images { machine with stack := reference :: machine.stack }
      { other with stack := link.image machine.storage reference :: other.stack } := by
  have set := linked.setStack (List.forall_mem_cons.mpr ⟨valid, fun _ => linked.validLevel⟩)
  rwa [List.map_cons, ← linked.stack] at set

/-- Levels of the stack may take the place of the stack. -/
theorem Linked.rearrange (linked : link.Linked kept images machine other)
    {levels : List Reference} {levelImages : List Image}
    (among : ∀ reference ∈ levels, reference ∈ machine.stack)
    (same : levelImages = levels.map (link.image machine.storage)) :
    link.Linked kept images { machine with stack := levels }
      { other with stack := levelImages } := by
  subst same
  exact linked.setStack fun reference level => linked.validLevel (among reference level)

/-- A tree of valid values may take the place of the variables. -/
theorem Linked.setTree (linked : link.Linked kept images machine other)
    {tree : Directory Reference}
    (valid : ∀ reference ∈ Directory.contents tree, link.Valid machine.storage reference) :
    link.Linked kept images { machine with tree }
      { other with tree := Directory.map (link.image machine.storage) tree } := by
  refine { linked with valid := ?_, tree := rfl }
  intro root among
  rcases mem_roots.mp among with level | retained | held
  · exact linked.validLevel level
  · exact linked.validRetained (linked.retained ▸ retained)
  · exact valid root held

/-- Storages that go together and spared the roots may take the place of the storages. -/
theorem Linked.setStorage (linked : link.Linked kept images machine other) {next : Store}
    {nextOther : Other}
    (carried : link.Carried machine.roots machine.storage next nextOther) :
    link.Linked kept images { machine with storage := next }
      { other with storage := nextOther } := by
  have among (references : List Reference) (rooted : ∀ root ∈ references, root ∈ machine.roots) :
      references.map (link.image machine.storage) = references.map (link.image next) :=
    List.map_congr_left fun root member => (carried.same root (rooted root member)).symm
  refine { linked with
    matched := carried.matched, valid := carried.valid, stack := ?_, keptImages := ?_, tree := ?_ }
  · exact linked.stack.trans (among machine.stack fun root level => mem_roots.mpr (.inl level))
  · refine linked.keptImages.trans (among kept fun root retained => ?_)
    rw [← linked.retained] at retained
    exact mem_roots.mpr (.inr (.inl retained))
  · exact linked.tree.trans (Directory.map_congr machine.tree fun root held =>
      (carried.same root (mem_roots.mpr (.inr (.inr held)))).symm)

/-! ## Levels of the stack -/

/-- An action that goes on from the state of the machine does the same if it does so in linked
states. -/
theorem relates_get {First Second : Type} {related : Store → First → Second → Prop}
    {next : Machine Store Reference → ActionOn Store Reference First}
    {nextMirror : Machine Other Image → ActionOn Other Image Second}
    (lost : ∀ machine, link.Lost machine.storage →
      link.Lost (enact (next machine) machine).2.storage)
    (tails : ∀ {kept images machine other}, link.Linked kept images machine other →
      link.Agreed related kept images (enact (next machine) machine)
        (enact (nextMirror other) other)) :
    link.Relates related (get >>= next) (get >>= nextMirror) :=
  ⟨lost, tails⟩

/-- The preferences are the same. -/
theorem simulates_preferences :
    link.Simulates (preferences : ActionOn Store Reference Preferences) preferences :=
  simulates_read fun linked => linked.preferences.symm

/-- The number of levels is the same. -/
theorem simulates_depth : link.Simulates (depth : ActionOn Store Reference Nat) depth :=
  simulates_read fun linked => by rw [linked.stack, List.length_map]

/-- Whether there are enough levels is the same. -/
theorem simulates_requireLevels (count : Nat) :
    link.Simulates (requireLevels count : ActionOn Store Reference Unit) (requireLevels count) := by
  refine simulates_depth.bind fun levels => ?_
  split
  · exact relates_throw _
  · exact simulates_pure _

/-- Taking levels away does the same. -/
theorem simulates_drop (count : Nat) :
    link.Simulates (drop count : ActionOn Store Reference Unit) (drop count) := by
  refine (simulates_requireLevels count).bind fun _ => relates_get (fun _ gone => gone) ?_
  intro kept images machine other linked
  refine .done (linked.rearrange (fun _ => List.mem_of_mem_drop) ?_) rfl
  rw [linked.stack, List.map_drop]

/-- What refers to a level does the same. -/
theorem relates_levelHandle (level : Nat) :
    link.Relates link.Stands (levelHandle level) (levelHandle level) := by
  unfold levelHandle
  refine Relates.guard fun _ => relates_get ?_ ?_
  · intro machine gone
    split <;> exact gone
  · intro kept images machine other linked
    rw [linked.stack, List.getElem?_map]
    cases found : machine.stack[level - 1]? with
    | none => exact .failed linked
    | some reference =>
      exact .done linked ⟨linked.validLevel (List.mem_of_getElem? found), rfl⟩

/-- Putting a level on top as well does the same. -/
theorem simulates_pick (level : Nat) :
    link.Simulates (pick level : ActionOn Store Reference Unit) (pick level) := by
  refine (relates_levelHandle level).bind (fun _ _ gone => gone) ?_
  rintro kept images machine other reference image linked ⟨valid, rfl⟩
  exact .done (linked.putLevel valid) rfl

/-- Doubling the top two levels does the same. -/
theorem simulates_duplicate2 :
    link.Simulates (duplicate2 : ActionOn Store Reference Unit) duplicate2 :=
  (simulates_requireLevels 2).bind fun _ => (simulates_pick 2).bind fun _ => simulates_pick 2

/-- Exchanging the top two levels does the same. -/
theorem simulates_swap : link.Simulates (swap : ActionOn Store Reference Unit) swap := by
  refine relates_get ?_ ?_
  · intro machine gone
    split <;> exact gone
  · intro kept images machine other linked
    have levels := linked.stack
    rcases stack : machine.stack with _ | ⟨first, _ | ⟨second, others⟩⟩
    all_goals rw [stack] at levels
    all_goals rw [levels]
    · exact .failed linked
    · exact .failed linked
    · refine .done (linked.rearrange ?_ rfl) rfl
      intro reference among
      rw [stack]
      exact (List.Perm.swap first second others).mem_iff.mp among

/-- Moving the third level to the top does the same. -/
theorem simulates_rotate : link.Simulates (rotate : ActionOn Store Reference Unit) rotate := by
  refine relates_get ?_ ?_
  · intro machine gone
    split <;> exact gone
  · intro kept images machine other linked
    have levels := linked.stack
    rcases stack : machine.stack with _ | ⟨first, _ | ⟨second, _ | ⟨third, others⟩⟩⟩
    all_goals rw [stack] at levels
    all_goals rw [levels]
    · exact .failed linked
    · exact .failed linked
    · exact .failed linked
    · refine .done (linked.rearrange ?_ rfl) rfl
      intro reference among
      rw [stack]
      simp only [List.mem_cons] at among ⊢
      tauto

/-- Taking all levels away does the same. -/
theorem simulates_clear : link.Simulates (clear : ActionOn Store Reference Unit) clear :=
  simulates_modify (fun _ => rfl) fun linked => linked.rearrange (by simp) rfl

/-! ## Objects -/

section Objects

variable [Storage Store Reference] [Storage Other Image]

/-- To place an object changes the storage and answers what the storage does. -/
theorem enact_place (object : List UInt8) (machine : Machine Store Reference) :
    enact (place object) machine =
      ((Storage.place machine.storage machine.roots object).1,
        { machine with
          storage := (Storage.place machine.storage machine.roots object).2 }) := by
  rcases answer : Storage.place machine.storage machine.roots object with ⟨outcome, storage⟩
  unfold place
  rw [enact_get_bind]
  cases outcome <;> (rw [answer]; rfl)

/-- To read a value changes nothing. -/
theorem enact_value (reference : Reference) (machine : Machine Store Reference) :
    enact (value reference) machine = (machine.valueOf reference, machine) := by
  unfold value
  rw [enact_get_bind]
  cases machine.valueOf reference <;> rfl

/-- To read some values changes nothing. -/
theorem enact_mapM_value (references : List Reference) (machine : Machine Store Reference) :
    enact (references.mapM value) machine = (references.mapM machine.valueOf, machine) := by
  induction references with
  | nil => rfl
  | cons reference references inductionHypothesis =>
    rw [List.mapM_cons, List.mapM_cons]
    have head := enact_value reference machine
    cases answer : machine.valueOf reference with
    | error fault =>
      rw [answer] at head
      exact enact_bind_error head _
    | ok first =>
      rw [answer] at head
      rw [enact_bind_ok head]
      cases answers : references.mapM machine.valueOf with
      | error fault =>
        rw [answers] at inductionHypothesis
        exact enact_bind_error inductionHypothesis _
      | ok others =>
        rw [answers] at inductionHypothesis
        exact (enact_bind_ok inductionHypothesis _).trans rfl

variable (lawful : link.Lawful)
include lawful

/-- To place an encoding does the same: the references that come of it stand for each other. -/
theorem relates_place (value : Value) :
    link.Relates link.Stands (place (Encoding.encode value)) (place (Encoding.encode value)) := by
  constructor
  · intro machine gone
    rw [enact_place]
    exact lawful.placeLost machine.roots _ gone
  · intro kept images machine other linked
    have placed := lawful.place value linked.matched linked.valid
    rw [enact_place, enact_place, linked.roots]
    generalize Storage.place machine.storage machine.roots (Encoding.encode value) = first at placed
    generalize Storage.place other.storage (machine.roots.map (link.image machine.storage))
      (Encoding.encode value) = second at placed
    cases placed with
    | lost gone => exact .lost gone
    | refused reports => exact .refused reports
    | done carried valid => exact .done (linked.setStorage carried) ⟨valid, rfl⟩
    | failed carried => exact .failed (linked.setStorage carried)

/-- To take in a value does the same. -/
theorem relates_make (value : Value) : link.Relates link.Stands (make value) (make value) := by
  refine (simulates_require _).bind fun size => ?_
  exact Relates.guard fun _ => relates_place lawful value

/-- A collection does the same, apart from the number of bytes it gives back. -/
theorem relates_collect : link.Relates (fun _ _ _ => True) collect collect := by
  constructor
  · intro machine gone
    exact lawful.collectLost machine.roots gone
  · intro kept images machine other linked
    have collected := lawful.collect linked.matched linked.valid
    rw [← linked.roots] at collected
    rcases collected with gone | carried
    · exact .lost gone
    · exact .done (linked.setStorage carried) trivial

/-- References that stand for each other have the same value. -/
theorem Lawful.valueOf (linked : link.Linked kept images machine other) {reference : Reference}
    (valid : link.Valid machine.storage reference) :
    other.valueOf (link.image machine.storage reference) = machine.valueOf reference :=
  lawful.value linked.matched valid

/-- References that stand for each other have the same values. -/
theorem Lawful.mapM_valueOf (linked : link.Linked kept images machine other)
    {references : List Reference}
    (valid : ∀ reference ∈ references, link.Valid machine.storage reference) :
    (references.map (link.image machine.storage)).mapM other.valueOf =
      references.mapM machine.valueOf := by
  induction references with
  | nil => rfl
  | cons reference references inductionHypothesis =>
    obtain ⟨first, rest⟩ := List.forall_mem_cons.mp valid
    rw [List.map_cons, List.mapM_cons, List.mapM_cons, lawful.valueOf linked first,
      inductionHypothesis rest]

/-- Putting a value on top does the same. -/
theorem simulates_push (value : Value) : link.Simulates (push value) (push value) := by
  refine (relates_make lawful value).bind (fun _ _ gone => gone) ?_
  rintro kept images machine other reference image linked ⟨valid, rfl⟩
  exact .done (linked.putLevel valid) rfl

/-- The value on a level is the same. -/
theorem simulates_level (level : Nat) :
    link.Simulates (Machine.level level) (Machine.level level) := by
  refine (relates_levelHandle level).bind (fun reference machine gone => ?_) ?_
  · rw [enact_value]
    exact gone
  · rintro kept images machine other reference image linked ⟨valid, rfl⟩
    rw [enact_value, enact_value, lawful.valueOf linked valid]
    cases machine.valueOf reference with
    | ok value => exact .done linked rfl
    | error fault => exact .failed linked

/-- Taking the value on top away does the same. -/
theorem simulates_pop : link.Simulates pop pop := by
  refine (simulates_level lawful 1).bind fun result => relates_get (fun _ gone => gone) ?_
  intro kept images machine other linked
  refine .done (linked.rearrange (fun _ => List.mem_of_mem_drop) ?_) rfl
  rw [linked.stack, List.map_drop]

/-- The values of the top levels are the same. -/
theorem simulates_arguments (count : Nat) :
    link.Simulates (arguments count) (arguments count) := by
  refine (simulates_requireLevels count).bind fun _ => relates_get (fun machine gone => ?_) ?_
  · rw [enact_mapM_value]
    exact gone
  · intro kept images machine other linked
    have levels : (other.stack.take count).reverse =
        (machine.stack.take count).reverse.map (link.image machine.storage) := by
      rw [linked.stack, List.map_reverse, List.map_take]
    have among : ∀ reference ∈ (machine.stack.take count).reverse, reference ∈ machine.stack :=
      fun reference member => List.mem_of_mem_take (List.mem_reverse.mp member)
    rw [enact_mapM_value, enact_mapM_value, levels,
      lawful.mapM_valueOf linked fun reference member => linked.validLevel (among reference member)]
    cases (machine.stack.take count).reverse.mapM machine.valueOf with
    | ok values => exact .done linked rfl
    | error fault => exact .failed linked

end Objects

/-! ## Variables -/

/-- The current directory of the second machine is the image of that of the first one. -/
theorem Linked.current (linked : link.Linked kept images machine other) :
    other.current = Directory.map (link.image machine.storage) machine.current := by
  unfold Machine.current
  rw [linked.tree, linked.path, linked.caseSensitive, Directory.along_map]

/-- What is a subdirectory is the same. -/
theorem Linked.isDirectory (linked : link.Linked kept images machine other) (name : Symbol) :
    other.isDirectory name = machine.isDirectory name := by
  unfold Machine.isDirectory
  rw [linked.current, linked.caseSensitive, Directory.subdirectory?_map, Option.isSome_map]

/-- A variable of a directory refers to the image of what it referred to. -/
theorem referenceIn?_map (image : Reference → Image) (entries : Directory Reference)
    (name : Symbol) (caseSensitive : Bool) :
    referenceIn? (Directory.map image entries) name caseSensitive =
      (referenceIn? entries name caseSensitive).map image := by
  unfold referenceIn?
  rw [Directory.find?_map]
  cases Directory.find? entries name caseSensitive with
  | none => rfl
  | some entry => cases entry <;> rfl

/-- What a name stands for in the second machine is the image of what it stands for in the
first one. -/
theorem Linked.reference? (linked : link.Linked kept images machine other) (name : Symbol) :
    other.reference? name = (machine.reference? name).map (link.image machine.storage) := by
  unfold Machine.reference? Machine.directories
  rw [linked.tree, linked.path, linked.caseSensitive, Directory.chain_map, ← List.map_reverse,
    List.findSome?_map, List.map_findSome?]
  congr 1
  funext entries
  exact referenceIn?_map _ entries name _

/-- What a name stands for is one of the variables. -/
theorem mem_contents_of_reference? {name : Symbol} {reference : Reference}
    (found : machine.reference? name = some reference) :
    reference ∈ Directory.contents machine.tree := by
  obtain ⟨entries, among, inside⟩ := List.exists_of_findSome?_eq_some found
  refine Directory.mem_contents_of_chain (List.mem_reverse.mp among) ?_
  unfold referenceIn? at inside
  split at inside
  · rename_i held
    obtain rfl := Option.some.inj inside
    exact Directory.mem_contents_of_find? held
  · simp at inside

/-- A change of the current directory does not touch the storage. -/
theorem storage_changeCurrent
    (change : Directory Reference → Outcome (Directory Reference))
    (machine : Machine Store Reference) :
    (enact (changeCurrent change) machine).2.storage = machine.storage := by
  unfold changeCurrent
  rw [enact_get_bind]
  dsimp only
  split
  · rfl
  · cases change machine.current <;> rfl

/-- A change of the current directory does the same if it does so with the directory and its
image, and brings in valid values only. -/
theorem Linked.changeCurrent (linked : link.Linked kept images machine other)
    {change : Directory Reference → Outcome (Directory Reference)}
    {changeMirror : Directory Image → Outcome (Directory Image)}
    (same : changeMirror (Directory.map (link.image machine.storage) machine.current) =
      (change machine.current).map (Directory.map (link.image machine.storage)))
    (valid : ∀ entries, change machine.current = .ok entries →
      ∀ reference ∈ Directory.contents entries, link.Valid machine.storage reference) :
    link.Agreed (fun _ => Eq) kept images (enact (Machine.changeCurrent change) machine)
      (enact (Machine.changeCurrent changeMirror) other) := by
  unfold Machine.changeCurrent
  rw [enact_get_bind, enact_get_bind]
  dsimp only
  rw [linked.current, same, linked.tree, linked.path, linked.caseSensitive, Directory.missing?_map]
  split
  · exact .failed linked
  · cases changed : change machine.current with
    | error fault => exact .failed linked
    | ok entries =>
      have replaced : ∀ reference ∈ Directory.contents (Directory.replaceAt
          machine.settings.caseSensitive entries machine.path machine.tree),
          link.Valid machine.storage reference := by
        intro reference held
        rcases Directory.mem_contents_of_replaceAt held with held | held
        · exact valid entries changed reference held
        · exact linked.validContent held
      have set := linked.setTree replaced
      rw [← Directory.replaceAt_map, linked.path] at set
      exact .done set rfl

/-- A change of the current directory that treats all values alike and brings in none does the
same. -/
theorem simulates_changeCurrent {change : Directory Reference → Outcome (Directory Reference)}
    {changeMirror : Directory Image → Outcome (Directory Image)}
    (same : ∀ (image : Reference → Image) entries,
      changeMirror (Directory.map image entries) = (change entries).map (Directory.map image))
    (among : ∀ entries changed, change entries = .ok changed →
      ∀ reference ∈ Directory.contents changed, reference ∈ Directory.contents entries) :
    link.Simulates (changeCurrent change) (changeCurrent changeMirror) := by
  constructor
  · intro machine gone
    rw [storage_changeCurrent]
    exact gone
  · intro kept images machine other linked
    refine linked.changeCurrent (same _ _) fun entries changed reference held => ?_
    exact linked.validContent (Directory.mem_contents_of_along
      (among machine.current entries changed reference held))

/-- Removing a variable does the same. -/
theorem simulates_purge (name : Symbol) :
    link.Simulates (purge name : ActionOn Store Reference Unit) (purge name) := by
  refine simulates_preferences.bind fun settings => simulates_changeCurrent ?_ ?_
  · intro image entries
    rw [Directory.find?_map, Option.isNone_map, Directory.remove_map]
    split <;> rfl
  · intro entries changed done reference held
    split at done
    · simp at done
    · obtain rfl := Except.ok.inj done
      exact Directory.mem_contents_of_remove held

/-- Making a directory does the same. -/
theorem simulates_createDirectory (name : Symbol) :
    link.Simulates (createDirectory name : ActionOn Store Reference Unit)
      (createDirectory name) := by
  refine simulates_preferences.bind fun settings => simulates_changeCurrent ?_ ?_
  · intro image entries
    rw [Directory.find?_map, Option.isSome_map]
    split
    · rfl
    · exact congrArg Except.ok
        (Directory.insert_map image name (.directory []) settings.caseSensitive entries)
  · intro entries changed done reference held
    split at done
    · simp at done
    · obtain rfl := Except.ok.inj done
      rcases Directory.mem_contents_of_insert held with held | held
      · simp [Directory.contentsOfEntry, Directory.contents] at held
      · exact held

/-- Entering a directory does the same. -/
theorem simulates_enter (name : Symbol) :
    link.Simulates (enter name : ActionOn Store Reference Bool) (enter name) := by
  refine relates_get ?_ ?_
  · intro machine gone
    split <;> exact gone
  · intro kept images machine other linked
    rw [linked.isDirectory]
    split
    · exact .done { linked with path := congrArg (· ++ [name]) linked.path } rfl
    · exact .done linked rfl

/-- Leaving a directory does the same. -/
theorem simulates_upDirectory :
    link.Simulates (upDirectory : ActionOn Store Reference Unit) upDirectory :=
  simulates_modify (fun _ => rfl) fun linked =>
    { linked with path := congrArg List.dropLast linked.path }

/-- Going to the outermost directory does the same. -/
theorem simulates_home : link.Simulates (home : ActionOn Store Reference Unit) home :=
  simulates_modify (fun _ => rfl) fun linked => { linked with path := rfl }

section Values

variable [Storage Store Reference] [Storage Other Image] (lawful : link.Lawful)
include lawful

/-- The values of variables are the same. -/
theorem Lawful.lookup? (linked : link.Linked kept images machine other) (name : Symbol) :
    other.lookup? name = machine.lookup? name := by
  unfold Machine.lookup?
  rw [linked.reference?]
  cases found : machine.reference? name with
  | none => rfl
  | some reference =>
    have valid := linked.validContent (mem_contents_of_reference? found)
    rw [Option.map_some]
    dsimp only
    rw [lawful.valueOf linked valid]

/-- The value of a variable is the same. -/
theorem simulates_fetch? (name : Symbol) : link.Simulates (fetch? name) (fetch? name) :=
  simulates_read fun linked => (lawful.lookup? linked name).symm

/-- Taking in a value and inserting it into the current directory does the same. -/
theorem simulates_insert (name : Symbol) (value : Value) (caseSensitive : Bool) :
    link.Simulates
      (do
        let reference ← make value
        changeCurrent fun entries =>
          .ok (Directory.insert name (.value reference) caseSensitive entries))
      (do
        let reference ← make value
        changeCurrent fun entries =>
          .ok (Directory.insert name (.value reference) caseSensitive entries)) := by
  refine (relates_make lawful value).bind (fun reference machine gone => ?_) ?_
  · rw [storage_changeCurrent]
    exact gone
  · rintro kept images machine other reference image linked ⟨valid, rfl⟩
    refine linked.changeCurrent ?_ ?_
    · exact congrArg Except.ok (Directory.insert_map (link.image machine.storage) name
        (.value reference) caseSensitive machine.current)
    · intro entries changed content held
      obtain rfl := Except.ok.inj changed
      rcases Directory.mem_contents_of_insert held with held | held
      · rw [Directory.contentsOfEntry, List.mem_singleton] at held
        exact held ▸ valid
      · exact linked.validContent (Directory.mem_contents_of_along held)

/-- Storing a value does the same. -/
theorem simulates_store (name : Symbol) (value : Value) :
    link.Simulates (store name value) (store name value) := by
  refine simulates_preferences.bind fun settings => relates_get (fun machine gone => ?_) ?_
  · dsimp only
    split
    · exact gone
    · exact (simulates_insert lawful name value settings.caseSensitive).lost machine gone
  · intro kept images machine other linked
    dsimp only
    rw [linked.isDirectory]
    split
    · exact .failed linked
    · exact (simulates_insert lawful name value settings.caseSensitive).agreed linked

end Values

end Calculator.Link
