import Calculator.Machine
import Calculator.Proofs.Memory.Directory
import Mathlib

/-!
# Machines in the image of each other

Two machines may keep their objects in different ways and still do the same. A link says how:
what a reference of the first machine is in the second one, and which storages go together.
Machines are linked when their storages are and everything else in the second machine is the
image of what the first one holds. If the storages answer alike, then so do all actions, and
they leave linked machines behind.

There are two ways out. The storage of the first machine can be lost, which is for good and of
which nothing more is said. And where a link reports, an action may fail for want of memory.
-/

namespace Calculator

namespace Machine

variable {Store Reference Item Result : Type}

/-- The roots are the levels of the stack, the retained objects and the values of the
variables. -/
theorem mem_roots {machine : Machine Store Reference} {reference : Reference} :
    reference ∈ machine.roots ↔ reference ∈ machine.stack ∨ reference ∈ machine.retained ∨
      reference ∈ Directory.contents machine.tree := by
  rw [roots, List.mem_append, List.mem_append, or_assoc]

/-- What an action answers on a machine, and the machine after it. -/
def enact (action : ActionOn Store Reference Item) (machine : Machine Store Reference) :
    Outcome Item × Machine Store Reference :=
  action.run.run machine

/-- An action that succeeds is followed by the next one. -/
theorem enact_bind_ok {action : ActionOn Store Reference Item}
    {machine after : Machine Store Reference} {item : Item}
    (done : enact action machine = (.ok item, after))
    (next : Item → ActionOn Store Reference Result) :
    enact (action >>= next) machine = enact (next item) after := by
  unfold enact at done ⊢
  rw [ExceptT.run_bind, StateT.run_bind, done]
  rfl

/-- An action that fails is followed by nothing. -/
theorem enact_bind_error {action : ActionOn Store Reference Item}
    {machine after : Machine Store Reference} {fault : Fault}
    (failed : enact action machine = (.error fault, after))
    (next : Item → ActionOn Store Reference Result) :
    enact (action >>= next) machine = (.error fault, after) := by
  unfold enact at failed ⊢
  rw [ExceptT.run_bind, StateT.run_bind, failed]
  rfl

/-- An action that reads the state of the machine goes on in the same state. -/
theorem enact_get_bind (next : Machine Store Reference → ActionOn Store Reference Result)
    (machine : Machine Store Reference) :
    enact (get >>= next) machine = enact (next machine) machine :=
  rfl

/-- An action that reads the preferences goes on with them. -/
theorem enact_preferences_bind (next : Preferences → ActionOn Store Reference Result)
    (machine : Machine Store Reference) :
    enact (preferences >>= next) machine = enact (next machine.settings.toPreferences) machine :=
  rfl

/-- An action that succeeds needs no handler. -/
theorem enact_tryCatch_ok {action : ActionOn Store Reference Item}
    {machine after : Machine Store Reference} {item : Item}
    (done : enact action machine = (.ok item, after))
    (handler : Fault → ActionOn Store Reference Item) :
    enact (tryCatch action handler) machine = (.ok item, after) := by
  unfold enact at done ⊢
  simp only [tryCatch, tryCatchThe, MonadExceptOf.tryCatch, ExceptT.tryCatch, ExceptT.run_mk]
  rw [StateT.run_bind]
  change (ExceptT.run action).run machine >>= _ = _
  rw [done]
  rfl

/-- An action that fails is followed by its handler. -/
theorem enact_tryCatch_error {action : ActionOn Store Reference Item}
    {machine after : Machine Store Reference} {fault : Fault}
    (failed : enact action machine = (.error fault, after))
    (handler : Fault → ActionOn Store Reference Item) :
    enact (tryCatch action handler) machine = enact (handler fault) after := by
  unfold enact at failed ⊢
  simp only [tryCatch, tryCatchThe, MonadExceptOf.tryCatch, ExceptT.tryCatch, ExceptT.run_mk]
  rw [StateT.run_bind]
  change (ExceptT.run action).run machine >>= _ = _
  rw [failed]
  rfl

end Machine

/-- How the references and the storages of one machine stand for those of another. -/
structure Link (Store Reference Other Image : Type) where
  /-- What a reference is in the other machine. -/
  image : Store → Reference → Image
  /-- Whether the storage holds an object for a reference. -/
  Valid : Store → Reference → Prop
  /-- Whether two storages go together. -/
  Matched : Store → Other → Prop
  /-- Whether nothing more is said about a storage. -/
  Lost : Store → Prop
  /-- Whether actions may fail for want of memory. -/
  Reports : Prop

namespace Link

variable {Store Reference Other Image : Type} (link : Link Store Reference Other Image)

/-- Storages that go together, one of which came out of another storage. All that some roots
referred to is what it was. -/
structure Carried (roots : List Reference) (store next : Store) (other : Other) : Prop where
  matched : link.Matched next other
  valid : ∀ root ∈ roots, link.Valid next root
  same : ∀ root ∈ roots, link.image next root = link.image store root

/-- What two storages that go together make of an object. -/
inductive Placed (roots : List Reference) (store : Store) :
    Outcome Reference × Store → Outcome Image × Other → Prop
  | lost {outcome next answer} (gone : link.Lost next) : Placed roots store (outcome, next) answer
  | refused {next answer} (reports : link.Reports) :
      Placed roots store (.error .outOfMemory, next) answer
  | done {reference next other} (carried : link.Carried roots store next other)
      (valid : link.Valid next reference) :
      Placed roots store (.ok reference, next) (.ok (link.image next reference), other)
  | failed {fault next other} (carried : link.Carried roots store next other) :
      Placed roots store (.error fault, next) (.error fault, other)

/-- What a link must satisfy: storages that go together have the same values, and they answer
alike when they are to place an encoding or to give some objects up. A lost storage stays lost. -/
structure Lawful [Storage Store Reference] [Storage Other Image] : Prop where
  value {store : Store} {other : Other} {reference : Reference}
      (matched : link.Matched store other) (valid : link.Valid store reference) :
    Storage.valueOf other (link.image store reference) = Storage.valueOf store reference
  place {store : Store} {other : Other} {roots : List Reference} (value : Value)
      (matched : link.Matched store other) (valid : ∀ root ∈ roots, link.Valid store root) :
    link.Placed roots store (Storage.place store roots (Encoding.encode value))
      (Storage.place other (roots.map (link.image store)) (Encoding.encode value))
  collect {store : Store} {other : Other} {roots : List Reference}
      (matched : link.Matched store other) (valid : ∀ root ∈ roots, link.Valid store root) :
    link.Lost (Storage.collect store roots).2 ∨
      link.Carried roots store (Storage.collect store roots).2
        (Storage.collect other (roots.map (link.image store))).2
  placeLost {store : Store} (roots : List Reference) (object : List UInt8)
      (gone : link.Lost store) : link.Lost (Storage.place store roots object).2
  collectLost {store : Store} (roots : List Reference) (gone : link.Lost store) :
    link.Lost (Storage.collect store roots).2

/-- The second machine is the image of the first one, and both retain certain objects. Where
the link reports, no search takes a sample. -/
structure Linked (kept : List Reference) (images : List Image)
    (machine : Machine Store Reference) (other : Machine Other Image) : Prop where
  matched : link.Matched machine.storage other.storage
  valid : ∀ root ∈ machine.roots, link.Valid machine.storage root
  preferences : other.settings.toPreferences = machine.settings.toPreferences
  searchless : link.Reports → machine.settings.solverIterations = 0
  stack : other.stack = machine.stack.map (link.image machine.storage)
  retained : machine.retained = kept
  retainedImages : other.retained = images
  keptImages : images = kept.map (link.image machine.storage)
  tree : other.tree = Directory.map (link.image machine.storage) machine.tree
  path : other.path = machine.path
  lastFault : other.lastFault = machine.lastFault
  interruptRequested : other.interruptRequested = machine.interruptRequested
  nesting : other.nesting = machine.nesting

/-- What an action answers on a machine and on its image. -/
inductive Agreed {First Second : Type} (related : Store → First → Second → Prop)
    (kept : List Reference) (images : List Image) :
    Outcome First × Machine Store Reference → Outcome Second × Machine Other Image → Prop
  | lost {outcome machine answer} (gone : link.Lost machine.storage) :
      Agreed related kept images (outcome, machine) answer
  | refused {machine answer} (reports : link.Reports) :
      Agreed related kept images (.error .outOfMemory, machine) answer
  | done {first second machine other} (linked : link.Linked kept images machine other)
      (alike : related machine.storage first second) :
      Agreed related kept images (.ok first, machine) (.ok second, other)
  | failed {fault machine other} (linked : link.Linked kept images machine other) :
      Agreed related kept images (.error fault, machine) (.error fault, other)

/-- An action that does the same as another one on the image of a machine, with a result that
is related to the result there. -/
structure Relates {First Second : Type} (related : Store → First → Second → Prop)
    (action : ActionOn Store Reference First)
    (mirror : ActionOn Other Image Second) : Prop where
  lost (machine : Machine Store Reference) (gone : link.Lost machine.storage) :
    link.Lost (Machine.enact action machine).2.storage
  agreed {kept : List Reference} {images : List Image} {machine : Machine Store Reference}
      {other : Machine Other Image} (linked : link.Linked kept images machine other) :
    link.Agreed related kept images (Machine.enact action machine) (Machine.enact mirror other)

/-- An action that does the same as another one on the image of a machine, with the same
result. -/
abbrev Simulates {Item : Type} (action : ActionOn Store Reference Item)
    (mirror : ActionOn Other Image Item) : Prop :=
  link.Relates (fun _ => Eq) action mirror

/-- Machines on which nothing has happened are linked if their storages go together. -/
theorem linked_startOn {storage : Store} {otherStorage : Other} {settings otherSettings : Settings}
    (matched : link.Matched storage otherStorage)
    (preferences : otherSettings.toPreferences = settings.toPreferences)
    (searchless : link.Reports → settings.solverIterations = 0) :
    link.Linked [] [] (.startOn storage settings) (.startOn otherStorage otherSettings) where
  matched := matched
  valid _ among := absurd among List.not_mem_nil
  preferences := preferences
  searchless := searchless
  stack := rfl
  retained := rfl
  retainedImages := rfl
  keptImages := rfl
  tree := rfl
  path := rfl
  lastFault := rfl
  interruptRequested := rfl
  nesting := rfl

/-! ## Actions made of actions -/

section Combination

open Machine

variable {link} {First Second FirstResult SecondResult Item Result : Type}

/-- A storage that the first of two actions loses is lost after both. -/
theorem lost_bind {action : ActionOn Store Reference First}
    {next : First → ActionOn Store Reference FirstResult} {machine : Machine Store Reference}
    (gone : link.Lost (enact action machine).2.storage)
    (lost : ∀ first (machine : Machine Store Reference), link.Lost machine.storage →
      link.Lost (enact (next first) machine).2.storage) :
    link.Lost (enact (action >>= next) machine).2.storage := by
  rcases answer : enact action machine with ⟨outcome, after⟩
  rw [answer] at gone
  cases outcome with
  | ok first =>
    rw [enact_bind_ok answer]
    exact lost first after gone
  | error fault =>
    rw [enact_bind_error answer]
    exact gone

/-- A storage that an action loses is lost after the handler, too. -/
theorem lost_tryCatch {action : ActionOn Store Reference Item}
    {handler : Fault → ActionOn Store Reference Item} {machine : Machine Store Reference}
    (gone : link.Lost (enact action machine).2.storage)
    (lost : ∀ fault (machine : Machine Store Reference), link.Lost machine.storage →
      link.Lost (enact (handler fault) machine).2.storage) :
    link.Lost (enact (tryCatch action handler) machine).2.storage := by
  rcases answer : enact action machine with ⟨outcome, after⟩
  rw [answer] at gone
  cases outcome with
  | ok item =>
    rw [enact_tryCatch_ok answer]
    exact gone
  | error fault =>
    rw [enact_tryCatch_error answer]
    exact lost fault after gone

/-- Two actions in a row do the same if both do, the second one whatever the first one answers. -/
theorem Relates.bind {before : Store → First → Second → Prop}
    {related : Store → FirstResult → SecondResult → Prop}
    {action : ActionOn Store Reference First} {mirror : ActionOn Other Image Second}
    {next : First → ActionOn Store Reference FirstResult}
    {nextMirror : Second → ActionOn Other Image SecondResult}
    (heads : link.Relates before action mirror)
    (lost : ∀ first (machine : Machine Store Reference), link.Lost machine.storage →
      link.Lost (enact (next first) machine).2.storage)
    (tails : ∀ {kept images machine other first second},
      link.Linked kept images machine other → before machine.storage first second →
        link.Agreed related kept images (enact (next first) machine)
          (enact (nextMirror second) other)) :
    link.Relates related (action >>= next) (mirror >>= nextMirror) := by
  constructor
  · intro machine gone
    exact lost_bind (heads.lost machine gone) lost
  · intro kept images machine other linked
    have agreed := heads.agreed linked
    generalize answer : enact action machine = answered at agreed
    generalize answerMirror : enact mirror other = mirrored at agreed
    cases agreed with
    | lost gone => exact .lost (lost_bind (by rw [answer]; exact gone) lost)
    | refused reports =>
      rw [enact_bind_error answer]
      exact .refused reports
    | done linked alike =>
      rw [enact_bind_ok answer, enact_bind_ok answerMirror]
      exact tails linked alike
    | failed linked =>
      rw [enact_bind_error answer, enact_bind_error answerMirror]
      exact .failed linked

/-- Two actions in a row do the same if the first one does and the second one does the same
with the same argument. -/
theorem Simulates.bind {related : Store → FirstResult → SecondResult → Prop}
    {action : ActionOn Store Reference Item} {mirror : ActionOn Other Image Item}
    {next : Item → ActionOn Store Reference FirstResult}
    {nextMirror : Item → ActionOn Other Image SecondResult}
    (heads : link.Simulates action mirror)
    (tails : ∀ item, link.Relates related (next item) (nextMirror item)) :
    link.Relates related (action >>= next) (mirror >>= nextMirror) := by
  refine Relates.bind heads (fun item => (tails item).lost) ?_
  intro kept images machine other first second linked same
  subst same
  exact (tails first).agreed linked

/-- An action with a handler does the same if both do. Where the link reports, the handler must
not hide that there was no memory left. -/
theorem Simulates.tryCatch {action : ActionOn Store Reference Item}
    {mirror : ActionOn Other Image Item} {handler : Fault → ActionOn Store Reference Item}
    {handlerMirror : Fault → ActionOn Other Image Item} (body : link.Simulates action mirror)
    (handlers : ∀ fault, link.Simulates (handler fault) (handlerMirror fault))
    (honest : link.Reports → ∀ machine,
      (enact (handler .outOfMemory) machine).1 = .error .outOfMemory) :
    link.Simulates (tryCatch action handler) (tryCatch mirror handlerMirror) := by
  constructor
  · intro machine gone
    exact lost_tryCatch (body.lost machine gone) fun fault => (handlers fault).lost
  · intro kept images machine other linked
    have agreed := body.agreed linked
    generalize answer : enact action machine = answered at agreed
    generalize answerMirror : enact mirror other = mirrored at agreed
    cases agreed with
    | lost gone =>
      exact .lost (lost_tryCatch (by rw [answer]; exact gone) fun fault => (handlers fault).lost)
    | @refused after _ reports =>
      rw [enact_tryCatch_error answer]
      have told := honest reports after
      rcases final : enact (handler .outOfMemory) after with ⟨outcome, last⟩
      rw [final] at told
      obtain rfl : outcome = .error .outOfMemory := told
      exact .refused reports
    | done linked same =>
      rw [enact_tryCatch_ok answer, enact_tryCatch_ok answerMirror]
      exact .done linked same
    | failed linked =>
      rw [enact_tryCatch_error answer, enact_tryCatch_error answerMirror]
      exact (handlers _).agreed linked

/-- What an action answers without doing anything is the same. -/
theorem simulates_pure (item : Item) :
    link.Simulates (pure item : ActionOn Store Reference Item) (pure item) :=
  ⟨fun _ gone => gone, fun linked => .done linked rfl⟩

/-- Failing is the same. -/
theorem relates_throw {related : Store → First → Second → Prop} (fault : Fault) :
    link.Relates related (throw fault) (throw fault) :=
  ⟨fun _ gone => gone, fun linked => .failed linked⟩

/-- An outcome that does not depend on the machine is the same. -/
theorem simulates_require (outcome : Outcome Item) :
    link.Simulates (require outcome : ActionOn Store Reference Item) (require outcome) := by
  cases outcome with
  | ok item => exact simulates_pure item
  | error fault => exact relates_throw fault

/-- A check that fails in the same cases, with the same fault, may precede an action. -/
theorem Relates.guard {related : Store → First → Second → Prop} {condition : Prop}
    [Decidable condition] {fault : Fault} {next : Unit → ActionOn Store Reference First}
    {nextMirror : Unit → ActionOn Other Image Second}
    (passed : ¬ condition → link.Relates related (next ()) (nextMirror ())) :
    link.Relates related (if condition then throw fault >>= next else next ())
      (if condition then throw fault >>= nextMirror else nextMirror ()) := by
  by_cases refused : condition
  · rw [if_pos refused, if_pos refused]
    exact relates_throw fault
  · rw [if_neg refused, if_neg refused]
    exact passed refused

/-- What is read off a machine is the same if it is the same for linked machines. -/
theorem simulates_read {read : Machine Store Reference → Item}
    {readMirror : Machine Other Image → Item}
    (same : ∀ {kept images machine other}, link.Linked kept images machine other →
      read machine = readMirror other) :
    link.Simulates (do return read (← get)) (do return readMirror (← get)) :=
  ⟨fun _ gone => gone, fun linked => .done linked (same linked)⟩

/-- A change that leaves linked machines behind and does not touch the storage is the same. -/
theorem simulates_modify {change : Machine Store Reference → Machine Store Reference}
    {changeMirror : Machine Other Image → Machine Other Image}
    (storage : ∀ machine, (change machine).storage = machine.storage)
    (linked : ∀ {kept images machine other}, link.Linked kept images machine other →
      link.Linked kept images (change machine) (changeMirror other)) :
    link.Simulates (modify change) (modify changeMirror) := by
  refine ⟨fun machine gone => ?_, fun before => .done (linked before) rfl⟩
  change link.Lost (change machine).storage
  rw [storage]
  exact gone

end Combination

end Link

end Calculator
