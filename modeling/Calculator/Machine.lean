import Calculator.Encoding.Reader
import Calculator.Memory.Directory
import Calculator.Memory.Heap
import Calculator.Settings

/-!
# The machine

The state that lines of input work on, and the actions that use it. The levels of the
stack and the variables are references to objects: a value is encoded when it enters the
machine and decoded when it is read, so the same object may stand on several levels.

What keeps the objects is left open. Unless something else is said it is the heap, and the
references are its handles.

An action that fails keeps the changes it made before. What has to be undone is undone
by whoever started it.
-/

namespace Calculator

/-- What a machine keeps its objects in, and by what it refers to them. -/
class Storage (Store Reference : Type) where
  /-- Takes in the encoding of an object. Objects that none of the roots refers to may be
  given up for that. -/
  place : Store → List Reference → List UInt8 → Outcome Reference × Store
  /-- The value of the object that is referred to. -/
  valueOf : Store → Reference → Outcome Value
  /-- Gives up the objects that none of the roots refers to. Tells how many bytes that gave
  back. -/
  collect : Store → List Reference → Nat × Store

/-- The value of the object behind a handle. -/
def Heap.valueOf (heap : Heap) (handle : Handle) : Outcome Value :=
  match heap.get? handle with
  | some object => (Encoding.decode object).mapError Fault.malformed |>.map Prod.fst
  | none => .error .invalidHandle

instance : Storage Heap Handle where
  place heap roots object :=
    match heap.place? roots object with
    | (some handle, heap) => (.ok handle, heap)
    | (none, heap) => (.error .outOfMemory, heap)
  valueOf := Heap.valueOf
  collect := Heap.collect

/-- The state of the calculator. -/
structure Machine (Store : Type := Heap) (Reference : Type := Handle) where
  settings : Settings
  storage : Store
  /-- The levels of the stack, the top first. -/
  stack : List Reference
  /-- Objects that collections spare though no level and no variable holds them, the one
  added last first. -/
  retained : List Reference
  /-- The variables, from the outermost directory on. -/
  tree : Directory Reference
  /-- The names that lead from the outermost directory to the current one. -/
  path : List Symbol
  /-- Why the last line that failed did so. -/
  lastFault : Option Fault
  /-- Whether someone asked for the present computation to stop. -/
  interruptRequested : Bool
  /-- How many evaluations are going on within each other. -/
  nesting : Nat

/-- An action of a machine with any storage, which may fail. -/
abbrev ActionOn (Store Reference : Type) := ExceptT Fault (StateM (Machine Store Reference))

/-- An action of the machine with a heap. -/
abbrev Action := ActionOn Heap Handle

namespace Machine

variable {Store Reference : Type}

/-- A machine on which nothing has happened, given what will keep its objects. -/
def startOn (storage : Store) (settings : Settings) : Machine Store Reference where
  settings
  storage
  stack := []
  retained := []
  tree := .empty
  path := []
  lastFault := none
  interruptRequested := false
  nesting := 0

/-- A machine on which nothing has happened. -/
def start (settings : Settings) : Machine :=
  startOn (.empty settings.heapSize.toNat settings.heapLimit.toNat) settings

instance : Inhabited Machine := ⟨start {}⟩

/-- The heap of a machine that keeps its objects there. -/
def heap (machine : Machine) : Heap := machine.storage

/-- What an outcome outside the machine is for an action. -/
def require {α : Type} : Outcome α → ActionOn Store Reference α
  | .ok result => pure result
  | .error fault => throw fault

/-- The settings that calculations depend on. -/
def preferences : ActionOn Store Reference Preferences := return (← get).settings

/-! ## Objects -/

/-- The references that keep objects alive. -/
def roots (machine : Machine Store Reference) : List Reference :=
  machine.stack ++ machine.retained ++ Directory.contents machine.tree

/-- The value of the object that is referred to. -/
def valueOf [Storage Store Reference] (machine : Machine Store Reference)
    (reference : Reference) : Outcome Value :=
  Storage.valueOf machine.storage reference

/-- The bytes of the object behind a handle. -/
def bytesOf (machine : Machine) (handle : Handle) : Outcome (List UInt8) :=
  match machine.heap.get? handle with
  | some object => .ok object
  | none => .error .invalidHandle

section Objects

variable [Storage Store Reference]

/-- Removes the objects that nothing refers to. Tells how many bytes that gave back. -/
def collect : ActionOn Store Reference Nat := do
  let machine ← get
  let (reclaimed, storage) := Storage.collect machine.storage machine.roots
  set { machine with storage }
  return reclaimed

/-- Takes an encoding into the storage. -/
def place (object : List UInt8) : ActionOn Store Reference Reference := do
  let machine ← get
  let (outcome, storage) := Storage.place machine.storage machine.roots object
  set { machine with storage }
  require outcome

/-- Takes a value into the storage. -/
def make (value : Value) : ActionOn Store Reference Reference := do
  let object := Encoding.encode value
  let size ← require ((Encoding.size object).mapError Fault.malformed)
  if size != object.length then throw (.malformed .sizeMismatch)
  place object

/-- The value of the object that is referred to. -/
def value (reference : Reference) : ActionOn Store Reference Value := do
  require ((← get).valueOf reference)

end Objects

/-- The bytes of the object behind a handle. -/
def bytes (handle : Handle) : Action (List UInt8) := do require ((← get).bytesOf handle)

/-- Keeps an object alive until it is released. -/
def retain (reference : Reference) : ActionOn Store Reference Unit :=
  modify fun machine => { machine with retained := reference :: machine.retained }

/-- How many objects are retained, to be given to `release` later. -/
def marker : ActionOn Store Reference Nat := return (← get).retained.length

/-- Releases the objects that were retained since there were `count` of them. -/
def release (count : Nat) : ActionOn Store Reference Unit :=
  modify fun machine =>
    { machine with retained := machine.retained.drop (machine.retained.length - count) }

/-! ## Faults and interrupts -/

/-- Records why a line failed. -/
def recordFault (fault : Fault) : ActionOn Store Reference Unit :=
  modify fun machine => { machine with lastFault := some fault }

/-- Forgets why the last line failed. -/
def clearFault : ActionOn Store Reference Unit :=
  modify fun machine => { machine with lastFault := none }

/-- Asks for the next long computation to stop. -/
def interrupt : ActionOn Store Reference Unit :=
  modify fun machine => { machine with interruptRequested := true }

/-- Whether the computation is asked to stop. The request is thereby answered. -/
def interrupted : ActionOn Store Reference Bool := do
  let machine ← get
  set { machine with interruptRequested := false }
  return machine.interruptRequested

/-- Replaces the settings. The size and the limit of the heap only matter at the start. -/
def changeSettings (settings : Settings) : ActionOn Store Reference Unit :=
  modify fun machine => { machine with settings }

end Machine

end Calculator
