import Calculator.Machine

/-!
# Variables

The actions on the tree of variables. A variable is made in the current directory; looked
up, it is searched for from the current directory outwards. A directory cannot be
overwritten by a value.
-/

namespace Calculator.Machine

variable {Store Reference : Type}

/-- The directories from the outermost to the current one. -/
def directories (machine : Machine Store Reference) : List (Directory Reference) :=
  Directory.chain machine.settings.caseSensitive machine.path machine.tree

/-- The current directory. -/
def current (machine : Machine Store Reference) : Directory Reference :=
  Directory.along machine.settings.caseSensitive machine.path machine.tree

/-- The names in the current directory. -/
def names (machine : Machine Store Reference) : List Symbol := Directory.names machine.current

/-- Whether a name stands for a subdirectory of the current directory. -/
def isDirectory (machine : Machine Store Reference) (name : Symbol) : Bool :=
  (Directory.subdirectory? machine.current name machine.settings.caseSensitive).isSome

/-- What a variable of a directory refers to. -/
def referenceIn? (entries : Directory Reference) (name : Symbol) (caseSensitive : Bool) :
    Option Reference :=
  match Directory.find? entries name caseSensitive with
  | some (.value reference) => some reference
  | _ => none

/-- What the variable that a name stands for refers to: the one in the current directory, or
in the closest directory around it that has such a variable. -/
def reference? (machine : Machine Store Reference) (name : Symbol) : Option Reference :=
  machine.directories.reverse.findSome? fun entries =>
    referenceIn? entries name machine.settings.caseSensitive

/-- Changes the current directory, which must still exist. -/
def changeCurrent (change : Directory Reference → Outcome (Directory Reference)) :
    ActionOn Store Reference Unit := do
  let machine ← get
  let caseSensitive := machine.settings.caseSensitive
  match Directory.missing? caseSensitive machine.path machine.tree with
  | some name => throw (.undefinedName name.name)
  | none =>
    let entries ← require (change machine.current)
    set { machine with
      tree := Directory.replaceAt caseSensitive entries machine.path machine.tree }

/-- Removes a variable or a subdirectory from the current directory. -/
def purge (name : Symbol) : ActionOn Store Reference Unit := do
  let caseSensitive := (← preferences).caseSensitive
  changeCurrent fun entries =>
    if (Directory.find? entries name caseSensitive).isNone then .error (.undefinedName name.name)
    else .ok (Directory.remove entries name caseSensitive)

/-- Makes a subdirectory of the current directory, under a name that is not in use. -/
def createDirectory (name : Symbol) : ActionOn Store Reference Unit := do
  let caseSensitive := (← preferences).caseSensitive
  changeCurrent fun entries =>
    if (Directory.find? entries name caseSensitive).isSome then .error .badArgumentValue
    else .ok (Directory.insert name (.directory []) caseSensitive entries)

/-- Makes a subdirectory of the current directory the current one. Tells whether there is
such a subdirectory. -/
def enter (name : Symbol) : ActionOn Store Reference Bool := do
  let machine ← get
  if machine.isDirectory name then
    set { machine with path := machine.path ++ [name] }
    return true
  else return false

/-- Makes the directory around the current one the current one. -/
def upDirectory : ActionOn Store Reference Unit :=
  modify fun machine => { machine with path := machine.path.dropLast }

/-- Makes the outermost directory the current one. -/
def home : ActionOn Store Reference Unit := modify fun machine => { machine with path := [] }

section Objects

variable [Storage Store Reference]

/-- The value of the variable that a name stands for. -/
def lookup? (machine : Machine Store Reference) (name : Symbol) : Option Value :=
  match machine.reference? name with
  | some reference => (machine.valueOf reference).toOption
  | none => none

/-- The value of the variable that a name stands for. -/
def fetch? (name : Symbol) : ActionOn Store Reference (Option Value) :=
  return (← get).lookup? name

/-- Makes or replaces a variable of the current directory. -/
def store (name : Symbol) (value : Value) : ActionOn Store Reference Unit := do
  let caseSensitive := (← preferences).caseSensitive
  if (← get).isDirectory name then throw .badArgumentType
  let reference ← make value
  changeCurrent fun entries =>
    .ok (Directory.insert name (.value reference) caseSensitive entries)

end Objects

end Calculator.Machine
