import Calculator.Machine

/-!
# The stack

The actions that move values to, from and within the stack. Levels are counted from one,
which is the top. An action that needs more levels than there are fails before it changes
anything.
-/

namespace Calculator.Machine

variable {Store Reference : Type}

/-- The number of levels. -/
def depth : ActionOn Store Reference Nat := return (← get).stack.length

/-- Fails unless there are so many levels. -/
def requireLevels (count : Nat) : ActionOn Store Reference Unit := do
  if (← depth) < count then throw .tooFewArguments

/-- Replaces the levels, the top first. -/
def setStack (stack : List Reference) : ActionOn Store Reference Unit :=
  modify fun machine => { machine with stack }

/-- Puts the object behind a handle on top. -/
def pushHandle (handle : Handle) : Action Unit := do
  let machine ← get
  if machine.heap.isValid handle then set { machine with stack := handle :: machine.stack }
  else throw .invalidHandle

/-- What refers to the object on a level. -/
def levelHandle (level : Nat) : ActionOn Store Reference Reference := do
  if level = 0 then throw .badArgumentValue
  match (← get).stack[level - 1]? with
  | some reference => return reference
  | none => throw .tooFewArguments

/-- Takes levels away from the top. -/
def drop (count : Nat) : ActionOn Store Reference Unit := do
  requireLevels count
  setStack ((← get).stack.drop count)

/-- Puts the object of a level on top as well. -/
def pick (level : Nat) : ActionOn Store Reference Unit := do
  let reference ← levelHandle level
  setStack (reference :: (← get).stack)

/-- Doubles the top level. -/
def duplicate : ActionOn Store Reference Unit := pick 1

/-- Doubles the top two levels. -/
def duplicate2 : ActionOn Store Reference Unit := do
  requireLevels 2
  pick 2
  pick 2

/-- Puts the object of the second level on top as well. -/
def copySecond : ActionOn Store Reference Unit := pick 2

/-- Exchanges the top two levels. -/
def swap : ActionOn Store Reference Unit := do
  match (← get).stack with
  | first :: second :: others => setStack (second :: first :: others)
  | _ => throw .tooFewArguments

/-- Moves the third level to the top. -/
def rotate : ActionOn Store Reference Unit := do
  match (← get).stack with
  | first :: second :: third :: others => setStack (third :: first :: second :: others)
  | _ => throw .tooFewArguments

/-- Takes all levels away. -/
def clear : ActionOn Store Reference Unit := setStack []

section Objects

variable [Storage Store Reference]

/-- Puts a value on top. -/
def push (value : Value) : ActionOn Store Reference Unit := do
  let reference ← make value
  modify fun machine => { machine with stack := reference :: machine.stack }

/-- The value on a level. -/
def level (level : Nat) : ActionOn Store Reference Value := do value (← levelHandle level)

/-- The value on top. -/
def top : ActionOn Store Reference Value := level 1

/-- Takes the value on top away. -/
def pop : ActionOn Store Reference Value := do
  let result ← top
  setStack ((← get).stack.drop 1)
  return result

/-- The values of the top levels, the deepest first. They stay where they are. -/
def arguments (count : Nat) : ActionOn Store Reference (List Value) := do
  requireLevels count
  ((← get).stack.take count).reverse.mapM value

end Objects

end Calculator.Machine
