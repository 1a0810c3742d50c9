import Calculator.Console
import Calculator.Console.Arguments
import Calculator.Settings.File

/-!
# The program

Connects the console with the terminal and the files of the user. What is written and when
a session ends is decided by the console.
-/

namespace Calculator.Program

/-- The text of a file, if it can be read. -/
def contentOf (path : String) : IO (Option String) := do
  try return some (← IO.FS.readFile path)
  catch _ => return none

/-- The settings of the session that the command line asks for. -/
def loadSettings (arguments : Console.Arguments) : IO Settings := do
  match arguments.settings with
  | some path => return Console.settingsOf (Settings.load (← contentOf path))
  | none =>
    let path := Settings.path (← IO.getEnv "RPL_CONFIG_PATH") (← IO.getEnv "XDG_CONFIG_HOME")
      (← IO.getEnv "HOME")
    return Console.settingsOf (Settings.loadOrDefault (← contentOf path))

/-- Reports a fault apart from the output. -/
def report (fault : Option Fault) : IO Unit := do
  if let some fault := fault then IO.eprintln ("Error: " ++ fault.message)

/-- The next line of a user, if there is one. -/
def nextLine (input : IO.FS.Stream) : IO (Option String) := do
  try
    let line ← input.getLine
    return if line.isEmpty then none else some line
  catch _ => return none

/-- Answers the lines of a user until the session ends, with the code to end with. -/
partial def converse (levels : Nat) (input output : IO.FS.Stream) (machine : Machine) :
    IO UInt32 := do
  output.putStr Console.prompt
  output.flush
  match ← nextLine input with
  | none =>
    output.putStr "\n"
    return 0
  | some line =>
    let reply := Console.respond levels machine line
    output.putStr reply.output
    report reply.fault
    match reply.course with
    | .goOn => converse levels input output reply.machine
    | .leave => return 0
    | .breakOff => return Console.brokenOffCode

/-- Runs the lines of a script, with the code to end with. -/
def follow (levels : Nat) (output : IO.FS.Stream) (machine : Machine) (text : String) :
    IO UInt32 := do
  let given := Console.replies levels machine (Console.linesOf text)
  given.forM fun reply => do
    output.putStr reply.output
    report reply.fault
  return Console.scriptCode machine given

/-- Runs the calculator. -/
def run (arguments : Console.Arguments) : IO UInt32 := do
  let machine := Machine.start (← loadSettings arguments)
  let output ← IO.getStdout
  match arguments.script with
  | some path =>
    match ← contentOf path with
    | some text => follow arguments.levels output machine text
    | none =>
      IO.eprintln ("Failed to read " ++ path)
      return (Console.script arguments.levels machine none).2
  | none =>
    output.putStr Console.greeting
    converse arguments.levels (← IO.getStdin) output machine

end Calculator.Program

/-- The program of the command line. -/
def main (words : List String) : IO UInt32 := do
  match Calculator.Console.Arguments.read? words with
  | some arguments => Calculator.Program.run arguments
  | none =>
    IO.eprintln Calculator.Console.Arguments.usage
    return 2
