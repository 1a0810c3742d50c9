import Calculator.Machine.Evaluation
import Calculator.Render

/-!
# The console

What the calculator writes when it is used line by line. After every line the top levels
of the stack are shown. A few words are not for the machine: two end the session, one
shows the state of the heap and one the names of the variables.

Lines come either from a user, who is prompted for each, or from a script. The code with
which a script ends tells whether one of its lines failed.
-/

namespace Calculator.Console

/-- What follows after a line. -/
inductive Course where
  | goOn
  /-- The line ends the session. -/
  | leave
  /-- The line cannot be reported on, which ends the session at once. -/
  | breakOff
deriving DecidableEq, Repr

/-- What a line brings about. -/
structure Reply where
  output : String
  /-- What is to be reported, apart from the output. -/
  fault : Option Fault
  course : Course
  machine : Machine

/-- The greeting at the start of a session. -/
def greeting : String := "RPL v0.1.0\n"

/-- What the user is asked for a line with. -/
def prompt : String := "> "

/-- The line that shows a level of the stack. -/
def levelLine (machine : Machine) (level : Nat) (handle : Handle) : String :=
  let text := match machine.valueOf handle with
    | .ok value => Render.value value machine.settings
    | .error fault => "<" ++ fault.message ++ ">"
  Digits.text level ++ ": " ++ text ++ "\n"

/-- The lines that show the levels, given the number of the first handle's level. The top is
shown last. -/
def levelLines (machine : Machine) (level : Nat) : List Handle → String
  | [] => ""
  | handle :: deeper => levelLines machine (level + 1) deeper ++ levelLine machine level handle

/-- The lines that show the top levels of the stack. -/
def shownStack (machine : Machine) (levels : Nat) : String :=
  levelLines machine 1 (machine.stack.take levels)

/-- The line that shows the state of the heap. -/
def heapLine (heap : Heap) : String :=
  "heap: " ++ Digits.text heap.used ++ "/" ++ Digits.text heap.capacity ++ " bytes, "
    ++ Digits.text heap.liveCount ++ " objects, " ++ Digits.text heap.collections
    ++ " collections, " ++ Digits.text heap.reclaimed ++ " bytes reclaimed\n"

/-- The line that shows the names of the variables in the current directory. -/
def namesLine (machine : Machine) : String :=
  " ".intercalate (machine.names.map Symbol.name) ++ "\n"

/-- Whether a fault can be shown at its place in a line. A report marks at least one
character, and there is none behind the last one of the line. -/
def isReportable (line : String) (fault : Fault) : Bool :=
  match fault.span? with
  | some span => max span.stop (span.offset + 1) ≤ line.utf8ByteSize
  | none => true

/-- The reply to a line that is for the machine. -/
def calculate (levels : Nat) (machine : Machine) (line : String) : Reply :=
  let (outcome, machine) := (Machine.run line).run.run machine
  match outcome with
  | .ok () => ⟨shownStack machine levels, none, .goOn, machine⟩
  | .error fault =>
    if isReportable line fault then ⟨shownStack machine levels, some fault, .goOn, machine⟩
    else ⟨"", some fault, .breakOff, machine⟩

/-- The reply to a line. Blanks around it do not matter, and an empty line has no effect. -/
def respond (levels : Nat) (machine : Machine) (line : String) : Reply :=
  match String.ofList (Text.trimBlanks line.toList) with
  | "" => ⟨"", none, .goOn, machine⟩
  | "exit" | "quit" => ⟨"", none, .leave, machine⟩
  | ".stats" => ⟨heapLine machine.heap, none, .goOn, machine⟩
  | ".vars" => ⟨namesLine machine, none, .goOn, machine⟩
  | line => calculate levels machine line

/-- The code with which a session ends that was broken off. -/
def brokenOffCode : UInt32 := 101

/-- The lines of a text. The last one need not be closed. -/
def linesOf (text : String) : List String :=
  let pieces := text.splitOn "\n"
  if pieces.getLast? == some "" then pieces.dropLast else pieces

/-- The replies to lines, up to the first that ends the session. -/
def replies (levels : Nat) : Machine → List String → List Reply
  | _, [] => []
  | machine, line :: lines =>
    let reply := respond levels machine line
    if reply.course == .goOn then reply :: replies levels reply.machine lines else [reply]

/-- What follows after the last of some replies. -/
def courseAfter (replies : List Reply) : Course := (replies.getLast?.map Reply.course).getD .goOn

/-- What is written in a session with a user, and the code with which it ends. A session that
the user does not end by a line ends with the input, at the last prompt. -/
def session (levels : Nat) (machine : Machine) (input : String) : String × UInt32 :=
  let given := replies levels machine (linesOf input)
  let output := String.join (given.map fun reply => prompt ++ reply.output)
  match courseAfter given with
  | .goOn => (greeting ++ output ++ prompt ++ "\n", 0)
  | .leave => (greeting ++ output, 0)
  | .breakOff => (greeting ++ output, brokenOffCode)

/-- The code with which a script ends after some replies. -/
def scriptCode (machine : Machine) (given : List Reply) : UInt32 :=
  let last := (given.getLast?.map Reply.machine).getD machine
  if courseAfter given == .breakOff then brokenOffCode
  else if last.lastFault.isSome then 1
  else 0

/-- What is written for a script, and the code with which it ends. A script that cannot be
read fails. -/
def script (levels : Nat) (machine : Machine) (text : Option String) : String × UInt32 :=
  match text with
  | some text =>
    let given := replies levels machine (linesOf text)
    (String.join (given.map Reply.output), scriptCode machine given)
  | none => ("", 1)

/-- The settings of a session: the defaults if those that were asked for are invalid. -/
def settingsOf (loaded : Outcome Settings) : Settings := loaded.toOption.getD {}

end Calculator.Console
