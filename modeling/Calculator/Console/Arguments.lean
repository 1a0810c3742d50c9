import Calculator.Number.Digits

/-!
# Arguments of the command line

What can be asked for when the calculator is started: a settings file, a script instead of
a conversation, and how many levels of the stack are shown after every line.
-/

namespace Calculator.Console

/-- The wishes of the one who starts the calculator. -/
structure Arguments where
  /-- The path of a settings file other than the usual one. -/
  settings : Option String := none
  /-- The path of a script. -/
  script : Option String := none
  levels : Nat := 4
deriving DecidableEq, Repr

namespace Arguments

/-- What is said about the command line when it cannot be understood. -/
def usage : String := "Usage: calculator [-c|--config FILE] [-l|--levels COUNT] [SCRIPT]"

/-- A number of levels. -/
def count? (text : String) : Option Nat :=
  let digits := text.toList
  if !digits.isEmpty && digits.all Char.isDigit then some (Digits.read digits) else none

/-- Takes over a number of levels. -/
def withLevels (arguments : Arguments) (text : String) : Option Arguments :=
  (count? text).map fun levels => { arguments with levels }

/-- An option with its value behind an equals sign, taken apart. -/
def splitOption (word : String) : Option (String × String) :=
  match word.splitOn "=" with
  | name :: value :: more => some (name, "=".intercalate (value :: more))
  | _ => none

/-- Adds what further words of the command line ask for. -/
def readOnto (arguments : Arguments) : List String → Option Arguments
  | [] => some arguments
  | [word] => single arguments word
  | word :: value :: words =>
    if word == "-c" || word == "--config" then
      readOnto { arguments with settings := some value } words
    else if word == "-l" || word == "--levels" then do
      readOnto (← arguments.withLevels value) words
    else do readOnto (← single arguments word) (value :: words)
where
  /-- Adds what a word asks for that needs no value behind it. -/
  single (arguments : Arguments) (word : String) : Option Arguments :=
    match splitOption word with
    | some ("--config", path) => some { arguments with settings := some path }
    | some ("--levels", text) => arguments.withLevels text
    | _ =>
      if word.startsWith "-" || arguments.script.isSome then none
      else some { arguments with script := some word }

/-- The wishes that the words of a command line express. -/
def read? (words : List String) : Option Arguments := readOnto {} words

end Arguments

end Calculator.Console
