import Calculator.Fault
import Calculator.Number.Digits
import Calculator.Settings
import Calculator.Settings.Toml.Reading
import Calculator.Text.Blank

/-!
# Settings files

How settings are kept in a file. A file is a TOML document with a key for every setting.
Keys that are missing leave a setting at its default, keys that no setting has are
ignored, and an item of the wrong kind makes the whole file invalid. A saved file has all
keys.

Render flags are written as their names with bars between them; bits without a name follow
as a hexadecimal number.
-/

namespace Calculator

namespace RenderFlags

/-- The digits of a hexadecimal number, with an optional plus sign in front, as bits. -/
def ofHexadecimal? (text : List Char) : Option RenderFlags := do
  let digits := match text with
    | '+' :: digits => digits
    | digits => digits
  let values ← digits.mapM (Toml.digitValue? 16)
  let value := values.foldl (fun value digit => value * 16 + digit) 0
  if digits.isEmpty || UInt16.size ≤ value then none else return ⟨UInt16.ofNat value⟩

/-- The flags that one of the parts between bars stands for: a name, or a hexadecimal number
behind its mark. -/
def ofPart? (text : List Char) : Option RenderFlags :=
  match text with
  | '0' :: 'x' :: digits => ofHexadecimal? digits
  | name => (RenderFlag.all.find? fun flag => flag.name.toList == name).map fun flag => ⟨flag.bit⟩

/-- The parts of a text between bars, without the blanks around them. -/
def parts (text : String) : List (List Char) :=
  (text.splitOn "|").map fun part => Text.trimBlanks part.toList

/-- The flags that a text stands for. A text of nothing but blanks stands for none. -/
def ofText? (text : String) : Option RenderFlags := do
  if (Text.trimBlanks text.toList).isEmpty then return {}
  let found ← (parts text).mapM ofPart?
  return found.foldl union {}

/-- The flags with a name that are set. -/
def named (flags : RenderFlags) : List RenderFlag := RenderFlag.all.filter flags.contains

/-- The bits that are set and have no name. -/
def unnamed (flags : RenderFlags) : UInt16 :=
  flags.bits &&& ~~~(RenderFlag.all.foldl (fun bits flag => bits ||| flag.bit) 0)

/-- The text that stands for the flags. -/
def toText (flags : RenderFlags) : String :=
  let names := flags.named.map RenderFlag.name
  let rest := flags.unnamed
  let digits := String.ofList (Nat.toDigits 16 rest.toNat)
  " | ".intercalate (names ++ if rest = 0 then [] else ["0x" ++ digits])

end RenderFlags

namespace Settings

/-- Reads the item of a key, if there is one, and otherwise takes the default. -/
def readItem {α : Type} (read? : Toml.Item → Option α) (key : String) (default : α)
    (entries : Toml.Table) : Option α :=
  match entries.get? key with
  | some item => read? item
  | none => some default

/-- Whether an item is an array or a table without content. -/
def isEmptyItem : Toml.Item → Bool
  | .array items => items.isEmpty
  | .table _ entries => entries.isEmpty
  | .tables elements => elements.isEmpty
  | _ => false

/-- A tier: its name, or a table with the name as its only key and nothing under it. -/
def precisionOf? : Toml.Item → Option Precision
  | .text name => Precision.ofName? name
  | .table _ [(name, item)] => if isEmptyItem item then Precision.ofName? name else none
  | _ => none

/-- A truth value. -/
def truthOf? : Toml.Item → Option Bool
  | .truth value => some value
  | _ => none

/-- Render flags, written as a text. -/
def renderOf? : Toml.Item → Option RenderFlags
  | .text content => RenderFlags.ofText? content
  | _ => none

/-- A natural number below a bound. -/
def naturalOf? (bound : Nat) : Toml.Item → Option Nat
  | .integer value => if 0 ≤ value && value.toNat < bound then some value.toNat else none
  | _ => none

/-- A word of 32 bits. -/
def shortOf? (item : Toml.Item) : Option UInt32 := (naturalOf? UInt32.size item).map UInt32.ofNat

/-- A word of 64 bits. -/
def longOf? (item : Toml.Item) : Option UInt64 := (naturalOf? UInt64.size item).map UInt64.ofNat

/-- The settings that a table describes. -/
def ofTable? (entries : Toml.Table) : Option Settings := do
  let standard : Settings := {}
  let precision ← readItem precisionOf? "precision" standard.precision entries
  let numericalResults ← readItem truthOf? "numerical_results" standard.numericalResults entries
  let caseSensitive ← readItem truthOf? "case_sensitive" standard.caseSensitive entries
  let render ← readItem renderOf? "render" standard.render entries
  let solverIterations ← readItem shortOf? "solver_iterations" standard.solverIterations entries
  let solverImprecision ← readItem shortOf? "solver_imprecision" standard.solverImprecision entries
  let heapSize ← readItem longOf? "heap_size" standard.heapSize entries
  let heapLimit ← readItem longOf? "heap_limit" standard.heapLimit entries
  let maxRecursion ← readItem shortOf? "max_recursion" standard.maxRecursion entries
  return {
    precision, numericalResults, caseSensitive, render, solverIterations, solverImprecision,
    heapSize, heapLimit, maxRecursion }

/-- The settings that the text of a file describes. -/
def read (text : String) : Outcome Settings :=
  match (Toml.read? text).bind ofTable? with
  | some settings => .ok settings
  | none => .error .badSettings

/-- The settings in a file, given its text if the file is there. -/
def load (text : Option String) : Outcome Settings :=
  match text with
  | some text => read text
  | none => .error .unreadableSettings

/-- The settings in a file, or the defaults if the file is not there. -/
def loadOrDefault (text : Option String) : Outcome Settings :=
  match text with
  | some text => read text
  | none => .ok {}

/-- A text between quotation marks. Names of tiers and flags need no escapes. -/
def quoted (text : String) : String := "\"" ++ text ++ "\""

/-- The keys and items of a saved file. -/
def savedItems (settings : Settings) : List (String × String) :=
  [("precision", quoted settings.precision.name),
    ("numerical_results", if settings.numericalResults then "true" else "false"),
    ("case_sensitive", if settings.caseSensitive then "true" else "false"),
    ("render", quoted settings.render.toText),
    ("solver_iterations", Digits.text settings.solverIterations.toNat),
    ("solver_imprecision", Digits.text settings.solverImprecision.toNat),
    ("heap_size", Digits.text settings.heapSize.toNat),
    ("heap_limit", Digits.text settings.heapLimit.toNat),
    ("max_recursion", Digits.text settings.maxRecursion.toNat)]

/-- The text of a saved file. -/
def saved (settings : Settings) : String :=
  String.join (settings.savedItems.map fun (key, item) => key ++ " = " ++ item ++ "\n")

/-- A path followed by a relative one. -/
def joinPaths (front back : String) : String :=
  if front.isEmpty then back
  else if front.endsWith "/" then front ++ back
  else front ++ "/" ++ back

/-- Where the settings file is. A path given for it is taken as it is; otherwise the file is
in the user's directory of configurations, which lies in the home directory unless it is
given as well. -/
def path (given configurations home : Option String) : String :=
  match given with
  | some path => path
  | none =>
    let directory := match configurations, home with
      | some directory, _ => directory
      | none, some home => joinPaths home ".config"
      | none, none => ""
    joinPaths (joinPaths directory "rpl") "settings.toml"

end Settings

end Calculator
