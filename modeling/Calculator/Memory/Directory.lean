import Calculator.Symbol

/-!
# Directories

A tree of named entries. An entry is a value or a directory of its own, and the entries
of a directory keep the order in which they were made. Names are the same or different
as the sensitivity to case decides, which is a choice of every single access.

What the values are is left open: a directory of handles can be turned into one of the
objects they refer to with `map`.
-/

namespace Calculator

/-- What a name in a directory stands for. -/
inductive Entry (Content : Type) where
  | value (content : Content)
  | directory (entries : List (Symbol × Entry Content))
deriving Repr

/-- Named entries, in the order in which they were made. -/
abbrev Directory (Content : Type) := List (Symbol × Entry Content)

namespace Directory

variable {Content : Type}

/-- The directory without entries. -/
def empty : Directory Content := []

/-- The names of the entries. -/
def names (entries : Directory Content) : List Symbol := entries.map Prod.fst

/-- The entry with a name. -/
def find? (entries : Directory Content) (name : Symbol) (caseSensitive : Bool) :
    Option (Entry Content) :=
  (List.find? (fun named => named.1.sameAs name caseSensitive) entries).map Prod.snd

/-- The directory with an entry under a name. An entry that had the name before is replaced
at its place and keeps its spelling; otherwise the entry comes last. -/
def insert (name : Symbol) (entry : Entry Content) (caseSensitive : Bool) :
    Directory Content → Directory Content
  | [] => [(name, entry)]
  | named :: others =>
    if named.1.sameAs name caseSensitive then (named.1, entry) :: others
    else named :: insert name entry caseSensitive others

/-- The directory without the entry that has a name. -/
def remove (entries : Directory Content) (name : Symbol) (caseSensitive : Bool) :
    Directory Content :=
  entries.eraseP fun named => named.1.sameAs name caseSensitive

/-- The subdirectory with a name. -/
def subdirectory? (entries : Directory Content) (name : Symbol) (caseSensitive : Bool) :
    Option (Directory Content) :=
  match entries.find? name caseSensitive with
  | some (.directory inner) => some inner
  | _ => none

/-- The directories from this one along a path, as far as the path can be followed. -/
def chain (caseSensitive : Bool) :
    List Symbol → Directory Content → List (Directory Content)
  | [], entries => [entries]
  | name :: path, entries =>
    match entries.subdirectory? name caseSensitive with
    | some inner => entries :: chain caseSensitive path inner
    | none => [entries]

/-- The last directory along a path, as far as the path can be followed. -/
def along (caseSensitive : Bool) : List Symbol → Directory Content → Directory Content
  | [], entries => entries
  | name :: path, entries =>
    match entries.subdirectory? name caseSensitive with
    | some inner => along caseSensitive path inner
    | none => entries

/-- The first name of a path that cannot be followed. -/
def missing? (caseSensitive : Bool) : List Symbol → Directory Content → Option Symbol
  | [], _ => none
  | name :: path, entries =>
    match entries.subdirectory? name caseSensitive with
    | some inner => missing? caseSensitive path inner
    | none => some name

/-- The directory with the one at the end of a path replaced. A path that cannot be followed
changes nothing. -/
def replaceAt (caseSensitive : Bool) (replacement : Directory Content) :
    List Symbol → Directory Content → Directory Content
  | [], _ => replacement
  | name :: path, entries =>
    match entries.subdirectory? name caseSensitive with
    | some inner =>
      entries.insert name (.directory (replaceAt caseSensitive replacement path inner))
        caseSensitive
    | none => entries

mutual

/-- The values of a directory and its subdirectories. -/
def contents : Directory Content → List Content
  | [] => []
  | (_, entry) :: others => contentsOfEntry entry ++ contents others

/-- The values of an entry. -/
def contentsOfEntry : Entry Content → List Content
  | .value content => [content]
  | .directory entries => contents entries

end

mutual

/-- The same tree with every value replaced. -/
def map {Replaced : Type} (replace : Content → Replaced) :
    Directory Content → Directory Replaced
  | [] => []
  | (name, entry) :: others => (name, mapEntry replace entry) :: map replace others

/-- The same entry with every value replaced. -/
def mapEntry {Replaced : Type} (replace : Content → Replaced) :
    Entry Content → Entry Replaced
  | .value content => .value (replace content)
  | .directory entries => .directory (map replace entries)

end

end Directory

end Calculator
