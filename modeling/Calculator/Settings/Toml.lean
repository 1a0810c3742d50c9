/-!
# TOML documents

The data that a TOML document describes: a table of named items, some of which are tables
in turn. Of numbers with a fraction and of dates and times only their presence is kept.

A table may be described piece by piece, but not in every way. A table remembers how it
came about, and the operations that add to it refuse what TOML forbids: to define a table
twice, to add to an inline table, or to name an entry twice.
-/

namespace Calculator.Toml

/-- How a table came about. -/
inductive Origin where
  /-- It was defined by a header of its own, or is the outermost table. -/
  | header
  /-- It lies on the way to a table that was defined by a header. -/
  | passed
  /-- It was made by a dotted key. -/
  | dotted
  /-- It was written in braces. -/
  | inline
deriving DecidableEq, Repr

/-- What a key stands for. -/
inductive Item where
  | text (content : String)
  | integer (value : Int)
  | truth (value : Bool)
  /-- A number with a fraction or an exponent, a date or a time. -/
  | other
  | array (items : List Item)
  | table (origin : Origin) (entries : List (String × Item))
  /-- Tables under one name, in the order of their headers. -/
  | tables (elements : List (List (String × Item)))
deriving Repr

/-- Items by their keys, in the order of the document. -/
abbrev Table := List (String × Item)

namespace Table

/-- The item of a key. -/
def get? (entries : Table) (key : String) : Option Item :=
  (entries.find? fun entry => entry.1 == key).map Prod.snd

/-- Replaces the item of a key, or adds one, unless that is refused. -/
def alter (key : String) (change : Option Item → Option Item) : Table → Option Table
  | [] => do return [(key, ← change none)]
  | entry :: others =>
    if entry.1 == key then do return (key, ← change (some entry.2)) :: others
    else do return entry :: (← alter key change others)

/-- Changes the table at the end of a path, making the tables on the way. A path through
several tables under one name leads through the last of them. Dotted keys make tables of
their own and do not lead into those that a header has defined. -/
def within (dotted : Bool) (change : Origin → Table → Option Table) :
    List String → Origin → Table → Option Table
  | [], origin, entries => change origin entries
  | key :: path, _, entries =>
    entries.alter key fun
      | none =>
        let origin := if dotted then .dotted else .passed
        return .table origin (← within dotted change path origin [])
      | some (.table origin inner) =>
        if origin == .inline || (dotted && origin == .header) then none
        else return .table origin (← within dotted change path origin inner)
      | some (.tables elements) => do
        let last ← within dotted change path .header (elements.getLast?.getD [])
        return .tables (elements.dropLast ++ [last])
      | some _ => none

/-- Adds an entry to the table that the dots of its key lead to. -/
def addEntry (path : List String) (key : String) (item : Item) (origin : Origin)
    (entries : Table) : Option Table :=
  within true (fun origin entries =>
    if (origin == .dotted) == path.isEmpty then none
    else entries.alter key fun
      | none => some item
      | some _ => none) path origin entries

/-- Adds an entry to the table that a header leads to. -/
def addUnder (header path : List String) (key : String) (item : Item) (root : Table) :
    Option Table :=
  within false (addEntry path key item) header .header root

/-- Defines a table by a header. -/
def define (path : List String) (key : String) (root : Table) : Option Table :=
  within false (fun _ entries => entries.alter key fun
    | none => some (.table .header [])
    | some (.table .passed inner) => some (.table .header inner)
    | some _ => none) path .header root

/-- Adds a table to those under one name by a header. -/
def append (path : List String) (key : String) (root : Table) : Option Table :=
  within false (fun _ entries => entries.alter key fun
    | none => some (.tables [[]])
    | some (.tables elements) => some (.tables (elements ++ [[]]))
    | some _ => none) path .header root

end Table

end Calculator.Toml
