import Calculator.Value

/-!
# Expressions in postfix order

Walks over the items of an algebraic expression. An operator takes its operands from
those that precede it; every other item stands for itself. A command that takes no
operands inside an expression counts as an item that stands for itself.

`fold` rebuilds the expression from its leaves, `ranges` finds the stretches of the
independent parts, and `splitLast?` separates the outermost operator from its operands.
-/

namespace Calculator.Expression

variable {Result : Type}

/-- The number of operands an item takes. -/
def operandsOf : Value → Nat
  | .command command => command.operands
  | _ => 0

/-- Folds the items that remain, given the results so far with the latest first. -/
def foldOnto (leaf : Value → Outcome Result) (node : Command → List Result → Outcome Result) :
    List Value → List Result → Outcome (List Result)
  | [], results => .ok results.reverse
  | item :: items, results => do
    match item with
    | .command command =>
      if 0 < command.operands then
        let operands := results.take command.operands
        if operands.length < command.operands then
          throw (.malformed .missingOperands)
        let result ← node command operands.reverse
        foldOnto leaf node items (result :: results.drop command.operands)
      else
        let result ← leaf item
        foldOnto leaf node items (result :: results)
    | _ =>
      let result ← leaf item
      foldOnto leaf node items (result :: results)

/-- Folds the items of an expression from the leaves up. What remains is one result for
each independent part, in their order. -/
def fold (leaf : Value → Outcome Result) (node : Command → List Result → Outcome Result)
    (items : List Value) : Outcome (List Result) :=
  foldOnto leaf node items []

/-- Adds the stretches of the items that remain, given the position reached and the
stretches so far with the latest first. -/
def rangesOnto : List Value → Nat → List (Nat × Nat) → Outcome (List (Nat × Nat))
  | [], _, found => .ok found.reverse
  | item :: items, position, found =>
    let operands := found.take (operandsOf item)
    if operands.length < operandsOf item then .error (.malformed .missingOperands)
    else
      let start := (operands.getLast?.map Prod.fst).getD position
      rangesOnto items (position + 1) ((start, position + 1) :: found.drop (operandsOf item))

/-- The stretches of the independent parts: the position of the first item and the position
behind the last one. -/
def ranges (items : List Value) : Outcome (List (Nat × Nat)) := rangesOnto items 0 []

/-- The items of a stretch. -/
def slice (items : List Value) (range : Nat × Nat) : List Value :=
  (items.take range.2).drop range.1

/-- The outermost operator of an expression and the items of its operands, if the
expression has a single root that is an operator. -/
def splitLast? (items : List Value) : Option (Command × List (List Value)) :=
  match items.getLast? with
  | some (.command command) =>
    let body := items.dropLast
    match ranges body with
    | .error _ => none
    | .ok found =>
      if command.operands = 0 || found.length != command.operands then none
      else some (command, found.map (slice body))
  | _ => none

end Calculator.Expression
