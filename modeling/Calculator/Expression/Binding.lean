import Calculator.Expression

/-!
# Bindings inside expressions

An expression such as `X+Y|X=1` binds a name to a value within its body. `expandBindings`
carries the bindings out: it puts the value in the place of the name, from the innermost
binding outwards, so that no binding is left.
-/

namespace Calculator.Expression

/-- Puts items in the place of every occurrence of a name. -/
def substitute (items : List Value) (name : Symbol) (value : List Value)
    (caseSensitive : Bool) : List Value :=
  items.flatMap fun item =>
    match item with
    | .symbol other => if other.sameAs name caseSensitive then value else [item]
    | _ => [item]

/-- The body of a binding with the binding carried out. A binding is an equation with
nothing but a name on its left. -/
def bind (body binding : List Value) (caseSensitive : Bool) : Outcome (List Value) :=
  match splitLast? binding with
  | some (.equation, [[.symbol name], value]) => .ok (substitute body name value caseSensitive)
  | _ => .error .badArgumentValue

/-- An operator behind its operands, or a binding carried out. -/
def bindNode (caseSensitive : Bool) (command : Command) (operands : List (List Value)) :
    Outcome (List Value) :=
  match command, operands with
  | .whereBound, [body, binding] => bind body binding caseSensitive
  | _, _ => .ok (operands.flatten ++ [.command command])

/-- The expression without bindings that says the same. -/
def expandBindings (items : List Value) (caseSensitive : Bool) : Outcome (List Value) := do
  if items.any (· == .command .whereBound) then
    match ← fold (fun leaf => .ok [leaf]) (bindNode caseSensitive) items with
    | [expanded] => return expanded
    | _ => throw (.malformed .notOneValue)
  else return items

end Calculator.Expression
