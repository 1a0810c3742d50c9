/-!
# Powers and roots of whole numbers

Two algorithms that every kind of number shares. A power is built by repeated squaring,
over any product, also one that may fail or that rounds. A root is the largest whole
number whose power does not exceed the given one, found by Newton's iteration from
above.
-/

namespace Calculator

/-- A power of two. -/
def twoTo (exponent : Nat) : Nat := Nat.pow 2 exponent

/-- A power of ten. -/
def tenTo (exponent : Nat) : Nat := Nat.pow 10 exponent

/-- Multiplies `result` by the given power of `base`, one squaring for every binary digit
of the exponent. The base is not squared once more behind the last digit, so a product
that overflows is never formed in vain. -/
def raiseOnto {Context : Type → Type} [Monad Context] {α : Type}
    (multiply : α → α → Context α) (result base : α) (exponent : Nat) : Context α :=
  if finished : exponent = 0 then pure result
  else do
    let result ← if exponent % 2 = 1 then multiply result base else pure result
    if exponent / 2 = 0 then pure result
    else do
      let square ← multiply base base
      raiseOnto multiply result square (exponent / 2)
termination_by exponent
decreasing_by omega

/-- Lowers an estimate that is not below the root of `value` until Newton's step no
longer lowers it. -/
def improveRoot (degree value estimate : Nat) : Nat :=
  let next := ((degree - 1) * estimate + value / Nat.pow estimate (degree - 1)) / degree
  if next < estimate then improveRoot degree value next else estimate
termination_by estimate

/-- The largest number whose power does not exceed `value`. The first estimate is a power
of two above the root. -/
def floorRoot (degree value : Nat) : Nat :=
  improveRoot degree value (twoTo (Nat.log2 value / degree + 1))

end Calculator
