import Calculator.Command
import Calculator.Number.Real

/-!
# Exact arithmetic

The operations whose results on exact numbers are exact: on integers of any size, and on
ratios. An operation without an exact result answers `none`, and the caller goes on to
the next wider kind of number. Results whose size could exhaust the memory are refused
before they are computed.
-/

namespace Calculator

/-- The largest result of a power, in bits. -/
def powerBits : Nat := 4194304

/-- The largest number whose factorial is computed. -/
def largestFactorial : Nat := 100000

/-- Whether raising numbers of so many bits to an exponent stays within the size limit. -/
def powerFits (bits exponent : Nat) : Bool :=
  exponent < UInt32.size && bits * exponent ≤ powerBits

/-- An exact power of an integer. -/
def exactPower (base : Int) (exponent : Nat) : Int :=
  let multiply (left right : Int) : Id Int := left * right
  (raiseOnto multiply 1 base exponent).run

namespace Integer

/-- The power of an integer with an integer exponent. Zero and the two units have powers
with any exponent, all others only while the result is of bearable size. -/
def power (base exponent : Int) : Outcome Real :=
  if exponent < 0 then .error .badArgumentValue
  else if base = 0 then
    if exponent = 0 then .error .undefinedOperation else .ok (.ofInt 0)
  else if base.natAbs = 1 then
    .ok (.ofInt (if base < 0 && exponent % 2 == 1 then -1 else 1))
  else if powerFits (Digits.binaryCount base.natAbs) exponent.natAbs then
    .ok (.ofInt (exactPower base exponent.natAbs))
  else .error .outOfMemory

/-- The integer that results from an operation on two integers, if it is one. -/
def operate (command : Command) (x y : Int) : Outcome (Option Real) :=
  match command with
  | .add => .ok (some (.ofInt (x + y)))
  | .subtract => .ok (some (.ofInt (x - y)))
  | .multiply => .ok (some (.ofInt (x * y)))
  | .divide =>
    if y = 0 then .error .divideByZero
    else if x.tmod y = 0 then .ok (some (.ofInt (x.tdiv y)))
    else .ok none
  | .remainder => if y = 0 then .error .divideByZero else .ok (some (.ofInt (x.tmod y)))
  | .modulo => if y = 0 then .error .divideByZero else .ok (some (.ofInt (x.fmod y)))
  | .power => if 0 ≤ y then (power x y).map some else .ok none
  | _ => .ok none

/-- The factorial of an integer that is not negative. -/
def factorial (n : Int) : Outcome Real :=
  if n < 0 then .error .badArgumentValue
  else if largestFactorial < n.natAbs then .error .outOfMemory
  else .ok (.ofInt (((List.range n.natAbs).foldl (fun product k => product * (k + 1)) 1 : Nat)))

end Integer

namespace Ratio

/-- The largest degree of a root that is looked for. -/
def largestDegree : Nat := 64

/-- The power of a ratio whose exponent is a ratio, if the roots that the exponent asks for
are exact. -/
def power (base exponent : Ratio) : Outcome (Option Real) :=
  if base.numerator = 0 then
    if exponent.numerator = 0 then .error .undefinedOperation
    else if exponent.numerator < 0 then .error .divideByZero
    else .ok (some (.ofInt 0))
  else
    let degree := exponent.denominator
    let roots : Option (Int × Int) :=
      if degree = 1 then some (base.numerator, base.denominator)
      else if degree < 0 || (largestDegree : Int) < degree then none
      else
        match exactRoot? base.numerator degree.natAbs, exactRoot? base.denominator degree.natAbs with
        | some above, some below => some (above, below)
        | _, _ => none
    match roots with
    | none => .ok none
    | some (above, below) =>
      let times := exponent.numerator.natAbs
      let bits := max (Digits.binaryCount above.natAbs) (Digits.binaryCount below.natAbs)
      if powerFits bits times then
        let above := exactPower above times
        let below := exactPower below times
        (if exponent.numerator < 0 then Real.ofQuotient below above
          else Real.ofQuotient above below).map some
      else .error .outOfMemory

/-- The number that results from an operation on two ratios, if it is rational. -/
def operate (command : Command) (x y : Ratio) : Outcome (Option Real) :=
  match command with
  | .add => (Real.ofRatio (x.add y)).map some
  | .subtract => (Real.ofRatio (x.subtract y)).map some
  | .multiply => (Real.ofRatio (x.multiply y)).map some
  | .divide =>
    if y.numerator = 0 then .error .divideByZero
    else (Real.ofRatio (x.divide y)).map some
  | .modulo =>
    if y.numerator = 0 then .error .divideByZero
    else (Real.ofRatio (x.modulo y)).map some
  | .remainder =>
    if y.numerator = 0 then .error .divideByZero
    else (Real.ofRatio (x.remainder y)).map some
  | .power => power x y
  | _ => .ok none

/-- The square root of a ratio, if both parts have exact ones. -/
def squareRoot? (x : Ratio) : Option Real :=
  match exactRoot? x.numerator 2, exactRoot? x.denominator 2 with
  | some above, some below => (Real.ofQuotient above below).toOption
  | _, _ => none

end Ratio

end Calculator
