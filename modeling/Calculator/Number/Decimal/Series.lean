import Calculator.Number.Decimal

/-!
# Elementary functions of decimals

Exponential, logarithm, circular functions and powers, each to a requested number of
digits. An argument is first brought close to the point where a power series converges
quickly; the series is summed at a working precision a few digits wider than the result
until a term no longer matters, and the reduction is undone.

A series is summed with the index of its terms in a 32-bit word, so a bound of that many
terms loses nothing.
-/

namespace Calculator.Decimal

/-- The number of terms after which a summation gives up. -/
def seriesTerms : Nat := 4294967296

/-- The number of halvings after which an argument reduction gives up. -/
def reductionSteps : Nat := 64

/-- Whether a term is too small to change the leading digits of a sum. -/
def isNegligible (term sum : Decimal) (digits : Nat) : Bool :=
  term.isZero
    || (!sum.isZero && term.exponent < sum.exponent - Int64.ofNat digits - 1)

/-- Adds the terms of a series to a sum until one is negligible. The state from which
terms are formed is passed from term to term. -/
def sumSeries {State : Type} (next : State → State × Decimal) (digits : Nat) :
    Nat → State → Decimal → Decimal
  | 0, _, sum => sum
  | terms + 1, state, sum =>
    let (following, term) := next state
    if isNegligible term sum digits then sum
    else sumSeries next digits terms following (sum.add term)

/-- The next term of the exponential series: the last term times `x / n`. -/
def exponentialTerm (x : Decimal) (work : Nat) :
    Decimal × UInt32 → (Decimal × UInt32) × Decimal
  | (term, n) =>
    let following := ((term.multiply x).divide (ofNat n.toNat)).withDigits work
    ((following, n + 1), following)

/-- Halves a value until its magnitude is at most one half, counting the halvings. -/
def halve : Nat → Decimal → Nat → Decimal × Nat
  | 0, x, halvings => (x, halvings)
  | steps + 1, x, halvings =>
    if half.isLess x.absolute then halve steps (x.multiply half) (halvings + 1)
    else (x, halvings)

/-- Squares a value a number of times, rounding after every step. -/
def squareTimes (work : Nat) : Nat → Decimal → Decimal
  | 0, x => x
  | times + 1, x => squareTimes work times ((x.multiply x).withDigits work)

/-- The magnitude beyond which the exponential leaves the range of decimals. -/
def exponentialLimit : Nat := 1000000000

/-- The exponential function. The argument is halved until the series converges quickly,
and the sum is squared as often. -/
def exponential (x : Decimal) (digits : Nat) : Outcome Decimal :=
  if x.isZero then .ok one
  else if 9 < x.exponent || (ofNat exponentialLimit).isLess x.absolute then
    if x.isNegative then .ok zero else .error .badArgumentValue
  else
    let (reduced, halvings) := halve reductionSteps x 0
    let work := digits + 4 + halvings * 3 / 10
    let sum := sumSeries (exponentialTerm reduced work) work seriesTerms (one, 1) one
    .ok ((squareTimes work halvings sum).withDigits digits)

/-- The next term of the series whose terms are the odd powers of a value over their
exponents. -/
def oddPowerTerm (square : Decimal) (work : Nat) :
    Decimal × UInt32 → (Decimal × UInt32) × Decimal
  | (power, n) =>
    let following := (power.multiply square).withDigits work
    let index := n + 2
    ((following, index), (following.divide (ofNat index.toNat)).withDigits work)

/-- The logarithm of a value near one, as twice the area tangent of `(m - 1) / (m + 1)`. -/
def logarithmNearOne (m : Decimal) (work : Nat) : Decimal :=
  let z := ((m.subtract one).divide (m.add one)).withDigits work
  let square := (z.multiply z).withDigits work
  (sumSeries (oddPowerTerm square work) work seriesTerms (z, 1) z).multiply (ofNat 2)

/-- Takes square roots until a value differs from one by at most a tenth, counting them. -/
def approachOne (digits : Nat) : Nat → Decimal → Nat → Decimal × Nat
  | 0, m, roots => (m, roots)
  | steps + 1, m, roots =>
    if (⟨1, 1⟩ : Decimal).isLess (m.subtract one).absolute then
      approachOne digits steps (m.squareRoot.withDigits digits) (roots + 1)
    else (m, roots)

/-- The logarithm of a positive value of moderate size. -/
def reducedLogarithm (m : Decimal) (work : Nat) : Decimal :=
  let (near, roots) := approachOne (work + 4) reductionSteps m 0
  (logarithmNearOne near (work + 4)).multiply (ofNat (twoTo roots))

/-- The natural logarithm of a positive value. The power of ten is split off first. -/
def naturalLogarithm (x : Decimal) (digits : Nat) : Outcome Decimal :=
  if !x.isPositive then .error .badArgumentValue
  else if x.isOne then .ok zero
  else
    let work := digits + 6
    let exponent := x.exponent
    let leading := reducedLogarithm ⟨x.mantissa, x.scale + exponent⟩ work
    let result :=
      if exponent = 0 then leading
      else leading.add ((reducedLogarithm (ofNat 10) work).multiply (ofInt exponent.toInt))
    .ok (result.withDigits digits)

/-- The next term of the arc tangent series: an odd power over its exponent, with
alternating sign. -/
def arcTangentTerm (square : Decimal) (work : Nat) :
    (Decimal × UInt32) × Bool → ((Decimal × UInt32) × Bool) × Decimal
  | (state, negative) =>
    let (following, term) := oddPowerTerm square work state
    ((following, !negative), if negative then term.negated else term)

/-- The arc tangent series. -/
def arcTangentSeries (x : Decimal) (work : Nat) : Decimal :=
  let square := (x.multiply x).withDigits work
  sumSeries (arcTangentTerm square work) work seriesTerms ((x, 1), true) x

/-- Half the circumference of the unit circle, as `16 atan(1/5) - 4 atan(1/239)`. -/
def halfTurn (digits : Nat) : Decimal :=
  let work := digits + 6
  let small := (one.divide (ofNat 239)).withDigits work
  let large := (arcTangentSeries ⟨2, 1⟩ work).multiply (ofNat 16)
  (large.subtract ((arcTangentSeries small work).multiply (ofNat 4))).withDigits digits

/-- A quarter of the full circle. -/
def quarterTurn (digits : Nat) : Decimal := (halfTurn digits).multiply half

/-- Halves an angle, given by its tangent, until the tangent is at most a fifth, counting
the halvings: `atan x = 2 atan (x / (1 + √(1 + x²)))`. -/
def halveAngle (work : Nat) : Nat → Decimal → Nat → Decimal × Nat
  | 0, x, halvings => (x, halvings)
  | steps + 1, x, halvings =>
    if (⟨2, 1⟩ : Decimal).isLess x.absolute then
      let root := (one.add (x.multiply x)).squareRoot
      halveAngle work steps ((x.divide (one.add root)).withDigits work) (halvings + 1)
    else (x, halvings)

/-- The arc tangent of a value between minus one and one. -/
def arcTangentWithin (x : Decimal) (digits : Nat) : Decimal :=
  if x.isZero then zero
  else
    let work := digits + 6
    let (reduced, halvings) := halveAngle work reductionSteps x 0
    ((arcTangentSeries reduced work).multiply (ofNat (twoTo halvings))).withDigits digits

/-- The arc tangent. Beyond one it is what the reciprocal's lacks to a quarter turn, where the reciprocal
is taken up to so many times. -/
def arcTangentOver : Nat → Decimal → Nat → Decimal
  | 0, x, digits => arcTangentWithin x digits
  | reciprocals + 1, x, digits =>
    if one.isLess x.absolute then
      let work := digits + 6
      let quarter := quarterTurn work
      let inverse := arcTangentOver reciprocals ((one.divide x).withDigits work) work
      let result :=
        if x.isNegative then quarter.negated.subtract inverse else quarter.subtract inverse
      result.withDigits digits
    else arcTangentWithin x digits

/-- The arc tangent. -/
def arcTangent (x : Decimal) (digits : Nat) : Decimal := arcTangentOver reductionSteps x digits

/-- The angle of the point with ordinate `y` and abscissa `x`. -/
def angle (y x : Decimal) (digits : Nat) : Decimal :=
  let work := digits + 4
  if x.isZero then
    if y.isZero then zero
    else if y.isPositive then (quarterTurn work).withDigits digits
    else ((halfTurn work).negated.multiply half).withDigits digits
  else
    let base := arcTangent ((y.divide x).withDigits work) work
    let result :=
      if x.isPositive then base
      else if y.isNegative then base.subtract (halfTurn work)
      else base.add (halfTurn work)
    result.withDigits digits

/-- Takes whole turns from an angle so that about half a turn to either side remains. The
circle is computed with as many more digits as the angle has in front of the point. -/
def reduceAngle (x : Decimal) (work : Nat) : Outcome Decimal :=
  let extra := x.exponent.toInt.toNat
  if integerDigits < extra then .error .badArgumentValue
  else do
    let turn := (halfTurn (work + extra)).multiply (ofNat 2)
    let turns ← ((x.divide turn).add half).floor
    return (x.subtract (turn.multiply (ofInt turns))).withDigits work

/-- The next term of the sine and cosine series, from the term whose exponent is `n`. -/
def circularTerm (square : Decimal) (work : Nat) :
    Decimal × UInt32 → (Decimal × UInt32) × Decimal
  | (term, n) =>
    let divisor := (n + 1) * (n + 2)
    let following :=
      (((term.multiply square).negated).divide (ofNat divisor.toNat)).withDigits work
    ((following, n + 2), following)

/-- The circular series that begins with a term of a given exponent. -/
def circularSeries (x start : Decimal) (exponent : UInt32) (work : Nat) : Decimal :=
  let square := (x.multiply x).withDigits work
  sumSeries (circularTerm square work) work seriesTerms (start, exponent) start

/-- The sine. -/
def sine (x : Decimal) (digits : Nat) : Outcome Decimal :=
  if x.isZero then .ok zero
  else do
    let work := digits + 6
    let reduced ← reduceAngle x work
    if reduced.isZero then return zero
    else return (circularSeries reduced reduced 1 work).withDigits digits

/-- The cosine. -/
def cosine (x : Decimal) (digits : Nat) : Outcome Decimal := do
  let work := digits + 6
  let reduced ← reduceAngle x work
  return (circularSeries reduced one 0 work).withDigits digits

/-- The square root to a number of digits. -/
def rootTo (x : Decimal) (digits : Nat) : Outcome Decimal :=
  if x.isNegative then .error .badArgumentValue
  else if x.isZero then .ok zero
  else .ok (x.squareRoot.withDigits digits)

/-- The power with an integer exponent. -/
def integerPower (x : Decimal) (exponent : Int) (digits : Nat) : Outcome Decimal :=
  if x.isZero then
    if exponent = 0 then .error .undefinedOperation
    else if exponent < 0 then .error .divideByZero
    else .ok zero
  else if UInt64.size ≤ exponent.natAbs then .error .badArgumentValue
  else
    let work := digits + 6 + Digits.binaryCount exponent.natAbs
    let multiply (left right : Decimal) : Id Decimal := (left.multiply right).withDigits work
    let product := (raiseOnto multiply one x exponent.natAbs).run
    let result := if exponent < 0 then one.divide product else product
    .ok (result.withDigits digits)

/-- The largest exponent of ten of an exponent whose power can be represented. -/
def powerDigits : Int64 := 18

/-- The power of a base that is not negative, or of any base if the exponent is an
integer. -/
def power (x y : Decimal) (digits : Nat) : Outcome Decimal :=
  if powerDigits < y.exponent then
    if x.isZero && y.isPositive then .ok zero else .error .badArgumentValue
  else
    match y.integer? with
    | some exponent => integerPower x exponent digits
    | none =>
      if x.isZero then
        if y.isPositive then .ok zero else .error .divideByZero
      else if x.isNegative then .error .badArgumentValue
      else do
        let work := digits + 6
        let logarithm ← naturalLogarithm x (work + y.exponent.toInt.toNat)
        let result ← exponential ((y.multiply logarithm).withDigits work) work
        return result.withDigits digits

end Calculator.Decimal
