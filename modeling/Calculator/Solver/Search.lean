import Calculator.Number.Operation

/-!
# The search for a root

A search for a point at which a function is zero, from values of the function alone. Two
points seed a low and a high bracket. From then on the next point is where the line through
the two brackets crosses zero, and a sample that is smaller than the larger bracket takes
that bracket's place. A sample that is no improvement leads to the middle of the last
change of sign, or, before there is one, to a point some way off.

The search is a value. `observe` says what follows from the value of the function at the
point that was asked for: another point, a root, or the end of the search without one.
-/

namespace Calculator

/-- A point and the value of the function there. -/
structure Sample where
  x : Decimal
  y : Decimal
deriving DecidableEq, Repr, Inhabited

/-- How far a search has come. -/
inductive SearchPhase where
  /-- The low bracket is being sampled. -/
  | seedLow
  /-- The high bracket is being sampled. -/
  | seedHigh
  | iterate
deriving DecidableEq, Repr

/-- A search under way. -/
structure Search where
  /-- Values below this are taken for zero, and so are relative distances of points. -/
  epsilon : Decimal
  /-- The number of digits of a point. -/
  digits : Nat
  low : Sample
  high : Sample
  /-- The distance of the two points the search began with. -/
  span : Decimal
  phase : SearchPhase
  /-- The point at which the function is to be sampled next. -/
  point : Decimal
  /-- How many points had to be given up because the function has no value there. -/
  failures : Nat
  /-- How many samples in a row were equal to both brackets. -/
  constant : Nat
  /-- The first of the samples that are closest to zero. -/
  best : Option Sample
  /-- The smaller magnitude of the two seeds. -/
  seeded : Decimal
  /-- The last point at which the function was below zero. -/
  negative : Option Decimal
  /-- The last point at which the function was above zero. -/
  positive : Option Decimal
deriving Repr

/-- What follows from a sample. -/
inductive Verdict where
  /-- The search goes on. -/
  | next (search : Search)
  | root (x : Decimal)
  /-- The search ends without a root. -/
  | hopeless (fault : Fault) (best : Option Sample)

namespace Search

/-- The magnitude of a value, but at least one. -/
def atLeastOne (x : Decimal) : Decimal :=
  if x.absolute.isLess .one then .one else x.absolute

/-- The thousandth part of a value. -/
def thousandth (x : Decimal) : Decimal := x.divide (.ofNat 1000)

/-- The half of a value. -/
def halved (x : Decimal) : Decimal := x.divide (.ofNat 2)

/-- The distance of two points. -/
def distance (x y : Decimal) : Decimal := (x.subtract y).absolute

/-- A point away from `x`. How far it lies away is a multiple of the width that varies with
the iteration, between three sixteenths and about six, and so does the side. -/
def jitter (x width : Decimal) (iteration : Nat) : Decimal :=
  let multiplier := (Decimal.ofNat (iteration * 7919 % 97 + 3)).divide (.ofNat 16)
  let step := if width.isZero then thousandth (atLeastOne x) else width.absolute
  let delta := step.multiply multiplier
  if iteration % 2 = 0 then x.add delta else x.subtract delta

/-- A search that begins with two points. If they are the same, the second one is moved. -/
def start (low high epsilon : Decimal) (digits : Nat) : Search :=
  let high := if low.isSame high then jitter low .zero 0 else high
  { epsilon, digits, low := ⟨low, .zero⟩, high := ⟨high, .zero⟩, span := distance high low,
    phase := .seedLow, point := low, failures := 0, constant := 0, best := none,
    seeded := .zero, negative := none, positive := none }

/-- The vector from the low to the high bracket. -/
def width (search : Search) : Decimal := search.high.x.subtract search.low.x

/-- The points of the last change of sign, the one below zero first. -/
def signChange? (search : Search) : Option (Decimal × Decimal) :=
  match search.negative, search.positive with
  | some negative, some positive => some (negative, positive)
  | _, _ => none

/-- How many points may be given up before the two brackets are seeded. -/
def toleratedFailures : Nat := 2

/-- The search after the function turned out to have no value at the point. Only the seeds
may be moved, and only so often. -/
def skip? (search : Search) (iteration : Nat) : Option Search :=
  if search.phase != .iterate && search.failures < toleratedFailures then
    some { search with
      failures := search.failures + 1
      point := jitter search.point search.width (iteration + 1) }
  else none

/-- Remembers a sample as the best one so far and as one side of a change of sign. -/
def note (search : Search) (sample : Sample) : Search :=
  let better := match search.best with
    | some best => sample.y.absolute.isLess best.y.absolute
    | none => true
  { search with
    best := if better then some sample else search.best
    negative := if sample.y.isNegative then some sample.x else search.negative
    positive := if sample.y.isNegative then search.positive else some sample.x }

/-- What a sample is in comparison with the brackets. -/
inductive Progress where
  | better
  /-- No smaller than both brackets. -/
  | worse
  /-- Equal to both brackets. -/
  | flat
deriving DecidableEq, Repr

/-- Makes a sample the high bracket. -/
def seedHigh (search : Search) (sample : Sample) : Search × Progress :=
  let y := sample.y.absolute
  let low := search.low.y.absolute
  ({ search with
    seeded := if low.isLess y then low else y
    high := sample
    phase := .iterate },
    if sample.y.isSame search.low.y then .flat else .better)

/-- Puts a sample in the place of the larger bracket if it is smaller. -/
def improve (search : Search) (sample : Sample) : Search × Progress :=
  let low := search.low.y.absolute
  let high := search.high.y.absolute
  let largest := if high.isLess low then low else high
  if sample.y.isSame search.low.y && sample.y.isSame search.high.y then (search, .flat)
  else if sample.y.absolute.isLess largest then
    if high.isLess low then ({ search with low := sample }, .better)
    else ({ search with high := sample }, .better)
  else (search, .worse)

/-- Whether the brackets have come closer than half of the distance they began with. -/
def isNarrow (search : Search) : Bool :=
  (search.width.absolute.multiply (.ofNat 2)).isLess search.span

/-- The number of samples equal to both brackets after which a function is constant. -/
def constantSamples : Nat := 3

/-- Goes on from a sample that is equal to both brackets. -/
def wander (search : Search) (iteration : Nat) : Verdict :=
  let search := { search with constant := search.constant + 1 }
  if constantSamples ≤ search.constant then .hopeless .constantValue search.best
  else .next { search with point := jitter search.high.x search.width iteration }

/-- The end of a search in an interval that is too small to go on. There is a root if the
function came closer to zero than at the seeds, and did so at the change of sign. -/
def close (search : Search) (change : Decimal × Decimal) : Verdict :=
  let width := distance change.1 change.2
  let center := halved (change.1.add change.2)
  match search.best with
  | some best =>
    if best.y.absolute.isLess search.seeded && !width.isLess (distance best.x center) then
      .root best.x
    else .hopeless .signReversal search.best
  | none => .hopeless .signReversal search.best

/-- The next point: where the line through the brackets crosses zero, unless the sample was
no improvement or the line crosses nowhere. -/
def nextPoint (search : Search) (progress : Progress) (iteration : Nat) : Decimal :=
  if progress == .worse || search.low.y.isSame search.high.y then
    match search.signChange? with
    | some (negative, positive) => halved (negative.add positive)
    | none => jitter search.high.x search.width iteration
  else
    let slope := (search.high.y.subtract search.low.y).divide search.width
    search.high.x.subtract (search.high.y.divide slope)

/-- Goes on from a sample that is not equal to both brackets, unless the interval has become
too small. The interval is the one between the points of the last change of sign, or
between the brackets before there is one. -/
def advance (search : Search) (progress : Progress) (iteration : Nat) : Verdict :=
  let search := { search with constant := 0 }
  let (left, right) := search.signChange?.getD (search.low.x, search.high.x)
  let midpoint := (halved (left.add right)).absolute
  let smallest := search.epsilon.multiply (atLeastOne midpoint)
  if smallest.isLess (distance left right) then
    .next { search with
      point := (search.nextPoint progress iteration).withDigits search.digits }
  else
    match search.signChange? with
    | some change => search.close change
    | none => .hopeless .noSolution search.best

/-- Goes on from a sample behind the seeds. Samples equal to both brackets are a sign of a
constant function, but between brackets that have come close they are an extremum. -/
def proceed (search : Search) (progress : Progress) (iteration : Nat) : Verdict :=
  if progress == .flat then
    if search.isNarrow then
      if search.signChange?.isNone then .hopeless .noSolution search.best
      else search.advance .worse iteration
    else search.wander iteration
  else search.advance progress iteration

/-- What follows from the value of the function at the point that was asked for. -/
def observe (search : Search) (iteration : Nat) (y : Decimal) : Verdict :=
  if y.isZero || y.absolute.isLess search.epsilon then .root search.point
  else
    let sample : Sample := ⟨search.point, y⟩
    let search := search.note sample
    match search.phase with
    | .seedLow =>
      .next { search with low := sample, phase := .seedHigh, point := search.high.x }
    | .seedHigh =>
      let (search, progress) := search.seedHigh sample
      search.proceed progress iteration
    | .iterate =>
      let (search, progress) := search.improve sample
      search.proceed progress iteration

end Search

end Calculator
