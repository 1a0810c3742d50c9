import Calculator.Proofs.Source.Likeness
import Mathlib

/-!
# The recursion of reading

Reading goes one level deeper for every expression and every sequence within another one. How many
of them there are is said here by a counter, which is raised before a construct is read and lowered
again behind it, whether the construct can be read or not. Where the counter is at the limit of the
settings, nothing more is read. What is read in this way is unrolled as it is written, without a
count of the levels that are left, and with anything at all behind the last construct that was
unrolled. As soon as it is unrolled further than the limit, this makes no difference: the reading
has ended before.
-/

namespace Calculator.Source

variable {Item Other Result : Type}

/-- How many constructs that are being read lie within each other, and the most there have been. -/
structure Counter where
  depth : ℕ
  deepest : ℕ

/-- One more construct is being read. -/
def Counter.raised (counter : Counter) : Counter :=
  ⟨counter.depth + 1, max counter.deepest (counter.depth + 1)⟩

/-- One construct less is being read. -/
def Counter.lowered (counter : Counter) : Counter := ⟨counter.depth - 1, counter.deepest⟩

/-- Computations that may fail, and that leave a counter behind when they do as well. -/
abbrev Counting := ExceptT Fault (StateM Counter)

/-- Reads a construct within those that are being read. -/
def nested (reading : ReadingOn Counting Result) : ReadingOn Counting Result :=
  fun line cursor counter =>
    if line.settings.maxRecursion.toNat ≤ counter.depth then
      (tooDeep : ReadingOn Counting Result) line cursor counter
    else
      let (outcome, after) := reading line cursor counter.raised
      (outcome, after.lowered)

/-- Constructs with others within them, each of which is counted. -/
def counted (deeper : DeeperOn Counting) : DeeperOn Counting where
  algebraic minimum := nested (climb deeper minimum)
  sequence kind opening := nested (sequenceItems deeper kind opening)

/-- The recursion of reading, unrolled to some depth. What is beyond that is left open. -/
def unrolled (beyond : DeeperOn Counting) : ℕ → DeeperOn Counting
  | 0 => beyond
  | depth + 1 => counted (unrolled beyond depth)

/-- Reads the values of a line, given what can be read inside a construct. -/
def readLineWith (deeper : DeeperOn Counting) (source : String) (settings : Preferences) :
    Counting (List Value) := do
  let tokens ← MonadExcept.ofExcept (Token.split source)
  let (values, _) ←
    objectsWithin deeper tokens.length ⟨settings, source.utf8ByteSize⟩ ⟨none, tokens⟩
  return values

/-! ## What is counted -/

/-- Whether a computation at some depth has an outcome that corresponds to another one. It leaves
the counter at this depth, and has not gone deeper than to the limit. -/
def Mirrors (limit depth : ℕ) (Results : Item → Other → Prop) (computation : Counting Item)
    (outcome : Outcome Other) : Prop :=
  ∀ counter : Counter, counter.depth = depth → counter.deepest ≤ limit →
    ∃ result after, computation counter = (result, after) ∧
      Outcome.Alike Eq Results result outcome ∧ after.depth = depth ∧ after.deepest ≤ limit

variable {limit depth : ℕ}

/-- Computations in a row mirror outcomes in a row. -/
theorem Mirrors.bind {Items : Item → Other → Prop} {Answer : Type}
    {Results : Result → Answer → Prop} {computation : Counting Item} {outcome : Outcome Other}
    {next : Item → Counting Result} {mirrorNext : Other → Outcome Answer}
    (first : Mirrors limit depth Items computation outcome)
    (each : ∀ item other, Items item other →
      Mirrors limit depth Results (next item) (mirrorNext other)) :
    Mirrors limit depth Results (computation >>= next) (outcome >>= mirrorNext) := by
  intro counter here limited
  obtain ⟨result, after, done, alike, there, within⟩ := first counter here limited
  have run : (computation >>= next) counter = ExceptT.bindCont next result after := by
    change ExceptT.bindCont next (computation counter).1 (computation counter).2 = _
    rw [done]
  rw [run]
  cases alike with
  | ok same => exact each _ _ same after there within
  | error same => exact ⟨_, after, rfl, .error same, there, within⟩

/-- A line that is read with a counter, at some depth, is read as without one. -/
def counting (line : Line) (depth : ℕ) : Likeness Counting Outcome where
  settings := line.settings
  size := line.size
  imageSize := line.size
  Cursors := Eq
  Places := Eq
  Faults := Eq
  Outcomes := Mirrors line.settings.maxRecursion.toNat depth
  tokens := by
    rintro cursor _ rfl
    exact List.forall₂_same.mpr fun _ _ => ⟨rfl, rfl⟩
  passes := by
    rintro _ _ _ _ _ _ ⟨⟩
    rfl
  touches := by
    rintro _ _ _ _ _ _ ⟨⟩
    exact Iff.rfl
  ending := rfl
  toEnd := by
    rintro _ _ rfl
    rfl
  upTo := by
    rintro _ _ rfl _ _ rfl
    rfl
  placed := by
    rintro _ - _ _ rfl
    rfl
  unplaced _ := rfl
  pure alike counter here limited := ⟨_, counter, rfl, .ok alike, here, limited⟩
  throw alike counter here limited := ⟨_, counter, rfl, .error alike, here, limited⟩
  bind := Mirrors.bind

/-- Where the limit has been reached, no construct is read within another one. -/
theorem readings_nested_zero {line : Line} (full : line.settings.maxRecursion.toNat ≤ depth)
    (reading : ReadingOn Counting Result) :
    (counting line depth).Readings Eq (nested reading) tooDeep := by
  have fails : (counting line depth).Readings Eq (tooDeep : ReadingOn Counting Result)
    tooDeep := Likeness.readings_tooDeep
  intro cursor image cursors counter here limited
  have stopped : nested reading line cursor counter =
      (tooDeep : ReadingOn Counting Result) line cursor counter := by
    rw [nested, if_pos (here ▸ full)]
  obtain ⟨result, after, done, others⟩ := fails cursor image cursors counter here limited
  exact ⟨result, after, stopped.trans done, others⟩

/-- Where the limit has not been reached, a construct is read one level deeper. -/
theorem readings_nested {line : Line} (free : depth < line.settings.maxRecursion.toNat)
    {reading : ReadingOn Counting Result} {mirror : Reading Result}
    (deeper : (counting line (depth + 1)).Readings Eq reading mirror) :
    (counting line depth).Readings Eq (nested reading) mirror := by
  intro cursor image cursors counter here within
  have raised : counter.raised.deepest ≤ line.settings.maxRecursion.toNat := by
    simp only [Counter.raised]
    omega
  obtain ⟨result, after, done, alike, there, deepest⟩ :=
    deeper cursor image cursors counter.raised (congrArg (· + 1) here) raised
  refine ⟨result, after.lowered, ?_, alike, ?_, deepest⟩
  · have entered : nested reading line cursor counter =
        ((reading line cursor counter.raised).1,
          (reading line cursor counter.raised).2.lowered) := by
      rw [nested, if_neg (by omega)]
      rfl
    change nested reading line cursor counter = _
    rw [entered]
    change reading line cursor counter.raised = _ at done
    rw [done]
  · rw [Counter.lowered, there]
    rfl

/-- A recursion that is unrolled further than there are levels left reads as with these levels. -/
theorem deeper_unrolled (beyond : DeeperOn Counting) {line : Line} {levels steps : ℕ}
    (left : depth + levels = line.settings.maxRecursion.toNat) (further : levels < steps) :
    (counting line depth).Deeper (unrolled beyond steps) (atMost levels) := by
  induction levels generalizing depth steps with
  | zero =>
    obtain ⟨steps, rfl⟩ := Nat.exists_eq_add_one.mpr further
    have full : line.settings.maxRecursion.toNat ≤ depth := left.ge
    refine ⟨fun minimum => ?_, fun kind opening other places => ?_⟩
    · unfold atMost
      dsimp only
      rw [algebraicWithin]
      exact readings_nested_zero full (climb (unrolled beyond steps) minimum)
    · unfold atMost
      dsimp only
      rw [sequenceWithin]
      cases places
      exact readings_nested_zero full (sequenceItems (unrolled beyond steps) kind opening)
  | succ levels inductionHypothesis =>
    obtain ⟨steps, rfl⟩ := Nat.exists_eq_add_one.mpr (Nat.zero_lt_of_lt further)
    have free : depth < line.settings.maxRecursion.toNat := by omega
    have deeper : (counting line (depth + 1)).Deeper (unrolled beyond steps)
        (atMost levels) := inductionHypothesis (by omega) (Nat.lt_of_succ_lt_succ further)
    refine ⟨fun minimum => ?_, fun kind opening other places => ?_⟩
    · unfold atMost
      dsimp only
      rw [algebraicWithin]
      exact readings_nested free (Likeness.readings_climb deeper minimum)
    · unfold atMost
      dsimp only
      rw [sequenceWithin]
      exact readings_nested free (Likeness.readings_sequenceItems deeper kind places)

/-! ## Lines -/

/-- Whether a computation leaves a counter that is at some depth there, whether it succeeds or not,
and has not gone deeper than to the limit. -/
def Balanced (limit depth : ℕ) (computation : Counting Item) : Prop :=
  ∀ counter : Counter, counter.depth = depth → counter.deepest ≤ limit →
    (computation counter).2.depth = depth ∧ (computation counter).2.deepest ≤ limit

/-- What mirrors something is balanced. -/
theorem Mirrors.balanced {Results : Item → Other → Prop} {computation : Counting Item}
    {outcome : Outcome Other} (mirrors : Mirrors limit depth Results computation outcome) :
    Balanced limit depth computation := by
  intro counter here limited
  obtain ⟨result, after, done, -, there, within⟩ := mirrors counter here limited
  rw [done]
  exact ⟨there, within⟩

/-- What is read within another construct is balanced. -/
theorem balanced_unrolled (beyond : DeeperOn Counting) (line : Line) (cursor : Cursor) {steps : ℕ}
    (inside : depth ≤ line.settings.maxRecursion.toNat)
    (further : line.settings.maxRecursion.toNat < depth + steps) :
    (∀ minimum, Balanced line.settings.maxRecursion.toNat depth
      ((unrolled beyond steps).algebraic minimum line cursor)) ∧
    ∀ kind opening, Balanced line.settings.maxRecursion.toNat depth
      ((unrolled beyond steps).sequence kind opening line cursor) := by
  obtain ⟨levels, left⟩ := Nat.exists_eq_add_of_le inside
  have alike : (counting line depth).Deeper (unrolled beyond steps) (atMost levels) :=
    deeper_unrolled beyond left.symm (by omega)
  exact ⟨fun minimum => (alike.algebraic minimum cursor cursor rfl).balanced,
    fun kind opening => (alike.sequence kind rfl cursor cursor rfl).balanced⟩

/-- Outcomes that are alike in being the same are the same. -/
theorem eq_of_alike {outcome other : Outcome Item} (alike : Outcome.Alike Eq Eq outcome other) :
    outcome = other := by
  cases alike with
  | ok same => rw [same]
  | error same => rw [same]

/-- A line is read with a counter, however far the recursion is unrolled beyond the limit, as it is
read without one. The counter is at zero again behind it and has never been beyond the limit. -/
theorem readLineWith_eq (beyond : DeeperOn Counting) (source : String) {settings : Preferences}
    {steps : ℕ} (further : settings.maxRecursion.toNat < steps) :
    ∃ deepest ≤ settings.maxRecursion.toNat,
      readLineWith (unrolled beyond steps) source settings ⟨0, 0⟩ =
        (readLine source settings, ⟨0, deepest⟩) := by
  let line : Line := ⟨settings, source.utf8ByteSize⟩
  let like := counting line 0
  have deeper : like.Deeper (unrolled beyond steps) (outermost settings) :=
    deeper_unrolled beyond (Nat.zero_add _) further
  have mirrors : like.Outcomes Eq (readLineWith (unrolled beyond steps) source settings)
      (readLine source settings) := by
    have split : like.Outcomes Eq (MonadExcept.ofExcept (Token.split source))
        (Token.split source) := by
      cases Token.split source with
      | error fault => exact like.throw rfl
      | ok tokens => exact like.pure rfl
    refine like.bind split ?_
    rintro tokens _ rfl
    refine like.bind (Likeness.readings_objectsWithin deeper tokens.length _ _ rfl) ?_
    rintro ⟨values, after⟩ ⟨_, _⟩ ⟨rfl, -⟩
    exact like.pure rfl
  obtain ⟨result, ⟨_, deepest⟩, done, alike, rfl, within⟩ := mirrors ⟨0, 0⟩ rfl (Nat.zero_le _)
  exact ⟨deepest, within, by rw [done, eq_of_alike alike]⟩

end Calculator.Source
