import Calculator.Proofs.Number.Denotation
import Calculator.Proofs.Number.Sign
import Calculator.Solver.Search
import Mathlib

/-!
# The course of a search

A search asks for one point after the other, and learns the value of a function there, or why there
is none. What it remembers is justified by what it has learned: the best sample, the points on the
two sides of a change of sign, the brackets, and how often the function seemed to be constant. So is
how it ends. A function that has only one value at a point has brackets at different points as long
as their values differ, so the line through them is not vertical.
-/

namespace Calculator

namespace Decimal

variable {x y : Decimal}

/-- One decimal is below another if its value is. -/
theorem isLess_eq_true : x.isLess y = true ↔ x.rational < y.rational := by
  rw [isLess, beq_iff_eq, order_eq, compare_lt_iff_lt]

/-- One decimal is not below another if its value is not. -/
theorem isLess_eq_false : x.isLess y = false ↔ y.rational ≤ x.rational := by
  rw [Bool.eq_false_iff, ne_eq, isLess_eq_true, not_lt]

/-- Two decimals are the same if their values are. -/
theorem isSame_eq_true : x.isSame y = true ↔ x.rational = y.rational := by
  rw [isSame, beq_iff_eq, order_eq, compare_eq_iff_eq]

/-- A decimal is zero if its value is. -/
theorem isZero_eq_true : x.isZero = true ↔ x.rational = 0 := by
  rw [isZero, beq_iff_eq, rational_eq_zero_iff]

/-- A decimal is below zero if its value is. -/
theorem isNegative_eq_true : x.isNegative = true ↔ x.rational < 0 := by
  rw [isNegative, decide_eq_true_iff, rational_neg_iff]

/-- The value of a magnitude. -/
theorem rational_absolute (x : Decimal) : x.absolute.rational = |x.rational| :=
  (abs_rational x).symm

/-- A quotient is zero only if the dividend is. -/
theorem rational_divide_ne_zero (dividend : x.rational ≠ 0) (divisor : y.rational ≠ 0) :
    (x.divide y).rational ≠ 0 := by
  rw [ne_eq, rational_eq_zero_iff, ← Int.sign_eq_zero_iff_zero] at dividend divisor ⊢
  rw [show (x.divide y).mantissa.sign = _ from sign_divide x divisor]
  exact Int.mul_ne_zero dividend divisor

/-- A quotient, if the divisor is not zero. -/
def divide? (x y : Decimal) : Option Decimal := if y.isZero then none else some (x.divide y)

/-- There is a quotient by what is not zero. -/
theorem divide?_of_ne_zero (nonzero : y.rational ≠ 0) : x.divide? y = some (x.divide y) :=
  if_neg (mt isZero_eq_true.mp nonzero)

end Decimal

/-! ## Samples -/

/-- A point at which a function was to be sampled, and its value there or why it has none. -/
structure Attempt where
  x : Decimal
  outcome : Outcome Decimal

/-- The samples among some attempts. -/
def samples (attempts : List Attempt) : List Sample :=
  attempts.filterMap fun attempt => attempt.outcome.toOption.map (⟨attempt.x, ·⟩)

/-- The first of the samples that are closest to zero, if there are any. -/
def IsFirstLeast (samples : List Sample) : Option Sample → Prop
  | none => samples = []
  | some best => ∃ before after, samples = before ++ best :: after ∧
      (∀ sample ∈ before, |best.y.rational| < |sample.y.rational|) ∧
      ∀ sample ∈ after, |best.y.rational| ≤ |sample.y.rational|

/-- At a point that was sampled the function was below zero. -/
def SampledBelow (attempts : List Attempt) (x : Decimal) : Prop :=
  ∃ y, Sample.mk x y ∈ samples attempts ∧ y.rational < 0

/-- At a point that was sampled the function was above zero. -/
def SampledAbove (attempts : List Attempt) (x : Decimal) : Prop :=
  ∃ y, Sample.mk x y ∈ samples attempts ∧ 0 < y.rational

/-- The last so many attempts were samples, and all of them were equal to two values. -/
def Level (attempts : List Attempt) (count : ℕ) (low high : Decimal) : Prop :=
  ∃ earlier flats, attempts = earlier ++ flats ∧ flats.length = count ∧
    ∀ attempt ∈ flats, ∃ y, attempt.outcome = .ok y ∧ y.rational = low.rational ∧
      y.rational = high.rational

/-- At the same point there was always the same value, or it always failed in the same way. -/
def Consistent (attempts : List Attempt) : Prop :=
  ∀ first ∈ attempts, ∀ second ∈ attempts, first.x.rational = second.x.rational →
    match first.outcome, second.outcome with
    | .ok y, .ok y' => y.rational = y'.rational
    | .error fault, .error fault' => fault = fault'
    | _, _ => False

section Samples

variable {attempts : List Attempt} {x y : Decimal}

/-- What was consistent is so before its last attempts. -/
theorem Consistent.of_prefix {earlier : List Attempt} (consistent : Consistent attempts)
    (early : earlier <+: attempts) : Consistent earlier :=
  fun first among second among' =>
    consistent first (early.subset among) second (early.subset among')

/-- One more sample. -/
theorem samples_ok (attempts : List Attempt) (x y : Decimal) :
    samples (attempts ++ [⟨x, .ok y⟩]) = samples attempts ++ [⟨x, y⟩] := by
  simp [samples, Except.toOption]

/-- A failure is no sample. -/
theorem samples_error (attempts : List Attempt) (x : Decimal) (fault : Fault) :
    samples (attempts ++ [⟨x, .error fault⟩]) = samples attempts := by
  simp [samples, Except.toOption]

/-- A sample came of an attempt. -/
theorem mem_samples {sample : Sample} :
    sample ∈ samples attempts ↔ Attempt.mk sample.x (.ok sample.y) ∈ attempts := by
  rw [samples, List.mem_filterMap]
  constructor
  · rintro ⟨⟨x, outcome⟩, among, same⟩
    cases outcome with
    | error fault => cases same
    | ok y =>
      obtain rfl := Option.some.inj same
      exact among
  · intro among
    exact ⟨_, among, rfl⟩

/-- The best of some samples and one more. -/
theorem isFirstLeast_snoc {best : Option Sample} {all : List Sample} (sample : Sample) :
    IsFirstLeast all best → IsFirstLeast (all ++ [sample])
      (if (match best with
        | some best => sample.y.absolute.isLess best.y.absolute
        | none => true) = true then some sample else best) := by
  cases best with
  | none =>
    rintro rfl
    exact ⟨[], [], rfl, List.forall_mem_nil _, List.forall_mem_nil _⟩
  | some best =>
    rintro ⟨before, after, rfl, front, back⟩
    dsimp only
    split
    · rename_i better
      rw [Decimal.isLess_eq_true, Decimal.rational_absolute, Decimal.rational_absolute] at better
      refine ⟨before ++ best :: after, [], rfl, ?_, List.forall_mem_nil _⟩
      intro other among
      rcases List.mem_append.mp among with early | late
      · exact better.trans (front other early)
      · rcases List.mem_cons.mp late with rfl | behind
        · exact better
        · exact better.trans_le (back other behind)
    · rename_i worse
      rw [Bool.not_eq_true, Decimal.isLess_eq_false, Decimal.rational_absolute,
        Decimal.rational_absolute] at worse
      refine ⟨before, after ++ [sample], by simp, front, ?_⟩
      intro other among
      rcases List.mem_append.mp among with early | last
      · exact back other early
      · exact List.mem_singleton.mp last ▸ worse

/-- What was sampled below zero was so before another attempt as well as behind it. -/
theorem SampledBelow.append (below : SampledBelow attempts x) (more : List Attempt) :
    SampledBelow (attempts ++ more) x := by
  obtain ⟨y, among, less⟩ := below
  exact ⟨y, mem_samples.mpr (List.mem_append_left _ (mem_samples.mp among)), less⟩

/-- What was sampled above zero was so before another attempt as well as behind it. -/
theorem SampledAbove.append (above : SampledAbove attempts x) (more : List Attempt) :
    SampledAbove (attempts ++ more) x := by
  obtain ⟨y, among, greater⟩ := above
  exact ⟨y, mem_samples.mpr (List.mem_append_left _ (mem_samples.mp among)), greater⟩

/-- One more sample that is equal to two values. -/
theorem Level.snoc {count : ℕ} {low high : Decimal} (level : Level attempts count low high)
    (x : Decimal) (same : y.rational = low.rational) (same' : y.rational = high.rational) :
    Level (attempts ++ [⟨x, .ok y⟩]) (count + 1) low high := by
  obtain ⟨earlier, flats, rfl, length, each⟩ := level
  refine ⟨earlier, flats ++ [⟨x, .ok y⟩], List.append_assoc .., ?_, ?_⟩
  · rw [List.length_append, length, List.length_singleton]
  · intro attempt among
    rcases List.mem_append.mp among with early | last
    · exact each attempt early
    · obtain rfl := List.mem_singleton.mp last
      exact ⟨y, rfl, same, same'⟩

/-- If so many attempts were equal to two values, so were fewer. -/
theorem Level.mono {count fewer : ℕ} {low high : Decimal} (level : Level attempts count low high)
    (less : fewer ≤ count) : Level attempts fewer low high := by
  obtain ⟨earlier, flats, rfl, length, each⟩ := level
  refine ⟨earlier ++ flats.take (count - fewer), flats.drop (count - fewer), ?_, ?_, ?_⟩
  · rw [List.append_assoc, List.take_append_drop]
  · rw [List.length_drop, length]
    omega
  · exact fun attempt among => each attempt (List.mem_of_mem_drop among)

/-- No samples are equal to any values. -/
theorem level_zero (attempts : List Attempt) (low high : Decimal) : Level attempts 0 low high :=
  ⟨attempts, [], (List.append_nil _).symm, rfl, List.forall_mem_nil _⟩

end Samples

namespace Search

/-! ## What follows from a sample -/

/-- How a search goes on or ends behind the brackets that a sample leaves. -/
inductive Proceeds (search : Search) (progress : Progress) (iteration : ℕ) : Verdict → Prop
  /-- A sample equal to both brackets leads to a point off the brackets. -/
  | wandered (flat : progress = .flat) (few : search.constant + 1 < constantSamples) :
      Proceeds search progress iteration (.next { search with
        constant := search.constant + 1
        point := jitter search.high.x search.width iteration })
  /-- The function seems to be constant. -/
  | constant (flat : progress = .flat) (many : constantSamples ≤ search.constant + 1) :
      Proceeds search progress iteration (.hopeless .constantValue search.best)
  /-- Another sample leads to the next point. -/
  | advanced (judged : Progress) :
      Proceeds search progress iteration (.next { search with
        constant := 0
        point := (search.nextPoint judged iteration).withDigits search.digits })
  /-- The brackets are too close, and there was no change of sign. -/
  | unsolved : Proceeds search progress iteration (.hopeless .noSolution search.best)
  /-- The points of the last change of sign are too close. -/
  | reversed {change : Decimal × Decimal} (found : search.signChange? = some change) :
      Proceeds search progress iteration (.hopeless .signReversal search.best)
  /-- The points of the last change of sign are so close that the best sample is a root. -/
  | closed {left right : Decimal} {best : Sample}
      (found : search.signChange? = some (left, right)) (least : search.best = some best)
      (close : (distance left right).rational ≤
        (search.epsilon.multiply (atLeastOne (halved (left.add right)).absolute)).rational)
      (near : (distance best.x (halved (left.add right))).rational ≤
        (distance left right).rational) :
      Proceeds search progress iteration (.root best.x)

variable {search next : Search} {iteration : ℕ}

/-- A search goes on from a sample that is not equal to both brackets to the next point, or ends
because the points are too close. -/
theorem proceeds_advance (search : Search) (progress judged : Progress) (iteration : ℕ) :
    Proceeds search progress iteration (search.advance judged iteration) := by
  have change : { search with constant := 0 }.signChange? = search.signChange? := rfl
  unfold advance
  dsimp only
  split
  · exact .advanced judged
  · rename_i narrow
    rw [Bool.not_eq_true, Decimal.isLess_eq_false] at narrow
    rw [change] at narrow ⊢
    cases found : search.signChange? with
    | none => exact .unsolved
    | some points =>
      rw [found] at narrow
      unfold close
      dsimp only
      split
      · rename_i best least
        split
        · rename_i near
          rw [Bool.and_eq_true, Bool.not_eq_true', Decimal.isLess_eq_false] at near
          exact .closed found least narrow near.2
        · exact .reversed found
      · exact .reversed found

/-- What a search does behind the brackets that a sample leaves. -/
theorem proceeds_proceed (search : Search) (progress : Progress) (iteration : ℕ) :
    Proceeds search progress iteration (search.proceed progress iteration) := by
  unfold proceed
  split
  · rename_i flat
    have flat : progress = .flat := eq_of_beq flat
    split
    · split
      · exact .unsolved
      · exact proceeds_advance search progress _ iteration
    · unfold wander
      dsimp only
      split
      · rename_i many
        exact .constant flat many
      · rename_i few
        exact .wandered flat (Nat.lt_of_not_le few)
  · exact proceeds_advance search progress _ iteration

/-! ## What a search remembers -/

/-- What a search remembers of samples, whatever the phase, is justified by the attempts. -/
structure Noted (epsilon : Decimal) (attempts : List Attempt) (search : Search) : Prop where
  tolerance : search.epsilon = epsilon
  best : IsFirstLeast (samples attempts) search.best
  negative {x} (below : search.negative = some x) : SampledBelow attempts x
  positive {x} (above : search.positive = some x) : SampledAbove attempts x

/-- What a search remembers is justified by the attempts. -/
structure Supported (epsilon : Decimal) (attempts : List Attempt) (search : Search) : Prop
    extends Noted epsilon attempts search where
  /-- The low bracket is a sample once it has been seeded. -/
  low (seeded : search.phase ≠ .seedLow) : search.low ∈ samples attempts
  /-- The high bracket is a sample once it has been seeded. -/
  high (seeded : search.phase = .iterate) : search.high ∈ samples attempts
  /-- As many samples as are counted were equal to both brackets. -/
  level : Level attempts search.constant search.low.y search.high.y
  /-- Nothing is counted before there are brackets. -/
  uncounted (seeding : search.phase ≠ .iterate) : search.constant = 0

/-- Behind the brackets that the last attempt leaves, what the search remembers is justified by the
attempts. -/
structure Prepared (epsilon : Decimal) (attempts : List Attempt) (search : Search)
    (progress : Progress) : Prop extends Noted epsilon attempts search where
  phase : search.phase = .iterate
  low : search.low ∈ samples attempts
  high : search.high ∈ samples attempts
  level (flat : progress = .flat) :
    Level attempts (search.constant + 1) search.low.y search.high.y

variable {attempts : List Attempt} {epsilon y : Decimal}

/-- A search that begins remembers nothing. -/
theorem supported_start (low high epsilon : Decimal) (digits : ℕ) :
    Supported epsilon [] (start low high epsilon digits) where
  tolerance := rfl
  best := rfl
  negative below := by cases below
  positive above := by cases above
  low seeded := absurd rfl seeded
  high seeded := by cases seeded
  level := level_zero _ _ _
  uncounted _ := rfl

/-- The signs of the points of the last change of sign. -/
theorem Noted.signChange {left right : Decimal} (noted : Noted epsilon attempts search)
    (found : search.signChange? = some (left, right)) :
    SampledBelow attempts left ∧ SampledAbove attempts right := by
  unfold signChange? at found
  split at found
  · rename_i negative positive below above
    obtain ⟨rfl, rfl⟩ := Prod.mk.inj (Option.some.inj found)
    exact ⟨noted.negative below, noted.positive above⟩
  · cases found

/-- What a search remembers is justified also behind a point that was given up. -/
theorem Supported.skip {fault : Fault} (supported : Supported epsilon attempts search)
    (skipped : search.skip? iteration = some next) :
    Supported epsilon (attempts ++ [⟨search.point, .error fault⟩]) next := by
  unfold skip? at skipped
  split at skipped
  · rename_i tolerated
    obtain rfl := Option.some.inj skipped
    have seeding : search.phase ≠ .iterate := by simpa using (Bool.and_eq_true_iff.mp tolerated).1
    have none := supported.uncounted seeding
    exact {
      tolerance := supported.tolerance
      best := by
        rw [samples_error]
        exact supported.best
      negative := fun below => (supported.negative below).append _
      positive := fun above => (supported.positive above).append _
      low := fun seeded => by
        rw [samples_error]
        exact supported.low seeded
      high := fun seeded => absurd seeded seeding
      level := by
        rw [none]
        exact level_zero _ _ _
      uncounted := fun _ => none }
  · cases skipped

/-- A sample that is not zero is remembered. -/
theorem Noted.note (noted : Noted epsilon attempts search) (nonzero : y.rational ≠ 0) :
    Noted epsilon (attempts ++ [⟨search.point, .ok y⟩]) (search.note ⟨search.point, y⟩) where
  tolerance := noted.tolerance
  best := by
    rw [samples_ok]
    exact isFirstLeast_snoc _ noted.best
  negative := by
    intro x below
    unfold Search.note at below
    dsimp only at below
    split at below
    · rename_i negative
      obtain rfl := Option.some.inj below
      exact ⟨y, by simp [samples_ok], Decimal.isNegative_eq_true.mp negative⟩
    · exact (noted.negative below).append _
  positive := by
    intro x above
    unfold Search.note at above
    dsimp only at above
    split at above
    · exact (noted.positive above).append _
    · rename_i other
      obtain rfl := Option.some.inj above
      rw [Decimal.isNegative_eq_true, not_lt] at other
      exact ⟨y, by simp [samples_ok], other.lt_of_ne nonzero.symm⟩

/-- The sample at the second seed is the high bracket. -/
theorem Supported.seedHigh (supported : Supported epsilon attempts search)
    (nonzero : y.rational ≠ 0) (phase : search.phase = .seedHigh) :
    let left := (search.note ⟨search.point, y⟩).seedHigh ⟨search.point, y⟩
    Prepared epsilon (attempts ++ [⟨search.point, .ok y⟩]) left.1 left.2 := by
  have noted := supported.toNoted.note nonzero
  have seeded : search.phase ≠ .seedLow := by simp [phase]
  have none : search.constant = 0 := supported.uncounted (by simp [phase])
  have last : Sample.mk search.point y ∈ samples (attempts ++ [⟨search.point, .ok y⟩]) := by
    simp [samples_ok]
  refine ⟨⟨noted.tolerance, noted.best, noted.negative, noted.positive⟩, rfl, ?_, last,
    fun flat => ?_⟩
  · rw [samples_ok]
    exact List.mem_append_left _ (supported.low seeded)
  · have same : y.rational = search.low.y.rational := by
      unfold Search.seedHigh at flat
      dsimp only at flat
      split at flat
      · rename_i same
        exact Decimal.isSame_eq_true.mp same
      · cases flat
    have first := (level_zero attempts search.low.y y).snoc search.point same rfl
    change Level _ (search.constant + 1) search.low.y y
    rwa [none]

/-- A sample that is equal to both brackets takes the place of none. -/
theorem improve_flat {sample : Sample} (flat : (search.improve sample).2 = .flat) :
    (search.improve sample).1 = search := by
  unfold Search.improve at flat ⊢
  dsimp only at flat ⊢
  split_ifs at flat ⊢
  rfl

/-- A sample takes the place of the larger bracket, or of none. -/
theorem Supported.improve (supported : Supported epsilon attempts search) (nonzero : y.rational ≠ 0)
    (phase : search.phase = .iterate) :
    let left := (search.note ⟨search.point, y⟩).improve ⟨search.point, y⟩
    Prepared epsilon (attempts ++ [⟨search.point, .ok y⟩]) left.1 left.2 := by
  have noted := supported.toNoted.note nonzero
  have low : search.low ∈ samples (attempts ++ [⟨search.point, .ok y⟩]) := by
    rw [samples_ok]
    exact List.mem_append_left _ (supported.low (by simp [phase]))
  have high : search.high ∈ samples (attempts ++ [⟨search.point, .ok y⟩]) := by
    rw [samples_ok]
    exact List.mem_append_left _ (supported.high phase)
  have last : Sample.mk search.point y ∈ samples (attempts ++ [⟨search.point, .ok y⟩]) := by
    simp [samples_ok]
  dsimp only
  unfold Search.improve
  dsimp only
  generalize (if (search.note ⟨search.point, y⟩).high.y.absolute.isLess
    (search.note ⟨search.point, y⟩).low.y.absolute = true then
    (search.note ⟨search.point, y⟩).low.y.absolute
    else (search.note ⟨search.point, y⟩).high.y.absolute) = largest
  split
  · rename_i flat
    rw [Bool.and_eq_true, Decimal.isSame_eq_true, Decimal.isSame_eq_true] at flat
    exact ⟨noted, phase, low, high, fun _ => supported.level.snoc search.point flat.1 flat.2⟩
  · split
    · split
      · exact ⟨⟨noted.tolerance, noted.best, noted.negative, noted.positive⟩, phase, last, high,
          nofun⟩
      · exact ⟨⟨noted.tolerance, noted.best, noted.negative, noted.positive⟩, phase, low, last,
          nofun⟩
    · exact ⟨noted, phase, low, high, nofun⟩

/-- What a search remembers behind its next point is justified. -/
theorem Prepared.supported {progress : Progress}
    (prepared : Prepared epsilon attempts search progress)
    (proceeds : Proceeds search progress iteration (.next next)) :
    Supported epsilon attempts next := by
  have noted := prepared.toNoted
  cases proceeds with
  | wandered flat few =>
    exact ⟨⟨noted.tolerance, noted.best, noted.negative, noted.positive⟩, fun _ => prepared.low,
      fun _ => prepared.high, prepared.level flat, fun seeding => absurd prepared.phase seeding⟩
  | advanced judged =>
    exact ⟨⟨noted.tolerance, noted.best, noted.negative, noted.positive⟩, fun _ => prepared.low,
      fun _ => prepared.high, level_zero _ _ _, fun seeding => absurd prepared.phase seeding⟩

/-! ## Courses -/

/-- The states that a search comes to, each with the attempts that have led there. -/
inductive Reached (first : Search) : List Attempt → Search → Prop
  | start : Reached first [] first
  | skipped {attempts : List Attempt} {search next : Search} (fault : Fault)
      (reached : Reached first attempts search)
      (skips : search.skip? attempts.length = some next) :
      Reached first (attempts ++ [⟨search.point, .error fault⟩]) next
  | observed {attempts : List Attempt} {search next : Search} {y : Decimal}
      (reached : Reached first attempts search)
      (goes : search.observe attempts.length y = .next next) :
      Reached first (attempts ++ [⟨search.point, .ok y⟩]) next

/-- The last attempt failed, in a given way. -/
def FailedLast (attempts : List Attempt) (fault : Fault) : Prop :=
  ∃ x, attempts.getLast? = some ⟨x, .error fault⟩

/-- How a search ends is justified by its attempts. -/
inductive Justified (first : Search) (attempts : List Attempt) : Verdict → Prop
  /-- A root is a point at which the function was zero, or nearly so. -/
  | converged {x y : Decimal} (sampled : Sample.mk x y ∈ samples attempts)
      (small : y.rational = 0 ∨ |y.rational| < first.epsilon.rational) :
      Justified first attempts (.root x)
  /-- A root is the best point, between or close to two points of different signs that are close to
  each other. -/
  | closed {best : Sample} {left right : Decimal}
      (least : IsFirstLeast (samples attempts) (some best)) (below : SampledBelow attempts left)
      (above : SampledAbove attempts right)
      (close : (distance left right).rational ≤
        (first.epsilon.multiply (atLeastOne (halved (left.add right)).absolute)).rational)
      (near : (distance best.x (halved (left.add right))).rational ≤
        (distance left right).rational) :
      Justified first attempts (.root best.x)
  /-- A search that ends without a root tells the best point. There is a change of sign if it says
  so, and three samples were equal to both brackets if it says that the function is constant, unless
  the function itself failed in this way. -/
  | hopeless {fault : Fault} {best : Option Sample}
      (least : IsFirstLeast (samples attempts) best)
      (reversal : fault = .signReversal → FailedLast attempts fault ∨
        ∃ left right, SampledBelow attempts left ∧ SampledAbove attempts right)
      (constant : fault = .constantValue → FailedLast attempts fault ∨
        ∃ search, Reached first attempts.dropLast search ∧
          Level attempts constantSamples search.low.y search.high.y) :
      Justified first attempts (.hopeless fault best)

variable {first : Search}

/-- A search ends behind the brackets that a sample leaves as it may. -/
theorem Prepared.justified {progress : Progress} {verdict : Verdict}
    (prepared : Prepared first.epsilon attempts search progress)
    (proceeds : Proceeds search progress iteration verdict)
    (constant : progress = .flat → constantSamples ≤ search.constant + 1 →
      ∃ search, Reached first attempts.dropLast search ∧
        Level attempts constantSamples search.low.y search.high.y) :
    (∃ next, verdict = .next next ∧ Supported first.epsilon attempts next) ∨
      Justified first attempts verdict := by
  cases proceeds with
  | wandered flat few =>
    exact .inl ⟨_, rfl, prepared.supported (Proceeds.wandered flat few : Proceeds _ _ iteration _)⟩
  | advanced judged =>
    exact .inl ⟨_, rfl, prepared.supported (Proceeds.advanced judged : Proceeds _ _ iteration _)⟩
  | constant flat many =>
    exact .inr (.hopeless prepared.best nofun fun _ => .inr (constant flat many))
  | unsolved => exact .inr (.hopeless prepared.best nofun nofun)
  | @reversed change found =>
    exact .inr (.hopeless prepared.best
      (fun _ => .inr ⟨_, _, prepared.toNoted.signChange found⟩) nofun)
  | closed found least close near =>
    obtain ⟨below, above⟩ := prepared.toNoted.signChange found
    exact .inr (.closed (least ▸ prepared.best) below above (prepared.tolerance ▸ close) near)

/-- What follows from a sample is justified: either what the search remembers, or how it ends. -/
theorem Supported.observe (supported : Supported first.epsilon attempts search)
    (reached : Reached first attempts search) (y : Decimal) :
    let after := attempts ++ [⟨search.point, .ok y⟩]
    (∃ next, search.observe attempts.length y = .next next ∧ Supported first.epsilon after next) ∨
      Justified first after (search.observe attempts.length y) := by
  have before : (attempts ++ [Attempt.mk search.point (.ok y)]).dropLast = attempts :=
    List.dropLast_concat
  have last : Sample.mk search.point y ∈ samples (attempts ++ [⟨search.point, .ok y⟩]) := by
    simp [samples_ok]
  dsimp only
  unfold Search.observe
  split
  · rename_i small
    rw [Bool.or_eq_true, Decimal.isZero_eq_true, Decimal.isLess_eq_true, Decimal.rational_absolute,
      supported.tolerance] at small
    exact .inr (.converged last small)
  · rename_i large
    have nonzero : y.rational ≠ 0 := by
      intro zero
      exact large (Bool.or_eq_true_iff.mpr (.inl (Decimal.isZero_eq_true.mpr zero)))
    dsimp only
    split
    · rename_i phase
      have phase : search.phase = .seedLow := phase
      have noted := supported.toNoted.note nonzero
      have none : search.constant = 0 := supported.uncounted (by simp [phase])
      refine .inl ⟨_, rfl, ⟨noted.tolerance, noted.best, noted.negative, noted.positive⟩,
        fun _ => last, nofun, ?_, fun _ => none⟩
      change Level _ search.constant _ _
      rw [none]
      exact level_zero _ _ _
    · rename_i phase
      have phase : search.phase = .seedHigh := phase
      have prepared := supported.seedHigh nonzero phase
      refine prepared.justified (proceeds_proceed _ _ _) fun _ many => ?_
      have none : search.constant = 0 := supported.uncounted (by simp [phase])
      have counted : constantSamples ≤ search.constant + 1 := many
      rw [none] at counted
      exact absurd counted (by decide)
    · rename_i phase
      have prepared := supported.improve nonzero phase
      refine prepared.justified (proceeds_proceed _ _ _) fun flat many => ?_
      have level := (prepared.level flat).mono many
      rw [improve_flat flat] at level
      exact ⟨search, before.symm ▸ reached, level⟩

/-- Whatever state a search comes to, what it remembers is justified if it was at the start. -/
theorem Reached.supported (reached : Reached first attempts search)
    (begins : Supported first.epsilon [] first) : Supported first.epsilon attempts search := by
  induction reached with
  | start => exact begins
  | skipped fault _ skips inductionHypothesis => exact inductionHypothesis.skip skips
  | observed reached goes inductionHypothesis =>
    rcases inductionHypothesis.observe reached _ with ⟨next, same, supported⟩ | justified
    · obtain rfl := Verdict.next.inj (goes.symm.trans same)
      exact supported
    · rw [goes] at justified
      cases justified

/-! ## The line through the brackets -/

/-- The next point, if none of the divisions is by zero. Those by two, sixteen and a thousand, which
lead to a middle and to a point some way off, never are. -/
def nextPoint? (search : Search) (progress : Progress) (iteration : ℕ) : Option Decimal :=
  if progress == .worse || search.low.y.isSame search.high.y then
    match search.signChange? with
    | some (negative, positive) => some (halved (negative.add positive))
    | none => some (jitter search.high.x search.width iteration)
  else do
    let slope ← (search.high.y.subtract search.low.y).divide? search.width
    let step ← search.high.y.divide? slope
    return search.high.x.subtract step

/-- Where a function has one value at a point, brackets with different values are at different
points, and the line through them is not level. So nothing is divided by zero. -/
theorem Supported.nextPoint? (supported : Supported epsilon attempts search)
    (phase : search.phase = .iterate) (consistent : Consistent attempts) (progress : Progress)
    (iteration : ℕ) :
    search.nextPoint? progress iteration = some (search.nextPoint progress iteration) := by
  unfold Search.nextPoint? nextPoint
  split
  · cases search.signChange? <;> rfl
  · rename_i differ
    rw [Bool.or_eq_true, not_or, Decimal.isSame_eq_true] at differ
    have low := mem_samples.mp (supported.low (by simp [phase]))
    have high := mem_samples.mp (supported.high phase)
    have rise : (search.high.y.subtract search.low.y).rational ≠ 0 := by
      rw [Decimal.rational_subtract, sub_ne_zero]
      exact Ne.symm differ.2
    have width : search.width.rational ≠ 0 := by
      rw [Search.width, Decimal.rational_subtract, sub_ne_zero]
      intro same
      exact differ.2 (consistent _ high _ low same).symm
    have slope := Decimal.rational_divide_ne_zero rise width
    simp [Decimal.divide?_of_ne_zero width, Decimal.divide?_of_ne_zero slope]

/-- Between brackets, a sample that does not end the search leads on from the brackets it leaves. -/
theorem proceeds_observe (goes : search.observe iteration y = .next next)
    (phase : next.phase = .iterate) :
    ∃ left progress, Proceeds left progress iteration (.next next) := by
  unfold Search.observe at goes
  split at goes
  · cases goes
  · dsimp only at goes
    split at goes
    · cases goes
      cases phase
    · exact ⟨_, _, goes ▸ proceeds_proceed _ _ iteration⟩
    · exact ⟨_, _, goes ▸ proceeds_proceed _ _ iteration⟩

/-- No division by zero has led to the point that a state asks for between brackets. -/
def Divides (search : Search) : Prop :=
  (∃ iteration, search.point = jitter search.high.x search.width iteration) ∨
    ∃ judged iteration point, search.nextPoint? judged iteration = some point ∧
      search.point = point.withDigits search.digits

/-- Between brackets, no division by zero leads to the point that is asked for if the function has
one value at a point. -/
theorem Reached.divides {low high : Decimal} {digits : ℕ}
    (reached : Reached (Search.start low high epsilon digits) attempts search)
    (consistent : Consistent attempts) (phase : search.phase = .iterate) : search.Divides := by
  have supported := reached.supported (supported_start low high epsilon digits)
  cases reached with
  | start => cases phase
  | skipped fault reached skips =>
    unfold skip? at skips
    split at skips
    · rename_i tolerated
      cases skips
      have seeding := (Bool.and_eq_true_iff.mp tolerated).1
      rw [show _ = SearchPhase.iterate from phase] at seeding
      cases seeding
    · cases skips
  | observed reached goes =>
    obtain ⟨left, progress, proceeds⟩ := proceeds_observe goes phase
    cases proceeds with
    | wandered flat few => exact .inl ⟨_, rfl⟩
    | advanced judged =>
      exact .inr ⟨judged, _, _, supported.nextPoint? phase consistent judged _, rfl⟩

end Search

end Calculator
