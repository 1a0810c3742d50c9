import Calculator.Proofs.Machine.ReadBack
import Calculator.Proofs.Machine.Roots
import Calculator.Proofs.Solver.Course
import Mathlib

/-!
# How a search ends

To solve an equation is to take samples, one after the other, at the points that a search asks for.
Whatever the target does when it is evaluated, and whether this can be evaluated at all, the course
of the search is one that its attempts justify, and so is its end. At the end the unknown is left at
the root, or at the best sample if there is no root.
-/

namespace Calculator

/-- The point at which a verdict leaves the unknown, if it does. -/
def Verdict.point? : Verdict → Option Decimal
  | .next _ => none
  | .root x => some x
  | .hopeless _ best => best.map Sample.x

namespace Solver

open Machine Search

variable {Store Reference : Type} [Storage Store Reference]

section Run

variable (evaluate : Value → ActionOn Store Reference Value) (problem : Problem)
variable (precision : Precision)

/-- The states that a search comes to on the machines that it leaves, and the attempts that have led
there. -/
inductive UnderWay (first : Search) (start : Machine Store Reference) :
    List Attempt → Search → Machine Store Reference → Prop
  | begun : UnderWay first start [] first start
  | skipped {attempts : List Attempt} {search next : Search}
      {machine after : Machine Store Reference} {fault : Fault}
      (before : UnderWay first start attempts search machine)
      (unasked : machine.interruptRequested ≠ true)
      (answer : enact (sample evaluate problem precision search.point)
        { machine with interruptRequested := false } = (.error fault, after))
      (skips : search.skip? attempts.length = some next) :
      UnderWay first start (attempts ++ [⟨search.point, .error fault⟩]) next after
  | observed {attempts : List Attempt} {search next : Search}
      {machine after : Machine Store Reference} {y : Decimal}
      (before : UnderWay first start attempts search machine)
      (unasked : machine.interruptRequested ≠ true)
      (answer : enact (sample evaluate problem precision search.point)
        { machine with interruptRequested := false } = (.ok y, after))
      (goes : search.observe attempts.length y = .next next) :
      UnderWay first start (attempts ++ [⟨search.point, .ok y⟩]) next after

/-- How a search that may take so many samples ends, on the machine that it leaves. -/
inductive Ended (first : Search) (total : ℕ) (start : Machine Store Reference) :
    List Attempt → Verdict → Machine Store Reference → Prop
  | exhausted {attempts : List Attempt} {search : Search} {machine : Machine Store Reference}
      (before : UnderWay evaluate problem precision first start attempts search machine)
      (all : attempts.length = total) :
      Ended first total start attempts (.hopeless .noSolution search.best) machine
  | interrupted {attempts : List Attempt} {search : Search} {machine : Machine Store Reference}
      (before : UnderWay evaluate problem precision first start attempts search machine)
      (left : attempts.length < total) (asked : machine.interruptRequested = true) :
      Ended first total start attempts (.hopeless .interrupted search.best)
        { machine with interruptRequested := false }
  | failed {attempts : List Attempt} {search : Search} {machine after : Machine Store Reference}
      {fault : Fault}
      (before : UnderWay evaluate problem precision first start attempts search machine)
      (left : attempts.length < total) (unasked : machine.interruptRequested ≠ true)
      (answer : enact (sample evaluate problem precision search.point)
        { machine with interruptRequested := false } = (.error fault, after))
      (stuck : search.skip? attempts.length = none) :
      Ended first total start (attempts ++ [⟨search.point, .error fault⟩])
        (.hopeless fault search.best) after
  | decided {attempts : List Attempt} {search : Search} {machine after : Machine Store Reference}
      {y : Decimal} {verdict : Verdict}
      (before : UnderWay evaluate problem precision first start attempts search machine)
      (left : attempts.length < total) (unasked : machine.interruptRequested ≠ true)
      (answer : enact (sample evaluate problem precision search.point)
        { machine with interruptRequested := false } = (.ok y, after))
      (decides : search.observe attempts.length y = verdict)
      (final : ∀ next, verdict ≠ .next next) :
      Ended first total start (attempts ++ [⟨search.point, .ok y⟩]) verdict after

/-- What is done to conclude a search. -/
def conclude : Verdict → ActionOn Store Reference Value
  | .root x => finish problem precision x
  | .hopeless fault best => fail problem precision best fault
  | .next search => fail problem precision search.best .noSolution

variable {evaluate problem precision}

/-- An attempt answers how the sample turned out. -/
theorem enact_attempt {x : Decimal} {machine after : Machine Store Reference}
    {outcome : Outcome Decimal}
    (answer : enact (sample evaluate problem precision x) machine = (outcome, after)) :
    enact (attempt evaluate problem precision x) machine = (.ok outcome, after) := by
  rw [attempt_eq]
  cases outcome with
  | ok y => exact enact_tryCatch_ok ((enact_bind_ok answer _).trans rfl) _
  | error fault => exact (enact_tryCatch_error (enact_bind_error answer _) _).trans rfl

/-- An iteration of a search that is asked to stop ends it. -/
theorem enact_searchFrom_interrupted (search : Search) (iteration remaining : ℕ)
    {machine : Machine Store Reference} (asked : machine.interruptRequested = true) :
    enact (searchFrom evaluate problem precision search iteration (remaining + 1)) machine =
      enact (conclude problem precision (.hopeless .interrupted search.best))
        { machine with interruptRequested := false } := by
  rw [searchFrom, enact_bind_ok (rfl : enact interrupted machine =
    (.ok machine.interruptRequested, { machine with interruptRequested := false })), if_pos asked]
  rfl

/-- An iteration of a search whose sample fails gives up the point or ends the search. -/
theorem enact_searchFrom_error (search : Search) (iteration remaining : ℕ) {fault : Fault}
    {machine after : Machine Store Reference} (unasked : machine.interruptRequested ≠ true)
    (answer : enact (sample evaluate problem precision search.point)
      { machine with interruptRequested := false } = (.error fault, after)) :
    enact (searchFrom evaluate problem precision search iteration (remaining + 1)) machine =
      match search.skip? iteration with
      | some next =>
        enact (searchFrom evaluate problem precision next (iteration + 1) remaining) after
      | none => enact (conclude problem precision (.hopeless fault search.best)) after := by
  rw [searchFrom, enact_bind_ok (rfl : enact interrupted machine =
    (.ok machine.interruptRequested, { machine with interruptRequested := false })), if_neg unasked,
    enact_bind_ok (enact_attempt answer)]
  dsimp only
  cases search.skip? iteration <;> rfl

/-- An iteration of a search whose sample succeeds does what the search makes of the value. -/
theorem enact_searchFrom_ok (search : Search) (iteration remaining : ℕ) {y : Decimal}
    {machine after : Machine Store Reference} (unasked : machine.interruptRequested ≠ true)
    (answer : enact (sample evaluate problem precision search.point)
      { machine with interruptRequested := false } = (.ok y, after)) :
    enact (searchFrom evaluate problem precision search iteration (remaining + 1)) machine =
      match search.observe iteration y with
      | .next next =>
        enact (searchFrom evaluate problem precision next (iteration + 1) remaining) after
      | verdict => enact (conclude problem precision verdict) after := by
  rw [searchFrom, enact_bind_ok (rfl : enact interrupted machine =
    (.ok machine.interruptRequested, { machine with interruptRequested := false })), if_neg unasked,
    enact_bind_ok (enact_attempt answer)]
  dsimp only
  cases search.observe iteration y <;> rfl

variable {first search : Search} {total : ℕ} {start machine last : Machine Store Reference}
variable {attempts before : List Attempt} {verdict : Verdict}

/-- A search that is under way goes on to an end. -/
theorem exists_ended (remaining : ℕ) (left : attempts.length + remaining = total)
    (underWay : UnderWay evaluate problem precision first start attempts search machine) :
    ∃ attempts verdict last,
      Ended evaluate problem precision first total start attempts verdict last := by
  induction remaining generalizing attempts search machine with
  | zero => exact ⟨attempts, _, machine, .exhausted underWay left⟩
  | succ remaining inductionHypothesis =>
    have more : attempts.length < total := by omega
    have further (attempt : Attempt) : (attempts ++ [attempt]).length + remaining = total := by
      rw [List.length_append, List.length_singleton]
      omega
    by_cases asked : machine.interruptRequested = true
    · exact ⟨attempts, _, _, .interrupted underWay more asked⟩
    rcases answer : enact (sample evaluate problem precision search.point)
      { machine with interruptRequested := false } with ⟨_ | y, after⟩
    · rename_i fault
      cases skips : search.skip? attempts.length with
      | some next => exact inductionHypothesis (further _) (.skipped underWay asked answer skips)
      | none => exact ⟨_, _, after, .failed underWay more asked answer skips⟩
    · cases goes : search.observe attempts.length y with
      | next next => exact inductionHypothesis (further _) (.observed underWay asked answer goes)
      | root x =>
        exact ⟨_, _, after, .decided underWay more asked answer goes fun _ same => by cases same⟩
      | hopeless fault best =>
        exact ⟨_, _, after, .decided underWay more asked answer goes fun _ same => by cases same⟩

/-- A search that is under way goes on as it began. -/
theorem UnderWay.goesOn
    (underWay : UnderWay evaluate problem precision first start attempts search machine)
    (remaining : ℕ) :
    enact (searchFrom evaluate problem precision first 0 (attempts.length + remaining)) start =
      enact (searchFrom evaluate problem precision search attempts.length remaining) machine := by
  induction underWay generalizing remaining with
  | begun => rw [List.length_nil, Nat.zero_add]
  | @skipped attempts search next machine after fault before unasked answer skips
      inductionHypothesis =>
    have same := inductionHypothesis (remaining + 1)
    rw [enact_searchFrom_error _ _ _ unasked answer, skips] at same
    rwa [List.length_append, List.length_singleton, Nat.add_assoc, Nat.add_comm 1]
  | @observed attempts search next machine after y before unasked answer goes inductionHypothesis =>
    have same := inductionHypothesis (remaining + 1)
    rw [enact_searchFrom_ok _ _ _ unasked answer, goes] at same
    rwa [List.length_append, List.length_singleton, Nat.add_assoc, Nat.add_comm 1]

/-- A search that has ended is concluded. -/
theorem Ended.answers
    (ended : Ended evaluate problem precision first total start attempts verdict last) :
    enact (searchFrom evaluate problem precision first 0 total) start =
      enact (conclude problem precision verdict) last := by
  have further {attempts : List Attempt} (left : attempts.length < total) :
      total = attempts.length + (total - attempts.length - 1 + 1) := by omega
  cases ended with
  | exhausted before all => rw [← all, ← Nat.add_zero attempts.length, before.goesOn]; rfl
  | interrupted before left asked =>
    rw [further left, before.goesOn, enact_searchFrom_interrupted _ _ _ asked]
  | failed before left unasked answer stuck =>
    rw [further left, before.goesOn, enact_searchFrom_error _ _ _ unasked answer, stuck]
  | decided before left unasked answer decides final =>
    rw [further left, before.goesOn, enact_searchFrom_ok _ _ _ unasked answer, decides]
    cases verdict with
    | next next => exact absurd rfl (final next)
    | root x => rfl
    | hopeless fault best => rfl

/-- A state of a search under way is reached by its attempts. -/
theorem UnderWay.reached
    (underWay : UnderWay evaluate problem precision first start attempts search machine) :
    Reached first attempts search := by
  induction underWay with
  | begun => exact .start
  | skipped _ _ _ skips inductionHypothesis => exact .skipped _ inductionHypothesis skips
  | observed _ _ _ goes inductionHypothesis => exact .observed inductionHypothesis goes

/-- The end of a search is justified. -/
theorem Ended.justified (begins : Supported first.epsilon [] first)
    (ended : Ended evaluate problem precision first total start attempts verdict last) :
    Justified first attempts verdict := by
  cases ended with
  | exhausted before all => exact .hopeless (before.reached.supported begins).best nofun nofun
  | interrupted before left asked =>
    exact .hopeless (before.reached.supported begins).best nofun nofun
  | @failed attempts search machine after fault before left unasked answer stuck =>
    have last : FailedLast (attempts ++ [⟨search.point, .error fault⟩]) fault :=
      ⟨search.point, List.getLast?_concat⟩
    refine .hopeless ?_ (fun _ => .inl last) fun _ => .inl last
    rw [samples_error]
    exact (before.reached.supported begins).best
  | decided before left unasked answer decides final =>
    subst decides
    have supported := before.reached.supported begins
    rcases supported.observe before.reached _ with ⟨next, goes, -⟩ | justified
    · exact absurd goes (final next)
    · exact justified

/-- A search was under way before every attempt that has led to a state of it. -/
theorem UnderWay.earlier
    (underWay : UnderWay evaluate problem precision first start attempts search machine)
    (early : before <+: attempts) :
    ∃ search machine, UnderWay evaluate problem precision first start before search machine := by
  induction underWay with
  | begun => exact ⟨first, start, List.prefix_nil.mp early ▸ .begun⟩
  | skipped underWay unasked answer skips inductionHypothesis =>
    rcases List.prefix_concat_iff.mp early with rfl | early
    · exact ⟨_, _, .skipped underWay unasked answer skips⟩
    · exact inductionHypothesis early
  | observed underWay unasked answer goes inductionHypothesis =>
    rcases List.prefix_concat_iff.mp early with rfl | early
    · exact ⟨_, _, .observed underWay unasked answer goes⟩
    · exact inductionHypothesis early

/-- A search that has ended was under way before each of its attempts. -/
theorem Ended.earlier
    (ended : Ended evaluate problem precision first total start attempts verdict last)
    (early : before <+: attempts) (other : before ≠ attempts) :
    ∃ search machine, UnderWay evaluate problem precision first start before search machine := by
  cases ended with
  | exhausted underWay all => exact underWay.earlier early
  | interrupted underWay left asked => exact underWay.earlier early
  | failed underWay left unasked answer stuck =>
    exact underWay.earlier ((List.prefix_concat_iff.mp early).resolve_left other)
  | decided underWay left unasked answer decides final =>
    exact underWay.earlier ((List.prefix_concat_iff.mp early).resolve_left other)

section Evolution

variable (sampling : ∀ x, Evolving (sample evaluate problem precision x))
include sampling

/-- A machine evolves by a sample, before which a request to stop is answered. -/
theorem evolves_sample {x : Decimal} {outcome : Outcome Decimal}
    (answer : enact (sample evaluate problem precision x)
      { machine with interruptRequested := false } = (outcome, last)) : Evolves machine last := by
  have step := sampling x { machine with interruptRequested := false }
  rw [answer] at step
  exact .change .answered step

omit sampling in
/-- Nobody asks a machine to stop while it evolves. -/
theorem evolves_unasked (evolves : Evolves start last)
    (unasked : start.interruptRequested = false) : last.interruptRequested = false := by
  induction evolves with
  | unchanged => exact unasked
  | change first _ inductionHypothesis =>
    refine inductionHypothesis ?_
    cases first <;> first | exact unasked | rfl
  | nested _ _ _ body rest => exact rest (body unasked)

/-- A machine evolves while a search is under way. -/
theorem UnderWay.evolves
    (underWay : UnderWay evaluate problem precision first start attempts search machine) :
    Evolves start machine := by
  induction underWay with
  | begun => exact .unchanged
  | skipped _ _ answer _ inductionHypothesis =>
    exact inductionHypothesis.trans (evolves_sample sampling answer)
  | observed _ _ answer _ inductionHypothesis =>
    exact inductionHypothesis.trans (evolves_sample sampling answer)

/-- A machine evolves while a search goes on to its end. -/
theorem Ended.evolves
    (ended : Ended evaluate problem precision first total start attempts verdict last) :
    Evolves start last := by
  cases ended with
  | exhausted before all => exact before.evolves sampling
  | interrupted before left asked =>
    exact (before.evolves sampling).trans (Change.evolves .answered)
  | failed before left unasked answer stuck =>
    exact (before.evolves sampling).trans (evolves_sample sampling answer)
  | decided before left unasked answer decides final =>
    exact (before.evolves sampling).trans (evolves_sample sampling answer)

end Evolution

end Run

/-! ## What is left under the name of the unknown -/

/-- How a verdict is concluded on the machine that the attempts have left. The unknown is left at
the point of the verdict, if there is one, and then the answer is the root or the fault of the
verdict. Only if the point cannot be stored is it the fault of that. -/
inductive Concluded (problem : Problem) (precision : Precision) (last : Machine Store Reference) :
    Verdict → Outcome Value × Machine Store Reference → Prop
  | found {x : Decimal} {after : Machine Store Reference}
      (stored : enact (store problem.unknown (problem.wrap x precision)) last = (.ok (), after)) :
      Concluded problem precision last (.root x) (.ok (problem.wrap x precision), after)
  | unsolved {fault : Fault} {best : Sample} {after : Machine Store Reference}
      (stored : enact (store problem.unknown (problem.wrap best.x precision)) last =
        (.ok (), after)) :
      Concluded problem precision last (.hopeless fault (some best)) (.error fault, after)
  | unsampled {fault : Fault} :
      Concluded problem precision last (.hopeless fault none) (.error fault, last)
  | refused {verdict : Verdict} {x : Decimal} {fault : Fault} {after : Machine Store Reference}
      (point : verdict.point? = some x)
      (refused : enact (store problem.unknown (problem.wrap x precision)) last =
        (.error fault, after)) :
      Concluded problem precision last verdict (.error fault, after)

/-- A root is the answer only if the verdict is one, and then the unknown is left there. -/
theorem Concluded.root {problem : Problem} {precision : Precision} {last : Machine Store Reference}
    {verdict : Verdict} {answer : Outcome Value × Machine Store Reference} {root : Value}
    (concluded : Concluded problem precision last verdict answer) (found : answer.1 = .ok root) :
    ∃ x, verdict = .root x ∧ root = problem.wrap x precision ∧
      enact (store problem.unknown root) last = (.ok (), answer.2) := by
  cases concluded with
  | @found x after stored =>
    obtain rfl := Except.ok.inj found
    exact ⟨x, rfl, rfl, stored⟩
  | unsolved stored => cases found
  | unsampled => cases found
  | refused point refused => cases found

/-- A verdict that ends a search is concluded. -/
theorem Concluded.of_justified {first : Search} {attempts : List Attempt} {verdict : Verdict}
    (justified : Justified first attempts verdict) (problem : Problem) (precision : Precision)
    (last : Machine Store Reference) :
    Concluded problem precision last verdict (enact (conclude problem precision verdict) last) := by
  have root (x : Decimal) : Concluded problem precision last (.root x)
      (enact (finish problem precision x) last) := by
    unfold finish
    rcases stored : enact (store problem.unknown (problem.wrap x precision)) last with
      ⟨outcome, after⟩
    cases outcome with
    | ok _ =>
      rw [enact_bind_ok stored]
      exact .found stored
    | error fault =>
      rw [enact_bind_error stored]
      exact .refused rfl stored
  cases justified with
  | converged sampled small => exact root _
  | closed least below above close near => exact root _
  | @hopeless fault best least reversal constant =>
    cases best with
    | none => exact .unsampled
    | some best =>
      rw [conclude, fail]
      simp only [discard, Functor.discard, map_const, Function.comp_apply, map_eq_pure_bind,
        bind_assoc]
      unfold finish
      rcases stored : enact (store problem.unknown (problem.wrap best.x precision)) last with
        ⟨outcome, after⟩
      cases outcome with
      | ok _ =>
        rw [bind_assoc, enact_bind_ok stored]
        exact .unsolved stored
      | error fault =>
        rw [bind_assoc, enact_bind_error stored]
        exact .refused rfl stored

end Solver

namespace Machine

/-- The variable that a name stands for holds a value. -/
def Holds (machine : Machine) (name : Symbol) (value : Value) : Prop :=
  ∃ handle, machine.reference? name = some handle ∧
    machine.heap.get? handle = some (Encoding.encode value)

/-- What a variable holds is found under its name. -/
theorem Holds.lookup? {machine : Machine} {name : Symbol} {value : Value}
    (holds : machine.Holds name value) :
    machine.lookup? name = (Encoding.reading (Encoding.encode value)).toOption := by
  obtain ⟨handle, found, held⟩ := holds
  rw [Machine.lookup?, found]
  exact congrArg Except.toOption (WatchedHeap.valueOf_eq_reading held)

end Machine

namespace Session

open Machine Search Solver

/-- What has been stored is held. -/
theorem holds_stored {settings : Settings} {before after : Machine} {name : Symbol} {value : Value}
    (safe : Safe (start settings) before)
    (stored : enact (store name value) before = (.ok (), after))
    (numbered : Numbered settings after) : after.Holds name value := by
  have step := (evolving_store name value).safe before
  rw [stored] at step
  have few := numbered.few (safe.trans step)
  obtain ⟨handle, storage, answer, present, rfl⟩ := enact_store_ok stored
  obtain ⟨found, placed, same⟩ := Heap.place?_of_storage answer
  have intact := safe.intact (intact_start settings) (step.slots.trans few)
  exact ⟨handle, reference?_insert name handle storage present,
    (Heap.place?_spec placed intact.sound few).2.2 handle (same handle rfl)⟩

/-- Where a verdict is concluded, a point that can be stored is held by the unknown. -/
theorem holds_concluded {settings : Settings} {last : Machine} {problem : Problem}
    {precision : Precision} {verdict : Verdict} {answer : Outcome Value × Machine}
    (safe : Safe (start settings) last)
    (concluded : Concluded problem precision last verdict answer) {x : Decimal}
    (point : verdict.point? = some x)
    (stored : (enact (store problem.unknown (problem.wrap x precision)) last).1 = .ok ())
    (numbered : Numbered settings answer.2) :
    answer.2.Holds problem.unknown (problem.wrap x precision) := by
  cases concluded with
  | found kept =>
    obtain rfl := Option.some.inj point
    exact holds_stored safe kept numbered
  | unsolved kept =>
    obtain rfl := Option.some.inj point
    exact holds_stored safe kept numbered
  | unsampled => cases point
  | refused other refused =>
    obtain rfl := Option.some.inj (point.symm.trans other)
    rw [refused] at stored
    cases stored

/-- To find a root is to search from the guesses of the problem. -/
theorem enact_findRoot {equation unknown guess : Value} {problem : Problem}
    (posed : Problem.pose equation unknown guess = .ok problem) (machine : Machine) :
    enact (findRoot equation unknown guess) machine =
      enact (searchFrom (evaluated (within (machine.settings.maxRecursion.toNat - machine.nesting)))
        problem machine.settings.precision (Search.start problem.low problem.high
          (epsilon machine.settings.toPreferences)
          (samplingTier machine.settings.precision).workingDigits)
        0 machine.settings.solverIterations.toNat) machine := by
  unfold findRoot solve
  rw [enact_bind_ok (rfl : enact levelsLeft machine =
    (.ok (machine.settings.maxRecursion.toNat - machine.nesting), machine)), posed,
    enact_bind_ok (rfl : enact (require (.ok problem)) machine = (.ok problem, machine)),
    enact_preferences_bind]

/-- To take a sample evolves the machine. -/
theorem evolving_sample (levels : ℕ) (problem : Problem) (precision : Precision) (x : Decimal) :
    Evolving (sample (evaluated (within levels)) problem precision x : Action Decimal) :=
  @Compositional.sample _ _ _ _ _ _ _ compositional_evolving problem precision _
    (evaluated (within levels)) (congruence_evolving.evaluated (evolves_within levels).alike) x

end Session

end Calculator
