import Calculator.Proofs.Machine.Execution
import Mathlib

/-!
# The stack while a root is searched

A search for a root evaluates its target at one point after the other. An evaluation that succeeds
has its one value taken off the stack again. One that fails may leave levels behind, which nobody
takes away: the search passes over at most two failures, and what they left stays above the levels
that were there before. As long as failed evaluations leave nothing, neither does the search.
-/

namespace Calculator

/-- Whether a command is an operator or a function, which only takes its operands off the stack and
puts its result there. -/
def Command.operates : Command → Bool
  | .duplicate | .drop | .swap | .copySecond | .rotate | .depth | .pick | .clear | .duplicate2
  | .drop2 | .store | .fetch | .purge | .createDirectory | .upDirectory | .home | .evaluate
  | .toDecimal | .toPolynomial | .toExpression | .root => false
  | _ => true

/-! ## Points that are given up -/

namespace Search

variable {search next : Search} {iteration : ℕ}

/-- To go on from a sample gives up no point. -/
theorem failures_advance {progress : Progress}
    (goes : search.advance progress iteration = .next next) : next.failures = search.failures := by
  unfold advance at goes
  dsimp only at goes
  split at goes
  · cases goes
    rfl
  · split at goes
    · unfold close at goes
      dsimp only at goes
      split at goes
      · split at goes <;> cases goes
      · cases goes
    · cases goes

/-- To go on from a sample gives up no point, also where the function seems to be constant. -/
theorem failures_proceed {progress : Progress}
    (goes : search.proceed progress iteration = .next next) : next.failures = search.failures := by
  unfold proceed at goes
  split at goes
  · split at goes
    · split at goes
      · cases goes
      · exact failures_advance goes
    · unfold wander at goes
      dsimp only at goes
      split at goes
      · cases goes
      · cases goes
        rfl
  · exact failures_advance goes

/-- To put a sample in the place of a bracket gives up no point. -/
theorem failures_improve (search : Search) (sample : Sample) :
    (search.improve sample).1.failures = search.failures := by
  unfold improve
  dsimp only
  split_ifs <;> rfl

/-- To observe a value gives up no point. -/
theorem failures_observe {y : Decimal} (goes : search.observe iteration y = .next next) :
    next.failures = search.failures := by
  unfold observe at goes
  split at goes
  · cases goes
  · dsimp only at goes
    split at goes
    · cases goes
      rfl
    · exact (failures_proceed goes).trans rfl
    · exact (failures_proceed goes).trans (failures_improve _ _)

/-- A point can be given up at most twice. -/
theorem failures_skip (skipped : search.skip? iteration = some next) :
    next.failures = search.failures + 1 ∧ search.failures < toleratedFailures := by
  unfold skip? at skipped
  split at skipped
  · rename_i tolerated
    cases skipped
    exact ⟨rfl, of_decide_eq_true (Bool.and_eq_true_iff.mp tolerated).2⟩
  · cases skipped

end Search

namespace Machine

variable {Store Reference : Type}

/-! ## Actions that leave the stack alone -/

/-- An action that leaves the stack alone, whether it fails or not. -/
def Unstacked {Item : Type} (action : ActionOn Store Reference Item) : Prop :=
  ∀ machine, (enact action machine).2.stack = machine.stack

section Combination

variable {Item Result : Type}

/-- What an action answers without doing anything leaves the stack alone. -/
theorem unstacked_pure (item : Item) : Unstacked (pure item : ActionOn Store Reference Item) :=
  fun _ => rfl

/-- Failing leaves the stack alone. -/
theorem unstacked_throw (fault : Fault) :
    Unstacked (throw fault : ActionOn Store Reference Item) := fun _ => rfl

/-- Two actions in a row leave the stack alone if both do. -/
theorem Unstacked.bind {action : ActionOn Store Reference Item}
    {next : Item → ActionOn Store Reference Result} (head : Unstacked action)
    (tails : ∀ item, Unstacked (next item)) : Unstacked (action >>= next) := by
  intro machine
  have first := head machine
  rcases answer : enact action machine with ⟨outcome, after⟩
  rw [answer] at first
  cases outcome with
  | ok item =>
    rw [enact_bind_ok answer]
    exact (tails item after).trans first
  | error fault =>
    rw [enact_bind_error answer]
    exact first

/-- What is read off a machine leaves the stack alone. -/
theorem unstacked_read (read : Machine Store Reference → Item) :
    Unstacked (do return read (← get)) := fun _ => rfl

end Combination

/-- To change the current directory leaves the stack alone. -/
theorem unstacked_changeCurrent (change : Directory Reference → Outcome (Directory Reference)) :
    Unstacked (changeCurrent change : ActionOn Store Reference Unit) := by
  intro machine
  unfold changeCurrent
  rw [enact_get_bind]
  dsimp only
  split
  · rfl
  · cases change machine.current <;> rfl

variable [Storage Store Reference]

/-- To take in a value leaves the stack alone. -/
theorem unstacked_make (value : Value) :
    Unstacked (make value : ActionOn Store Reference Reference) := by
  intro machine
  rcases enact_make value machine with ⟨fault, refused⟩ | placed
  · rw [refused]
  · rw [placed, Link.enact_place]

/-- To store a value leaves the stack alone. -/
theorem unstacked_store (name : Symbol) (value : Value) :
    Unstacked (store name value : ActionOn Store Reference Unit) := by
  intro machine
  unfold store
  rw [enact_preferences_bind, enact_get_bind]
  split
  · rfl
  · exact (unstacked_make value).bind (fun _ => unstacked_changeCurrent _) machine

/-- To leave the unknown at a point leaves the stack alone. -/
theorem unstacked_finish (problem : Problem) (precision : Precision) (x : Decimal) :
    Unstacked (Solver.finish problem precision x : ActionOn Store Reference Value) :=
  (unstacked_store _ _).bind fun _ => unstacked_pure _

/-- To end a search without a root leaves the stack alone. -/
theorem unstacked_fail (problem : Problem) (precision : Precision) (best : Option Sample)
    (fault : Fault) :
    Unstacked (Solver.fail problem precision best fault : ActionOn Store Reference Value) := by
  cases best with
  | none => exact unstacked_throw fault
  | some best =>
    unfold Solver.fail
    simp only [discard, Functor.discard, map_const, Function.comp_apply, map_eq_pure_bind,
      bind_assoc]
    exact (unstacked_finish problem precision best.x).bind fun _ =>
      (unstacked_pure _).bind fun _ => unstacked_throw fault

/-- To end a search without a root fails. -/
theorem enact_fail (problem : Problem) (precision : Precision) (best : Option Sample)
    (fault : Fault) (machine : Machine Store Reference) :
    ∃ other, (enact (Solver.fail problem precision best fault) machine).1 = .error other := by
  cases best with
  | none => exact ⟨fault, rfl⟩
  | some best =>
    unfold Solver.fail
    simp only [discard, Functor.discard, map_const, Function.comp_apply, map_eq_pure_bind,
      bind_assoc]
    rcases answer : enact (Solver.finish problem precision best.x) machine with ⟨outcome, after⟩
    cases outcome with
    | ok value =>
      rw [enact_bind_ok answer]
      exact ⟨fault, rfl⟩
    | error other =>
      rw [enact_bind_error answer]
      exact ⟨other, rfl⟩

/-! ## Targets that keep the levels they find -/

variable {deeper : Deeper Store Reference} {problem : Problem}
variable {holds : Machine Store Reference → Prop}

/-- A target that takes no levels away which were there before its evaluation: not on the machines
that a search may come to. These are described by a condition that holds at the start and is kept by
what the search does. -/
structure Spares (deeper : Deeper Store Reference) (problem : Problem)
    (holds : Machine Store Reference → Prop) : Prop where
  spares {machine} (held : holds machine) :
    machine.stack <:+ (enact (deeper.evaluate problem.target) machine).2.stack
  evaluated {machine} (held : holds machine) :
    holds (enact (evaluated deeper problem.target) machine).2
  stored {machine} (value : Value) (held : holds machine) :
    holds (enact (store problem.unknown value) machine).2
  answered {machine} (held : holds machine) : holds { machine with interruptRequested := false }

/-- The levels that a failed evaluation of the target leaves. -/
def Leaves (deeper : Deeper Store Reference) (problem : Problem)
    (holds : Machine Store Reference → Prop) (levels : List Reference) : Prop :=
  ∃ machine fault, holds machine ∧
    (enact (evaluated deeper problem.target) machine).1 = .error fault ∧
    (enact (evaluated deeper problem.target) machine).2.stack = levels ++ machine.stack

/-- What a search that has given up some points does to the stack of a machine: above the levels
that were there it leaves what failed evaluations of the target left. There is one of these more
than the points that may still be given up, at most, and no more than these if there is a root. -/
def Littered (deeper : Deeper Store Reference) (problem : Problem)
    (holds : Machine Store Reference → Prop) (failures : ℕ) (machine : Machine Store Reference)
    (answer : Outcome Value × Machine Store Reference) : Prop :=
  ∃ leavings : List (List Reference), answer.2.stack = leavings.flatten ++ machine.stack ∧
    (∀ levels ∈ leavings, Leaves deeper problem holds levels) ∧
    leavings.length + failures ≤ Search.toleratedFailures + 1 ∧
    ((∃ root, answer.1 = .ok root) → leavings.length + failures ≤ Search.toleratedFailures)

omit [Storage Store Reference] in
/-- Whether there are enough levels is found out without a change. -/
theorem enact_requireLevels (count : ℕ) (machine : Machine Store Reference) :
    enact (requireLevels count) machine =
      (if machine.stack.length < count then .error .tooFewArguments else .ok (), machine) := by
  unfold requireLevels
  rw [enact_bind_ok (rfl : enact depth machine = (.ok machine.stack.length, machine))]
  split_ifs <;> rfl

omit [Storage Store Reference] in
/-- Levels are taken away where there are enough of them. -/
theorem enact_drop {count : ℕ} {machine : Machine Store Reference}
    (enough : count ≤ machine.stack.length) :
    enact (drop count) machine = (.ok (), { machine with stack := machine.stack.drop count }) := by
  have required := enact_requireLevels count machine
  rw [if_neg (Nat.not_lt.mpr enough)] at required
  unfold drop
  rw [enact_bind_ok required]
  rfl

omit [Storage Store Reference] in
/-- Nothing happens where there are not enough levels to take away. -/
theorem enact_drop_refused {count : ℕ} {machine : Machine Store Reference}
    (few : machine.stack.length < count) :
    enact (drop count) machine = (.error .tooFewArguments, machine) := by
  have required := enact_requireLevels count machine
  rw [if_pos few] at required
  exact enact_bind_error required _

/-- To take the only level off that was added gives the stack back, or fails and leaves it. -/
theorem stack_pop {machine : Machine Store Reference} {reference : Reference}
    {below : List Reference} (levels : machine.stack = reference :: below) :
    (∃ value, (enact pop machine).1 = .ok value ∧ (enact pop machine).2.stack = below) ∨
      ∃ fault, (enact pop machine).1 = .error fault ∧
        (enact pop machine).2.stack = [reference] ++ below := by
  have handle : enact (levelHandle 1) machine = (.ok reference, machine) := by
    unfold levelHandle
    rw [if_neg one_ne_zero]
    dsimp only
    rw [enact_get_bind, levels]
    rfl
  have read := Link.enact_value reference machine
  have top : enact top machine = enact (value reference) machine := enact_bind_ok handle _
  unfold pop
  cases valued : machine.valueOf reference with
  | ok value =>
    rw [valued] at read
    rw [enact_bind_ok (top.trans read), enact_get_bind]
    refine .inl ⟨value, rfl, ?_⟩
    show machine.stack.drop 1 = below
    rw [levels, List.drop_one, List.tail_cons]
  | error fault =>
    rw [valued] at read
    rw [enact_bind_error (top.trans read)]
    exact .inr ⟨fault, rfl, levels⟩

/-- The single value of a target is taken off the stack again. A failure may leave levels. -/
theorem stack_evaluated {target : Value} {machine : Machine Store Reference}
    (spared : machine.stack <:+ (enact (deeper.evaluate target) machine).2.stack) :
    (∃ value, (enact (evaluated deeper target) machine).1 = .ok value ∧
        (enact (evaluated deeper target) machine).2.stack = machine.stack) ∨
      ∃ fault levels, (enact (evaluated deeper target) machine).1 = .error fault ∧
        (enact (evaluated deeper target) machine).2.stack = levels ++ machine.stack := by
  obtain ⟨levels, added⟩ := spared
  unfold evaluated
  rw [enact_bind_ok (rfl : enact depth machine = (.ok machine.stack.length, machine))]
  rcases answer : enact (deeper.evaluate target) machine with ⟨outcome, inner⟩
  rw [answer] at added
  cases outcome with
  | error fault =>
    rw [enact_bind_error answer]
    exact .inr ⟨fault, levels, rfl, added.symm⟩
  | ok _ =>
    have length : inner.stack.length = levels.length + machine.stack.length := by
      rw [← added, List.length_append]
    rw [enact_bind_ok answer, enact_bind_ok (rfl : enact depth inner = (.ok inner.stack.length, inner)),
      length]
    match levels with
    | [] =>
      rw [if_neg (by simp), if_neg (by simp)]
      exact .inr ⟨.tooFewArguments, [], rfl, added.symm⟩
    | [reference] =>
      rw [if_pos (by rw [List.length_singleton, Nat.add_comm])]
      rcases stack_pop added.symm with ⟨value, done, same⟩ | ⟨fault, failed, same⟩
      · exact .inl ⟨value, done, same⟩
      · exact .inr ⟨fault, [reference], failed, same⟩
    | first :: second :: others =>
      rw [if_neg (by simp only [List.length_cons]; omega), if_pos (by simp), Nat.add_sub_cancel,
        enact_bind_ok (enact_drop (by omega))]
      refine .inr ⟨.badArgumentValue, [], rfl, ?_⟩
      show inner.stack.drop (first :: second :: others).length = machine.stack
      rw [← show first :: second :: others ++ machine.stack = inner.stack from added]
      exact List.drop_left

/-! ## The search -/

section Search

variable (spares : Spares deeper problem holds) (precision : Precision)
include spares

/-- To take a sample leaves the stack as it was, or fails and leaves levels of the target's. -/
theorem stack_sample (x : Decimal) {machine : Machine Store Reference} (held : holds machine) :
    let answer := enact (Solver.sample (evaluated deeper) problem precision x) machine
    holds answer.2 ∧ (answer.2.stack = machine.stack ∨
      ∃ fault levels, answer.1 = .error fault ∧ answer.2.stack = levels ++ machine.stack ∧
        Leaves deeper problem holds levels) := by
  have stored := spares.stored (problem.wrap x (Solver.samplingTier precision)) held
  have same := unstacked_store problem.unknown (problem.wrap x (Solver.samplingTier precision)) machine
  unfold Solver.sample
  rcases answer : enact (store problem.unknown (problem.wrap x (Solver.samplingTier precision)))
    machine with ⟨outcome, prepared⟩
  rw [answer] at stored same
  cases outcome with
  | error fault =>
    rw [enact_bind_error answer]
    exact ⟨stored, .inl same⟩
  | ok _ =>
    rw [enact_bind_ok answer]
    have settled := spares.evaluated stored
    have stacked := stack_evaluated (spares.spares stored)
    rcases answer' : enact (evaluated deeper problem.target) prepared with ⟨outcome, after⟩
    rw [answer'] at settled stacked
    rcases stacked with ⟨value, rfl, kept⟩ | ⟨fault, levels, rfl, left⟩
    · rw [enact_bind_ok answer']
      dsimp only
      split <;> exact ⟨settled, .inl (kept.trans same)⟩
    · rw [enact_bind_error answer']
      refine ⟨settled, .inr ⟨fault, levels, rfl, left.trans (congrArg _ same), ?_⟩⟩
      exact ⟨prepared, fault, stored, by rw [answer'], by rw [answer']; exact left⟩

/-- To attempt a sample does not fail. The levels of a sample that failed stay on the stack. -/
theorem stack_attempt (x : Decimal) {machine : Machine Store Reference} (held : holds machine) :
    ∃ outcome after, enact (Solver.attempt (evaluated deeper) problem precision x) machine =
      (.ok outcome, after) ∧ holds after ∧ (after.stack = machine.stack ∨
        ∃ fault levels, outcome = .error fault ∧ after.stack = levels ++ machine.stack ∧
          Leaves deeper problem holds levels) := by
  obtain ⟨settled, stacked⟩ := stack_sample spares precision x held
  rw [attempt_eq]
  rcases answer : enact (Solver.sample (evaluated deeper) problem precision x) machine with
    ⟨outcome, after⟩
  rw [answer] at settled stacked
  cases outcome with
  | ok y =>
    refine ⟨.ok y, after, ?_, settled, .inl ?_⟩
    · exact enact_tryCatch_ok ((enact_bind_ok answer _).trans rfl) _
    · rcases stacked with same | ⟨fault, levels, failed, -⟩
      · exact same
      · cases failed
  | error fault =>
    refine ⟨.error fault, after, ?_, settled, ?_⟩
    · exact (enact_tryCatch_error (enact_bind_error answer _) _).trans rfl
    · rcases stacked with same | ⟨-, levels, -, left, leaves⟩
      · exact .inl same
      · exact .inr ⟨fault, levels, rfl, left, leaves⟩

omit spares in
/-- Where nothing is left, nothing more need be said. -/
theorem Littered.untouched {failures : ℕ} {machine : Machine Store Reference}
    {answer : Outcome Value × Machine Store Reference}
    (tolerated : failures ≤ Search.toleratedFailures) (same : answer.2.stack = machine.stack) :
    Littered deeper problem holds failures machine answer := by
  refine ⟨[], same, by simp, ?_, fun _ => ?_⟩ <;> rw [List.length_nil] <;> omega

/-- A search leaves what failed samples left above the levels it found. -/
theorem littered_searchFrom (remaining : ℕ) (search : Search) (iteration : ℕ)
    (tolerated : search.failures ≤ Search.toleratedFailures) {machine : Machine Store Reference}
    (held : holds machine) :
    Littered deeper problem holds search.failures machine (enact
      (Solver.searchFrom (evaluated deeper) problem precision search iteration remaining)
      machine) := by
  induction remaining generalizing search iteration machine with
  | zero => exact .untouched tolerated (unstacked_fail problem precision search.best _ machine)
  | succ remaining inductionHypothesis =>
    unfold Solver.searchFrom
    rw [enact_bind_ok (rfl : enact interrupted machine =
      (.ok machine.interruptRequested, { machine with interruptRequested := false }))]
    split
    · exact .untouched tolerated (unstacked_fail problem precision search.best .interrupted _)
    · obtain ⟨outcome, after, answer, settled, stacked⟩ :=
        stack_attempt spares precision search.point (spares.answered held)
      rw [enact_bind_ok answer]
      rcases stacked with same | ⟨fault, levels, rfl, left, leaves⟩
      · -- The sample left nothing, so all is as if the search went on from the same stack.
        have goOn {next : Search} (few : next.failures ≤ Search.toleratedFailures)
            (counted : search.failures ≤ next.failures) :
            Littered deeper problem holds search.failures machine (enact
              (Solver.searchFrom (evaluated deeper) problem precision next (iteration + 1)
                remaining) after) := by
          obtain ⟨leavings, stack, all, bound, rooted⟩ :=
            inductionHypothesis next (iteration + 1) few settled
          exact ⟨leavings, stack.trans (congrArg _ same), all, by omega, fun found => by
            have := rooted found
            omega⟩
        cases outcome with
        | error fault =>
          dsimp only
          cases skipped : search.skip? iteration with
          | none =>
            exact .untouched tolerated
              ((unstacked_fail problem precision search.best fault after).trans same)
          | some next =>
            obtain ⟨counted, spare⟩ := Search.failures_skip skipped
            exact goOn (by omega) (by omega)
        | ok y =>
          dsimp only
          cases observed : search.observe iteration y with
          | next next =>
            have counted := Search.failures_observe observed
            exact goOn (by omega) (by omega)
          | root x =>
            exact .untouched tolerated ((unstacked_finish problem precision x after).trans same)
          | hopeless fault best =>
            exact .untouched tolerated
              ((unstacked_fail problem precision best fault after).trans same)
      · dsimp only
        cases skipped : search.skip? iteration with
        | none =>
          obtain ⟨other, failed⟩ := enact_fail problem precision search.best fault after
          refine ⟨[levels], ?_, by simpa using leaves, ?_, ?_⟩
          · have same := unstacked_fail problem precision search.best fault after
            simpa using same.trans left
          · rw [List.length_singleton]
            omega
          · rintro ⟨root, found⟩
            cases failed.symm.trans found
        | some next =>
          obtain ⟨counted, spare⟩ := Search.failures_skip skipped
          obtain ⟨leavings, stack, all, bound, rooted⟩ :=
            inductionHypothesis next (iteration + 1) (by omega) settled
          refine ⟨leavings ++ [levels], ?_, ?_, ?_, fun found => ?_⟩
          · have below : after.stack = levels ++ machine.stack := left
            rw [stack, below, List.flatten_append, List.flatten_singleton, List.append_assoc]
          · exact List.forall_mem_append.mpr ⟨all, by simpa using leaves⟩
          · rw [List.length_append, List.length_singleton]
            omega
          · have := rooted found
            rw [List.length_append, List.length_singleton]
            omega

end Search

/-- What failed evaluations of the target of a problem leave. -/
def LeavesOf (deeper : Deeper Store Reference) (holds : Machine Store Reference → Prop)
    (equation unknown guess : Value) (levels : List Reference) : Prop :=
  ∃ problem, Problem.pose equation unknown guess = .ok problem ∧ Leaves deeper problem holds levels

/-- To solve an equation leaves what failed samples left. -/
theorem littered_solve {equation unknown guess : Value}
    (spares : ∀ problem, Problem.pose equation unknown guess = .ok problem →
      Spares deeper problem holds) {machine : Machine Store Reference} (held : holds machine) :
    let answer := enact (solve (evaluated deeper) equation unknown guess) machine
    ∃ leavings : List (List Reference), answer.2.stack = leavings.flatten ++ machine.stack ∧
      (∀ levels ∈ leavings, LeavesOf deeper holds equation unknown guess levels) ∧
      leavings.length ≤ Search.toleratedFailures + 1 ∧
      ((∃ root, answer.1 = .ok root) → leavings.length ≤ Search.toleratedFailures) := by
  unfold solve
  cases posed : Problem.pose equation unknown guess with
  | error fault =>
    rw [enact_bind_error (rfl : enact (require (.error fault)) machine = (.error fault, machine))]
    exact ⟨[], rfl, by simp, by simp, by simp⟩
  | ok problem =>
    rw [enact_bind_ok (rfl : enact (require (.ok problem)) machine = (.ok problem, machine)),
      enact_preferences_bind]
    obtain ⟨leavings, stack, all, bound, rooted⟩ := littered_searchFrom (spares problem posed)
      machine.settings.precision machine.settings.solverIterations.toNat
      (Search.start problem.low problem.high (Solver.epsilon machine.settings.toPreferences)
        (Solver.samplingTier machine.settings.precision).workingDigits) 0 (Nat.zero_le _) held
    exact ⟨leavings, stack, fun levels among => ⟨problem, posed, all levels among⟩, bound, rooted⟩

/-- A root takes the place of the three topmost levels that there are when it has been found. -/
theorem stack_root {equation unknown guess : Value} {machine after : Machine Store Reference}
    (given : enact (arguments 3) machine = (.ok [equation, unknown, guess], machine))
    (done : enact (perform deeper .root) machine = (.ok (), after)) :
    ∃ root reference solved,
      enact (solve (evaluated deeper) equation unknown guess) machine = (.ok root, solved) ∧
      (enact (make root) { solved with stack := solved.stack.drop 3 }).1 = .ok reference ∧
      after.stack = reference :: solved.stack.drop 3 := by
  have start : enact (perform deeper .root) machine =
      enact (solve (evaluated deeper) equation unknown guess >>= fun root => do
        drop 3
        push root) machine := by
    show enact (solveRoot deeper) machine = _
    unfold solveRoot
    rw [enact_bind_ok given]
  rw [start] at done
  rcases answer : enact (solve (evaluated deeper) equation unknown guess) machine with
    ⟨outcome, solved⟩
  cases outcome with
  | error fault =>
    rw [enact_bind_error answer] at done
    cases done
  | ok root =>
    rw [enact_bind_ok answer] at done
    by_cases enough : 3 ≤ solved.stack.length
    · rw [enact_bind_ok (enact_drop enough)] at done
      unfold push at done
      rcases taken : enact (make root) { solved with stack := solved.stack.drop 3 } with
        ⟨outcome, last⟩
      have same := unstacked_make root { solved with stack := solved.stack.drop 3 }
      rw [taken] at same
      cases outcome with
      | error fault =>
        rw [enact_bind_error taken] at done
        cases done
      | ok reference =>
        rw [enact_bind_ok taken] at done
        cases done
        exact ⟨root, reference, solved, rfl, by rw [taken], congrArg (reference :: ·) same⟩
    · rw [enact_bind_error (enact_drop_refused (Nat.not_le.mp enough))] at done
      cases done

/-- The stack while a root is searched for a target that takes no levels away which it found. Above
the levels that were there are then those that failed evaluations of the target left, at most three
of them. If there is a root, there are at most two, and the root takes the place of the three
topmost levels. So if failed evaluations leave nothing, the stack is as it was, and a root takes
the place of the three arguments. -/
theorem solve_stack {equation unknown guess : Value}
    (spares : ∀ problem, Problem.pose equation unknown guess = .ok problem →
      Spares deeper problem holds) {machine : Machine Store Reference} (held : holds machine) :
    let solved := enact (solve (evaluated deeper) equation unknown guess) machine
    (∃ leavings : List (List Reference), solved.2.stack = leavings.flatten ++ machine.stack ∧
      (∀ levels ∈ leavings, LeavesOf deeper holds equation unknown guess levels) ∧
      leavings.length ≤ 3 ∧ ((∃ root, solved.1 = .ok root) → leavings.length ≤ 2)) ∧
    (∀ after, enact (arguments 3) machine = (.ok [equation, unknown, guess], machine) →
      enact (perform deeper .root) machine = (.ok (), after) →
      ∃ root reference, solved.1 = .ok root ∧
        (enact (make root) { solved.2 with stack := solved.2.stack.drop 3 }).1 = .ok reference ∧
        after.stack = reference :: solved.2.stack.drop 3) ∧
    ((∀ levels, LeavesOf deeper holds equation unknown guess levels → levels = []) →
      solved.2.stack = machine.stack) := by
  intro solved
  obtain ⟨leavings, stack, all, bound, rooted⟩ := littered_solve spares held
  refine ⟨⟨leavings, stack, all, bound, rooted⟩, fun after given done => ?_, fun clean => ?_⟩
  · obtain ⟨root, reference, final, answer, taken, top⟩ := stack_root given done
    have same : solved = (.ok root, final) := answer
    rw [same]
    exact ⟨root, reference, rfl, taken, top⟩
  · have nothing : leavings.flatten = [] :=
      List.flatten_eq_nil_iff.mpr fun levels among => clean levels (all levels among)
    rw [nothing] at stack
    exact stack

/-! ## Programs of literals and operators -/

/-- How many levels of its own a row of items has, if it had some before, consists of values that
are put on the stack and of operators, and every operator finds its operands among these levels. -/
def ownLevels : ℕ → List Value → Option ℕ
  | own, [] => some own
  | own, .command command :: items =>
    if command.operates && command.arity ≤ own then ownLevels (own - command.arity + 1) items
    else none
  | _, .symbol _ :: _ => none
  | own, _ :: items => ownLevels (own + 1) items

/-- To put a value on top adds a level, or fails and leaves the stack alone. -/
theorem stack_push (value : Value) (machine : Machine Store Reference) :
    (∃ fault, (enact (push value) machine).1 = .error fault ∧
        (enact (push value) machine).2.stack = machine.stack) ∨
      ∃ reference, (enact (push value) machine).1 = .ok () ∧
        (enact (push value) machine).2.stack = reference :: machine.stack := by
  have same := unstacked_make value machine
  unfold push
  rcases taken : enact (make value) machine with ⟨outcome, after⟩
  rw [taken] at same
  cases outcome with
  | error fault =>
    rw [enact_bind_error taken]
    exact .inl ⟨fault, rfl, same⟩
  | ok reference =>
    rw [enact_bind_ok taken]
    exact .inr ⟨reference, rfl, congrArg (reference :: ·) same⟩

/-- To read the operands leaves the stack alone. -/
theorem unstacked_arguments (count : ℕ) :
    Unstacked (arguments count : ActionOn Store Reference (List Value)) := by
  have required : Unstacked (requireLevels count : ActionOn Store Reference Unit) := by
    refine (unstacked_read _).bind fun levels => ?_
    split
    · exact unstacked_throw _
    · exact unstacked_pure _
  refine required.bind fun _ machine => ?_
  rw [enact_get_bind, Link.enact_mapM_value]

/-- What an operator does with a result: it puts it in the place of the operands. If that fails, the
operands are all there or all gone. -/
theorem stack_replace {count : ℕ} (computed : Outcome Value) {machine : Machine Store Reference}
    (enough : count ≤ machine.stack.length) :
    let answer := enact (do
      let result ← require computed
      drop count
      push result) machine
    (∃ fault, answer.1 = .error fault ∧
        (answer.2.stack = machine.stack ∨ answer.2.stack = machine.stack.drop count)) ∨
      ∃ reference, answer.1 = .ok () ∧ answer.2.stack = reference :: machine.stack.drop count := by
  cases computed with
  | error fault => exact .inl ⟨fault, rfl, .inl rfl⟩
  | ok result =>
    rw [enact_bind_ok (rfl : enact (require (.ok result)) machine = (.ok result, machine)),
      enact_bind_ok (enact_drop enough)]
    rcases stack_push result { machine with stack := machine.stack.drop count } with
      ⟨fault, failed, kept⟩ | ⟨reference, done, put⟩
    · exact .inl ⟨fault, failed, .inr kept⟩
    · exact .inr ⟨reference, done, put⟩

/-- An operator puts its result in the place of its operands, or fails and leaves all levels below
these. -/
theorem stack_operate {command : Command} {machine : Machine Store Reference}
    (enough : command.arity ≤ machine.stack.length) :
    let answer := enact (operate command) machine
    (∃ fault, answer.1 = .error fault ∧
        (answer.2.stack = machine.stack ∨ answer.2.stack = machine.stack.drop command.arity)) ∨
      ∃ reference, answer.1 = .ok () ∧
        answer.2.stack = reference :: machine.stack.drop command.arity := by
  have same := unstacked_arguments command.arity machine
  unfold operate
  rcases read : enact (arguments command.arity) machine with ⟨outcome, after⟩
  rw [read] at same
  cases outcome with
  | error fault =>
    rw [enact_bind_error read]
    exact .inl ⟨fault, rfl, .inl same⟩
  | ok operands =>
    have same : after.stack = machine.stack := same
    rw [enact_bind_ok read, enact_preferences_bind, ← same]
    exact stack_replace _ (same ▸ enough)

/-- To run an operator is to operate. -/
theorem perform_operates {command : Command} (operates : command.operates = true) :
    perform deeper command = operate command := by
  cases command <;> first | rfl | cases operates

/-- Values and operators that find their operands among levels of their own leave the levels below
these alone. -/
theorem suffix_executeAll {items : List Value} {own : List Reference} {count : ℕ}
    (counted : ownLevels own.length items = some count) {below : List Reference}
    {machine : Machine Store Reference} (levels : machine.stack = own ++ below) :
    below <:+ (enact (executeAll deeper items) machine).2.stack := by
  induction items generalizing own machine with
  | nil => exact ⟨own, levels.symm⟩
  | cons item items inductionHypothesis =>
    have start : executeAll deeper (item :: items) =
        execute deeper item >>= fun _ => executeAll deeper items := List.forM_cons ..
    rw [start]
    have goOn {outcome : Outcome Unit} {after : Machine Store Reference}
        (answer : enact (execute deeper item) machine = (outcome, after))
        (failed : ∀ fault, outcome = .error fault → below <:+ after.stack)
        (further : outcome = .ok () → ∃ next : List Reference,
          ownLevels next.length items = some count ∧ after.stack = next ++ below) :
        below <:+ (enact (execute deeper item >>= fun _ => executeAll deeper items)
          machine).2.stack := by
      cases outcome with
      | error fault =>
        rw [enact_bind_error answer]
        exact failed fault rfl
      | ok _ =>
        rw [enact_bind_ok answer]
        obtain ⟨next, counted, stacked⟩ := further rfl
        exact inductionHypothesis counted stacked
    have literal (plain : execute deeper item = push item)
        (rest : ownLevels (own.length + 1) items = some count) :
        below <:+ (enact (execute deeper item >>= fun _ => executeAll deeper items)
          machine).2.stack := by
      rw [plain] at goOn ⊢
      refine goOn rfl (fun fault failed => ?_) fun done => ?_
      · rcases stack_push item machine with ⟨-, -, kept⟩ | ⟨reference, done, -⟩
        · exact ⟨own, levels.symm.trans kept.symm⟩
        · cases failed.symm.trans done
      · rcases stack_push item machine with ⟨fault, failed, -⟩ | ⟨reference, -, put⟩
        · cases failed.symm.trans done
        · exact ⟨reference :: own, rest, put.trans (congrArg _ levels)⟩
    cases item with
    | command command =>
      rw [ownLevels] at counted
      split at counted
      · rename_i operates
        obtain ⟨operates, enough⟩ := Bool.and_eq_true_iff.mp operates
        have enough : command.arity ≤ own.length := of_decide_eq_true enough
        have kept : machine.stack.drop command.arity = own.drop command.arity ++ below := by
          rw [levels, List.drop_append_of_le_length enough]
        have all : command.arity ≤ machine.stack.length := by
          rw [levels, List.length_append]
          omega
        have plain : execute deeper (.command command) = operate command :=
          perform_operates operates
        rw [plain] at goOn ⊢
        refine goOn rfl (fun fault failed => ?_) fun done => ?_
        · rcases stack_operate all with ⟨-, -, same | dropped⟩ | ⟨-, done, -⟩
          · exact ⟨own, levels.symm.trans same.symm⟩
          · exact ⟨own.drop command.arity, kept.symm.trans dropped.symm⟩
          · cases failed.symm.trans done
        · rcases stack_operate all with ⟨fault, failed, -⟩ | ⟨reference, -, put⟩
          · cases failed.symm.trans done
          · refine ⟨reference :: own.drop command.arity, ?_, put.trans (congrArg _ kept)⟩
            rwa [List.length_cons, List.length_drop]
      · cases counted
    | symbol name => cases counted
    | _ => exact literal rfl counted

/-- A program of values and operators that find their operands among levels of their own takes no
levels away which it finds, whatever the machine. -/
theorem spares_program {items : List Value} {count : ℕ} (counted : ownLevels 0 items = some count)
    (levels : ℕ) {problem : Problem} (target : problem.target = .program items) :
    Spares (within levels) problem (fun _ : Machine Store Reference => True) where
  spares {machine} _ := by
    rw [target]
    cases levels with
    | zero => exact List.suffix_rfl
    | succ levels =>
      show machine.stack <:+
        (enact (nested (executeAll (within levels) items)) machine).2.stack
      rw [enact_nested]
      split
      · exact List.suffix_rfl
      · exact suffix_executeAll (show ownLevels ([] : List Reference).length items = some count
          from counted) rfl
  evaluated _ := trivial
  stored _ _ := trivial
  answered _ := trivial

/-- A new machine with values on its stack, the last one on top. -/
def loaded (values : List Value) : Machine :=
  values.foldl (fun machine value => (enact (push value) machine).2) (start {})

set_option maxRecDepth 100000 in
/-- The program that is zero everywhere has a root at the guess, which takes the place of the three
arguments. -/
theorem solve_stack_zero :
    let before := loaded [.ofInt 7, .program [.ofInt 0], .symbol ⟨"X"⟩, .ofInt 5]
    let solved := enact (solve (evaluated (within 3)) (.program [.ofInt 0]) (.symbol ⟨"X"⟩)
      (.ofInt 5)) before
    enact (arguments 3) before = (.ok [.program [.ofInt 0], .symbol ⟨"X"⟩, .ofInt 5], before) ∧
      (enact (perform (within 3) .root) before).1 = .ok () ∧
      (∃ leavings : List (List Handle), solved.2.stack = leavings.flatten ++ before.stack ∧
        leavings.length ≤ 3) ∧
      ∃ root reference, solved.1 = .ok root ∧
        (enact (perform (within 3) .root) before).2.stack = reference :: solved.2.stack.drop 3 := by
  have given : enact (arguments 3)
      (loaded [.ofInt 7, .program [.ofInt 0], .symbol ⟨"X"⟩, .ofInt 5]) =
      (.ok [.program [.ofInt 0], .symbol ⟨"X"⟩, .ofInt 5],
        loaded [.ofInt 7, .program [.ofInt 0], .symbol ⟨"X"⟩, .ofInt 5]) := by
    refine Prod.ext ?_ ?_ <;> with_unfolding_all rfl
  intro before solved
  have spares (problem) (posed : Problem.pose (.program [.ofInt 0]) (.symbol ⟨"X"⟩) (.ofInt 5) =
      .ok problem) : Spares (within 3) problem (fun _ : Machine => True) := by
    obtain rfl := Except.ok.inj posed
    exact spares_program (show ownLevels 0 [.ofInt 0] = some 1 from rfl) 3 rfl
  have found : (enact (perform (within 3) .root) before).1 = .ok () := by decide +kernel
  obtain ⟨⟨leavings, stack, -, few, -⟩, rooted, -⟩ :=
    solve_stack spares (show (fun _ : Machine => True) before from trivial)
  obtain ⟨root, reference, answer, -, top⟩ := rooted _ given (Prod.ext found rfl)
  exact ⟨given, found, ⟨leavings, stack, few⟩, root, reference, answer, top⟩

/-- Failed evaluations do leave levels: `1/X*0` has no value at the guess, and the operands of the
division stay. They are taken for arguments once there is a root, so the equation and the unknown
are left below it. Nothing takes the levels away where there is no root either. -/
theorem solve_stack_disturbed :
    let quotient := Value.expression [.ofInt 1, .symbol ⟨"X"⟩, .command .divide, .ofInt 0,
      .command .multiply]
    let infinite := Value.expression [.ofInt 1, .ofInt 0, .command .divide]
    let rooted := enact (perform (within 3) .root)
      (loaded [.ofInt 7, quotient, .symbol ⟨"X"⟩, .ofInt 0])
    let failed := enact (solve (evaluated (within 3)) infinite (.symbol ⟨"X"⟩) (.ofInt 5))
      (loaded [.ofInt 7])
    (rooted.1 = .ok () ∧ rooted.2.stack.length = 4) ∧
      failed.1.toOption.isSome = false ∧ failed.2.stack.length = 7 := by
  decide +kernel

end Machine

end Calculator
