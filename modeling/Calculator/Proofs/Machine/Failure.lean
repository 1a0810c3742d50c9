import Calculator.Proofs.Encoding.RoundTrip
import Calculator.Proofs.Machine.Levels
import Mathlib

/-!
# What is left of the stack when a command fails

Most commands look at their arguments first, and either change nothing but the levels they are
about, or change the stack only when nothing can fail any more: a value is stored, a variable is
purged and a directory is made before the arguments are dropped. Two kinds of commands drop their
arguments too early. The commands that put a result in the place of their arguments drop these
before they know whether the storage takes the result in. And `pick` drops the number of the level
before it finds that there is no level zero.
-/

namespace Calculator

/-- Whether a command puts one value in the place of its arguments. -/
def Command.replaces : Command → Bool
  | .fetch | .toPolynomial | .toExpression => true
  | command => command.operates

namespace Machine

variable {Store Reference : Type}

/-! ## Actions that only look -/

/-- An action that changes nothing, whether it fails or not. -/
def Looks {Item : Type} (action : ActionOn Store Reference Item) : Prop :=
  ∀ machine, (enact action machine).2 = machine

section Combination

variable {Item Result : Type}

/-- What is known already is answered without a change. -/
theorem looks_pure (item : Item) : Looks (pure item : ActionOn Store Reference Item) :=
  fun _ => rfl

/-- To fail changes nothing. -/
theorem looks_throw (fault : Fault) : Looks (throw fault : ActionOn Store Reference Item) :=
  fun _ => rfl

/-- What is read off a machine is read without a change. -/
theorem looks_read (read : Machine Store Reference → Item) :
    Looks (do return read (← get)) := fun _ => rfl

/-- An outcome from outside the machine changes nothing. -/
theorem looks_require (outcome : Outcome Item) :
    Looks (require outcome : ActionOn Store Reference Item) := by
  cases outcome with
  | ok item => exact looks_pure item
  | error fault => exact looks_throw fault

/-- Two actions in a row change nothing if both do not. -/
theorem Looks.bind {action : ActionOn Store Reference Item}
    {next : Item → ActionOn Store Reference Result} (head : Looks action)
    (tails : ∀ item, Looks (next item)) : Looks (action >>= next) := by
  intro machine
  have same := head machine
  rcases answer : enact action machine with ⟨outcome, after⟩
  rw [answer] at same
  cases outcome with
  | ok item =>
    rw [enact_bind_ok answer]
    exact (tails item after).trans same
  | error fault =>
    rw [enact_bind_error answer]
    exact same

end Combination

/-- To count the levels changes nothing. -/
theorem looks_requireLevels (count : ℕ) :
    Looks (requireLevels count : ActionOn Store Reference Unit) := by
  refine (looks_read _).bind fun levels => ?_
  split
  · exact looks_throw _
  · exact looks_pure _

/-- To find out what refers to a level changes nothing. -/
theorem looks_levelHandle (number : ℕ) :
    Looks (levelHandle number : ActionOn Store Reference Reference) := by
  intro machine
  unfold levelHandle
  split
  · rfl
  · dsimp only
    rw [enact_get_bind]
    split <;> rfl

/-- To take a value for a name changes nothing. -/
theorem looks_nameOf (value : Value) : Looks (nameOf value : ActionOn Store Reference Symbol) := by
  unfold nameOf
  split
  · exact looks_pure _
  · exact looks_throw _

section Objects

variable [Storage Store Reference]

/-- To read the value on top changes nothing. -/
theorem looks_top : Looks (top : ActionOn Store Reference Value) :=
  (looks_levelHandle 1).bind fun reference machine => by rw [Link.enact_value]

/-- To read the arguments changes nothing. -/
theorem looks_arguments (count : ℕ) :
    Looks (arguments count : ActionOn Store Reference (List Value)) :=
  (looks_requireLevels count).bind fun _ machine => by
    rw [enact_get_bind, Link.enact_mapM_value]

end Objects

/-- To purge a variable leaves the stack alone. -/
theorem unstacked_purge (name : Symbol) :
    Unstacked (purge name : ActionOn Store Reference Unit) :=
  Unstacked.bind (unstacked_read _) fun _ => unstacked_changeCurrent _

/-- To make a directory leaves the stack alone. -/
theorem unstacked_createDirectory (name : Symbol) :
    Unstacked (createDirectory name : ActionOn Store Reference Unit) :=
  Unstacked.bind (unstacked_read _) fun _ => unstacked_changeCurrent _

/-! ## Actions that lose nothing when they fail -/

/-- An action that leaves the stack alone if it fails. -/
def Cautious {Item : Type} (action : ActionOn Store Reference Item) : Prop :=
  ∀ machine fault after, enact action machine = (.error fault, after) →
    after.stack = machine.stack

section Combination

variable {Item Result : Type}

/-- What never touches the stack does not do so when it fails. -/
theorem Unstacked.cautious {action : ActionOn Store Reference Item} (unstacked : Unstacked action) :
    Cautious action := by
  intro machine fault after failed
  have same := unstacked machine
  rwa [failed] at same

/-- What changes nothing does not touch the stack. -/
theorem Looks.unstacked {action : ActionOn Store Reference Item} (looks : Looks action) :
    Unstacked action := fun machine => congrArg Machine.stack (looks machine)

/-- Only the last action of a row may touch the stack, and only if it succeeds. -/
theorem Unstacked.cautious_bind {action : ActionOn Store Reference Item}
    {next : Item → ActionOn Store Reference Result} (head : Unstacked action)
    (tails : ∀ item, Cautious (next item)) : Cautious (action >>= next) := by
  intro machine fault after failed
  have same := head machine
  rcases answer : enact action machine with ⟨outcome, between⟩
  rw [answer] at same
  cases outcome with
  | ok item =>
    rw [enact_bind_ok answer] at failed
    exact (tails item between fault after failed).trans same
  | error other =>
    rw [enact_bind_error answer] at failed
    obtain ⟨-, rfl⟩ := Prod.mk.inj failed
    exact same

end Combination

/-- To replace the levels never fails. -/
theorem cautious_setStack (levels : List Reference) :
    Cautious (setStack levels : ActionOn Store Reference Unit) := by
  intro machine fault after failed
  cases failed

/-- Levels are only taken away if there are enough of them. -/
theorem cautious_drop (count : ℕ) : Cautious (drop count : ActionOn Store Reference Unit) :=
  (looks_requireLevels count).unstacked.cautious_bind fun _ =>
    Unstacked.cautious_bind (fun _ => rfl) fun _ => cautious_setStack _

/-- Nothing happens if there is no level to put on top. -/
theorem cautious_pick (number : ℕ) : Cautious (pick number : ActionOn Store Reference Unit) :=
  (looks_levelHandle number).unstacked.cautious_bind fun _ =>
    Unstacked.cautious_bind (fun _ => rfl) fun _ => cautious_setStack _

/-- A level that there is is put on top. -/
theorem enact_pick {number : ℕ} {machine : Machine Store Reference} (positive : number ≠ 0)
    (enough : number ≤ machine.stack.length) :
    ∃ after, enact (pick number) machine = (.ok (), after) := by
  have inside : number - 1 < machine.stack.length := by omega
  have found : enact (levelHandle number) machine = (.ok machine.stack[number - 1], machine) := by
    unfold levelHandle
    rw [if_neg positive]
    dsimp only
    rw [enact_get_bind, List.getElem?_eq_getElem inside]
    rfl
  exact ⟨_, enact_bind_ok found _⟩

/-- If there are two levels, both of them are doubled. -/
theorem cautious_duplicate2 : Cautious (duplicate2 : ActionOn Store Reference Unit) := by
  intro machine fault after failed
  have required := enact_requireLevels 2 machine
  unfold duplicate2 at failed
  split at required
  · rw [enact_bind_error required] at failed
    obtain ⟨-, rfl⟩ := Prod.mk.inj failed
    rfl
  · rename_i enough
    rcases levels : machine.stack with _ | ⟨first, _ | ⟨second, others⟩⟩
    · exact absurd (by rw [levels]; exact two_pos) enough
    · exact absurd (by rw [levels]; exact one_lt_two) enough
    · have found : enact (levelHandle 2) machine = (.ok second, machine) := by
        unfold levelHandle
        rw [if_neg (by decide)]
        dsimp only
        rw [enact_get_bind, levels]
        rfl
      have once : enact (pick 2) machine =
          (.ok (), { machine with stack := second :: machine.stack }) := enact_bind_ok found _
      have room : 2 ≤ ({ machine with stack := second :: machine.stack } :
          Machine Store Reference).stack.length := by
        rw [levels]
        simp
      rw [enact_bind_ok required, enact_bind_ok once] at failed
      obtain ⟨last, twice⟩ := enact_pick two_ne_zero room
      cases twice.symm.trans failed

/-- If there are two levels, they are exchanged. -/
theorem cautious_swap : Cautious (swap : ActionOn Store Reference Unit) := by
  intro machine fault after failed
  unfold swap at failed
  rw [enact_get_bind] at failed
  split at failed
  · cases failed
  · obtain ⟨-, rfl⟩ := Prod.mk.inj failed
    rfl

/-- If there are three levels, the third one is moved to the top. -/
theorem cautious_rotate : Cautious (rotate : ActionOn Store Reference Unit) := by
  intro machine fault after failed
  unfold rotate at failed
  rw [enact_get_bind] at failed
  split at failed
  · cases failed
  · obtain ⟨-, rfl⟩ := Prod.mk.inj failed
    rfl

section Objects

variable [Storage Store Reference]

/-- A value is put on top only after it has been taken in. -/
theorem cautious_push (value : Value) :
    Cautious (push value : ActionOn Store Reference Unit) :=
  (unstacked_make value).cautious_bind fun _ machine fault after failed => by cases failed

/-- The arguments are dropped only after the value has been stored. -/
theorem cautious_storeNamed : Cautious (storeNamed : ActionOn Store Reference Unit) := by
  refine (looks_arguments 2).unstacked.cautious_bind fun given => ?_
  split
  · exact (looks_nameOf _).unstacked.cautious_bind fun _ =>
      (unstacked_store _ _).cautious_bind fun _ => cautious_drop 2
  · exact (unstacked_throw _).cautious

/-- What is done to the current directory under the name on top is done before that is dropped. -/
theorem cautious_named {action : Symbol → ActionOn Store Reference Unit}
    (unstacked : ∀ name, Unstacked (action name)) :
    Cautious (do
      action (← nameOf (← top))
      drop 1) :=
  looks_top.unstacked.cautious_bind fun _ => (looks_nameOf _).unstacked.cautious_bind fun name =>
    (unstacked name).cautious_bind fun _ => cautious_drop 1

end Objects

/-! ## Actions that put one value in the place of others -/

section Replacement

variable [Storage Store Reference]

/-- The machine with a number of levels taken away. -/
def dropped (count : ℕ) (machine : Machine Store Reference) : Machine Store Reference :=
  { machine with stack := machine.stack.drop count }

/-- An action that leaves the stack alone if it fails, unless it has taken a number of levels away
to put a value in their place, which is not taken in. -/
def Replacing {Item : Type} (count : ℕ) (action : ActionOn Store Reference Item) : Prop :=
  ∀ machine fault after, enact action machine = (.error fault, after) →
    after.stack = machine.stack ∨ count ≤ machine.stack.length ∧
      ∃ result, enact (make result) (machine.dropped count) = (.error fault, after)

/-- An action that fails before it takes any level away. -/
theorem Cautious.replacing {Item : Type} {count : ℕ} {action : ActionOn Store Reference Item}
    (cautious : Cautious action) : Replacing count action :=
  fun machine fault after failed => .inl (cautious machine fault after failed)

/-- What is only looked at before levels are taken away changes nothing. -/
theorem Looks.replacing_bind {Item Result : Type} {count : ℕ}
    {action : ActionOn Store Reference Item} {next : Item → ActionOn Store Reference Result}
    (head : Looks action) (tails : ∀ item, Replacing count (next item)) :
    Replacing count (action >>= next) := by
  intro machine fault after failed
  have same := head machine
  rcases answer : enact action machine with ⟨outcome, between⟩
  rw [answer] at same
  obtain rfl : between = machine := same
  cases outcome with
  | ok item =>
    rw [enact_bind_ok answer] at failed
    exact tails item between fault after failed
  | error other =>
    rw [enact_bind_error answer] at failed
    obtain ⟨-, rfl⟩ := Prod.mk.inj failed
    exact .inl rfl

/-- A value is put in the place of others: they are dropped before it is taken in. -/
theorem replacing_put (count : ℕ) (result : Value) :
    Replacing count (do
      drop count
      push result : ActionOn Store Reference Unit) := by
  intro machine fault after failed
  by_cases enough : count ≤ machine.stack.length
  · rw [enact_bind_ok (enact_drop enough)] at failed
    refine .inr ⟨enough, result, ?_⟩
    have failed : enact (push result) (machine.dropped count) = (.error fault, after) := failed
    unfold push at failed
    rcases taken : enact (make result) (machine.dropped count) with ⟨outcome, between⟩
    cases outcome with
    | ok reference =>
      rw [enact_bind_ok taken] at failed
      cases failed
    | error other =>
      rw [enact_bind_error taken] at failed
      obtain ⟨same, rfl⟩ := Prod.mk.inj failed
      cases same
      rfl
  · rw [enact_bind_error (enact_drop_refused (Nat.not_le.mp enough))] at failed
    obtain ⟨-, rfl⟩ := Prod.mk.inj failed
    exact .inl rfl

/-- An operator puts its result in the place of its operands. -/
theorem replacing_operate (command : Command) :
    Replacing command.arity (operate command : ActionOn Store Reference Unit) :=
  (looks_arguments _).replacing_bind fun _ => (looks_read _).replacing_bind fun _ =>
    (looks_require _).replacing_bind fun result => replacing_put _ result

/-- The value of a variable is put in the place of its name. -/
theorem replacing_fetchNamed : Replacing 1 (fetchNamed : ActionOn Store Reference Unit) := by
  refine looks_top.replacing_bind fun given => (looks_nameOf given).replacing_bind fun name =>
    (looks_read _).replacing_bind fun found => ?_
  cases found with
  | some value => exact replacing_put 1 value
  | none => exact (unstacked_throw _).cautious.replacing

/-- A polynomial is put in the place of a value. -/
theorem replacing_toPolynomial : Replacing 1 (toPolynomial : ActionOn Store Reference Unit) :=
  looks_top.replacing_bind fun _ => (looks_read _).replacing_bind fun _ =>
    (looks_read _).replacing_bind fun _ => (looks_require _).replacing_bind fun p =>
      replacing_put 1 (.polynomial p)

/-- An expression is put in the place of a value. -/
theorem replacing_toExpression : Replacing 1 (toExpression : ActionOn Store Reference Unit) :=
  looks_top.replacing_bind fun _ => (looks_require _).replacing_bind fun result =>
    replacing_put 1 result

/-! ## The number of a level -/

/-- Whether the number on top is zero. -/
def ZeroOnTop (machine : Machine Store Reference) : Prop :=
  ∃ value, enact top machine = (.ok value, machine) ∧ value.toInt64? = some 0

/-- The number of a level is dropped if there are as many levels below it. -/
theorem enact_pickCounted {machine : Machine Store Reference} {value : Value} {level : Int64}
    (answer : enact top machine = (.ok value, machine)) (counted : value.toInt64? = some level)
    (nonnegative : ¬ level < 0) (enough : level.toInt.toNat < machine.stack.length) :
    enact pickCounted machine = enact (pick level.toInt.toNat) (machine.dropped 1) := by
  have required := enact_requireLevels (level.toInt.toNat + 1) machine
  rw [if_neg (by omega)] at required
  unfold pickCounted
  rw [enact_bind_ok answer, counted]
  dsimp only
  rw [if_neg nonnegative, enact_bind_ok required, enact_bind_ok (enact_drop (by omega))]
  rfl

/-- The number zero is dropped before it is noticed that there is no such level. -/
theorem enact_pickCounted_zero {machine : Machine Store Reference} (zero : machine.ZeroOnTop) :
    enact pickCounted machine = (.error .badArgumentValue, machine.dropped 1) := by
  obtain ⟨value, answer, counted⟩ := zero
  have some_level : 0 < machine.stack.length := by
    by_contra none
    have empty : machine.stack = [] := List.eq_nil_of_length_eq_zero (by omega)
    have refused : enact top machine = (.error .tooFewArguments, machine) := by
      refine enact_bind_error ?_ _
      unfold levelHandle
      rw [if_neg one_ne_zero]
      dsimp only
      rw [enact_get_bind, empty]
      rfl
    cases refused.symm.trans answer
  rw [enact_pickCounted answer counted (by decide) some_level]
  rfl

/-- A level that is not there is noticed before its number is dropped, unless the number is zero. -/
theorem zeroOnTop_of_pickCounted {machine after : Machine Store Reference} {fault : Fault}
    (failed : enact pickCounted machine = (.error fault, after)) :
    after.stack = machine.stack ∨
      machine.ZeroOnTop ∧ fault = .badArgumentValue ∧ after = machine.dropped 1 := by
  have start := failed
  have same := looks_top machine
  unfold pickCounted at failed
  rcases answer : enact top machine with ⟨outcome, between⟩
  rw [answer] at same
  obtain rfl : between = machine := same
  cases outcome with
  | error other =>
    rw [enact_bind_error answer] at failed
    obtain ⟨-, rfl⟩ := Prod.mk.inj failed
    exact .inl rfl
  | ok value =>
    rw [enact_bind_ok answer] at failed
    dsimp only at failed
    split at failed
    · obtain ⟨-, rfl⟩ := Prod.mk.inj failed
      exact .inl rfl
    · rename_i level counted
      split at failed
      · obtain ⟨-, rfl⟩ := Prod.mk.inj failed
        exact .inl rfl
      · rename_i nonnegative
        by_cases enough : level.toInt.toNat < between.stack.length
        · by_cases zero : level = 0
          · subst zero
            have zero : between.ZeroOnTop := ⟨value, answer, counted⟩
            rw [enact_pickCounted_zero zero] at start
            obtain ⟨reason, rfl⟩ := Prod.mk.inj start
            exact .inr ⟨zero, (Except.error.inj reason).symm, rfl⟩
          · have positive : level.toInt.toNat ≠ 0 := by
              have apart : level.toInt ≠ 0 := fun same => zero (Int64.toInt_inj.mp same)
              have below : ¬ level.toInt < 0 := fun less => nonnegative (Int64.lt_iff_toInt_lt.mpr less)
              omega
            have room : level.toInt.toNat ≤ (between.dropped 1).stack.length := by
              rw [dropped, List.length_drop]
              omega
            obtain ⟨last, picked⟩ := enact_pick positive room
            rw [enact_pickCounted answer counted nonnegative enough, picked] at start
            cases start
        · have required := enact_requireLevels (level.toInt.toNat + 1) between
          rw [if_pos (by omega)] at required
          rw [enact_bind_error required] at failed
          obtain ⟨-, rfl⟩ := Prod.mk.inj failed
          exact .inl rfl

end Replacement

/-! ## Commands -/

section Commands

variable [Storage Store Reference] {deeper : Deeper Store Reference}

/-- The commands that put one value in the place of their arguments. -/
theorem replacing_perform {command : Command} (replaces : command.replaces = true) :
    Replacing command.arity (perform deeper command) := by
  cases operates : command.operates with
  | true =>
    rw [perform_operates operates]
    exact replacing_operate command
  | false =>
    cases command with
    | fetch => exact replacing_fetchNamed
    | toPolynomial => exact replacing_toPolynomial
    | toExpression => exact replacing_toExpression
    | _ => cases operates.symm.trans replaces

/-- The commands that lose nothing when they fail. -/
theorem cautious_perform {command : Command} (replaces : command.replaces = false)
    (plain : command ∉ [.evaluate, .toDecimal, .root, .pick]) :
    Cautious (perform deeper command) := by
  cases command with
  | duplicate => exact cautious_pick 1
  | drop => exact cautious_drop 1
  | swap => exact cautious_swap
  | copySecond => exact cautious_pick 2
  | rotate => exact cautious_rotate
  | depth => exact (looks_read _).unstacked.cautious_bind fun levels => cautious_push (.ofInt levels)
  | clear => exact cautious_setStack []
  | duplicate2 => exact cautious_duplicate2
  | drop2 => exact cautious_drop 2
  | store => exact cautious_storeNamed
  | purge => exact cautious_named unstacked_purge
  | createDirectory => exact cautious_named unstacked_createDirectory
  | upDirectory => exact Unstacked.cautious fun _ => rfl
  | home => exact Unstacked.cautious fun _ => rfl
  | pick | evaluate | toDecimal | root => exact absurd (by decide) plain
  | _ => cases replaces

end Commands

/-- The stack after a command has failed that does not run code of the user's. It is as it was but
in two cases. The number zero for `pick` is dropped before it is noticed that there is no such
level, which happens whenever zero is on top. And a command that puts a value in the place of its
arguments has dropped exactly these if the heap does not take the value in, which happens only for
want of memory if the encoding is not too long for its length to be addressed. -/
theorem command_failure (machine : Machine) :
    (∀ (command : Command) (after : Machine) (fault : Fault),
      command ∉ [.evaluate, .toDecimal, .root] →
      enact (Machine.command command) machine = (.error fault, after) →
      after.stack = machine.stack ∨
        (command = .pick ∧ machine.ZeroOnTop ∧ fault = .badArgumentValue ∧
          after = machine.dropped 1) ∨
        (command.replaces = true ∧ command.arity ≤ machine.stack.length ∧
          after.stack = machine.stack.drop command.arity ∧
          ∃ result, enact (make result) (machine.dropped command.arity) = (.error fault, after) ∧
            (Encoding.Addressable result → fault = .outOfMemory))) ∧
    (machine.ZeroOnTop →
      enact (Machine.command .pick) machine = (.error .badArgumentValue, machine.dropped 1)) := by
  have started (command : Command) : enact (Machine.command command) machine =
      enact (perform (within (machine.settings.maxRecursion.toNat - machine.nesting)) command)
        machine := rfl
  refine ⟨fun command after fault plain failed => ?_, fun zero => ?_⟩
  · rw [started] at failed
    by_cases counts : command = .pick
    · subst counts
      rcases zeroOnTop_of_pickCounted failed with same | ⟨zero, reason, lost⟩
      · exact .inl same
      · exact .inr (.inl ⟨rfl, zero, reason, lost⟩)
    · cases replaces : command.replaces with
      | false =>
        refine .inl (cautious_perform replaces ?_ machine fault after failed)
        simp only [List.mem_cons, List.not_mem_nil, or_false] at plain ⊢
        tauto
      | true =>
        rcases replacing_perform replaces machine fault after failed with same | ⟨enough, result, made⟩
        · exact .inl same
        · have levels := unstacked_make result (machine.dropped command.arity)
          rw [made] at levels
          refine .inr (.inr ⟨rfl, enough, levels, result, made, fun addressable => ?_⟩)
          rw [Encoding.make_eq_place result addressable, Link.enact_place] at made
          obtain ⟨refused, -⟩ := Prod.mk.inj made
          exact fault_of_storage (Prod.ext refused rfl)
  · rw [started]
    exact enact_pickCounted_zero zero

end Machine

namespace Session

open Machine

/-- A directory is not overwritten by a value, and name and value stay on the stack. -/
theorem command_failure_directory :
    let before := requested [.plain (.createDirectory ⟨"D"⟩), .plain (.push (.ofInt 5)),
      .plain (.push (.symbol ⟨"D"⟩))] (start {})
    let answer := enact (Machine.command .store) before
    answer.1 = .error .badArgumentType ∧ answer.2.stack = before.stack := by
  intro before answer
  have failed : answer.1 = .error .badArgumentType := by decide +kernel
  have whole : answer = (.error .badArgumentType, answer.2) := by rw [← failed]
  rcases (command_failure before).1 .store answer.2 .badArgumentType (by decide) whole with
    same | ⟨pick, -⟩ | ⟨replaces, -⟩
  · exact ⟨failed, same⟩
  · cases pick
  · cases replaces

/-- The number zero for `pick` is lost, and so is a number that should become an expression when
there is no room for that. -/
theorem command_failure_lost :
    let counted := requested [.plain (.push (.ofInt 1)), .plain (.push (.ofInt 0))] (start {})
    let crowded := requested [.plain (.push (.ofInt 5))] (start { heapSize := 3, heapLimit := 3 })
    let picked := enact (Machine.command .pick) counted
    let turned := enact (Machine.command .toExpression) crowded
    picked.1 = .error .badArgumentValue ∧ picked.2.stack ≠ counted.stack ∧
      turned.1 = .error .outOfMemory ∧ turned.2.stack ≠ crowded.stack := by
  decide +kernel

end Session

end Calculator
