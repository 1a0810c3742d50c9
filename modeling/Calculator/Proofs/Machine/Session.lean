import Calculator.Proofs.Machine.Evaluation
import Mathlib

/-!
# Sessions

What a machine can be asked to do without a reference to an object in hand, and what is seen of
it: what every operation answers, and after it the values on the stack, the tree of the
variables with their values, and the current directory. Linked machines are not told apart by
this.
-/

namespace Calculator.Session

open Machine

variable {Store Reference Other Image : Type}

/-- What a machine can be asked to do without a reference to an object. -/
inductive Operation where
  | push (value : Value)
  | pop
  | level (number : Nat)
  | arguments (count : Nat)
  | pick (number : Nat)
  | duplicate
  | duplicate2
  | copySecond
  | swap
  | rotate
  | drop (count : Nat)
  | clear
  | store (name : Symbol) (value : Value)
  | fetch (name : Symbol)
  | purge (name : Symbol)
  | createDirectory (name : Symbol)
  | enter (name : Symbol)
  | upDirectory
  | home
  | collect
  | command (given : Command)
  | run (line : String)

/-- Whether an operation is a collection. -/
def Operation.isCollection : Operation → Bool
  | collect => true
  | _ => false

/-- What an operation answers. -/
inductive Answer where
  | done
  | value (value : Value)
  | values (values : List Value)
  /-- The value of a variable, if there is one. -/
  | variable (value : Option Value)
  /-- Whether there was a directory to enter. -/
  | entered (entered : Bool)

/-- Performs an operation. A collection does not tell how many bytes it gave back. -/
def Operation.perform [Storage Store Reference] : Operation → ActionOn Store Reference Answer
  | push value => do Machine.push value; return .done
  | pop => return .value (← Machine.pop)
  | level number => return .value (← Machine.level number)
  | arguments count => return .values (← Machine.arguments count)
  | pick number => do Machine.pick number; return .done
  | duplicate => do Machine.duplicate; return .done
  | duplicate2 => do Machine.duplicate2; return .done
  | copySecond => do Machine.copySecond; return .done
  | swap => do Machine.swap; return .done
  | rotate => do Machine.rotate; return .done
  | drop count => do Machine.drop count; return .done
  | clear => do Machine.clear; return .done
  | store name value => do Machine.store name value; return .done
  | fetch name => return .variable (← Machine.fetch? name)
  | purge name => do Machine.purge name; return .done
  | createDirectory name => do Machine.createDirectory name; return .done
  | enter name => return .entered (← Machine.enter name)
  | upDirectory => do Machine.upDirectory; return .done
  | home => do Machine.home; return .done
  | collect => do discard Machine.collect; return .done
  | command given => do Machine.command given; return .done
  | run line => do Machine.run line; return .done

/-- What is seen of a machine. -/
structure View where
  /-- The values on the stack, the top first. -/
  stack : List (Outcome Value)
  /-- The variables with their values, from the outermost directory on. -/
  tree : Directory (Outcome Value)
  /-- The names that lead from the outermost directory to the current one. -/
  path : List Symbol

/-- What is seen of a machine. -/
def view [Storage Store Reference] (machine : Machine Store Reference) : View :=
  ⟨machine.stack.map machine.valueOf, Directory.map machine.valueOf machine.tree, machine.path⟩

/-- What is seen of an operation: what it answers, and the machine after it. -/
structure Event where
  operation : Operation
  answer : Outcome Answer
  view : View

/-- What is seen of a machine while it performs some operations. -/
def trace [Storage Store Reference] :
    List Operation → Machine Store Reference → List Event
  | [], _ => []
  | operation :: operations, machine =>
    let performed := enact operation.perform machine
    ⟨operation, performed.1, view performed.2⟩ :: trace operations performed.2

/-- The machine after some operations. -/
def after [Storage Store Reference] :
    List Operation → Machine Store Reference → Machine Store Reference
  | [], machine => machine
  | operation :: operations, machine => after operations (enact operation.perform machine).2

section Linked

variable [Storage Store Reference] [Storage Other Image]
variable {link : Link Store Reference Other Image} (lawful : link.Lawful)
variable {kept : List Reference} {images : List Image}
variable {machine : Machine Store Reference} {other : Machine Other Image}
include lawful

/-- Every operation does the same on linked machines. -/
theorem simulates_operation (operation : Operation) :
    link.Simulates operation.perform operation.perform := by
  have quiet {action : ActionOn Store Reference Unit} {mirror : ActionOn Other Image Unit}
      (alike : link.Simulates action mirror) : link.Simulates
        (do action; return Answer.done) (do mirror; return Answer.done) :=
    alike.bind fun _ => Link.simulates_pure _
  have telling {Item : Type} {action : ActionOn Store Reference Item}
      {mirror : ActionOn Other Image Item} (tell : Item → Answer)
      (alike : link.Simulates action mirror) : link.Simulates
        (do return tell (← action)) (do return tell (← mirror)) :=
    alike.bind fun _ => Link.simulates_pure _
  cases operation with
  | push value => exact quiet (Link.simulates_push lawful value)
  | pop => exact telling .value (Link.simulates_pop lawful)
  | level number => exact telling .value (Link.simulates_level lawful number)
  | arguments count => exact telling .values (Link.simulates_arguments lawful count)
  | pick number => exact quiet (Link.simulates_pick number)
  | duplicate => exact quiet (Link.simulates_pick 1)
  | duplicate2 => exact quiet Link.simulates_duplicate2
  | copySecond => exact quiet (Link.simulates_pick 2)
  | swap => exact quiet Link.simulates_swap
  | rotate => exact quiet Link.simulates_rotate
  | drop count => exact quiet (Link.simulates_drop count)
  | clear => exact quiet Link.simulates_clear
  | store name value => exact quiet (Link.simulates_store lawful name value)
  | fetch name => exact telling .variable (Link.simulates_fetch? lawful name)
  | purge name => exact quiet (Link.simulates_purge name)
  | createDirectory name => exact quiet (Link.simulates_createDirectory name)
  | enter name => exact telling .entered (Link.simulates_enter name)
  | upDirectory => exact quiet Link.simulates_upDirectory
  | home => exact quiet Link.simulates_home
  | collect =>
    simp only [Operation.perform, discard, Functor.discard, map_const, Function.comp_apply,
      map_eq_pure_bind, bind_assoc]
    refine (Link.relates_collect lawful).bind (fun _ _ gone => gone) ?_
    intro kept images machine other first second linked _
    exact .done linked rfl
  | command given => exact quiet (Link.simulates_command lawful given)
  | run line => exact quiet (Link.simulates_run lawful line)

/-- A storage that is lost stays lost. -/
theorem lost_after (operations : List Operation) (gone : link.Lost machine.storage) :
    link.Lost (after operations machine).storage := by
  induction operations generalizing machine with
  | nil => exact gone
  | cons operation operations inductionHypothesis =>
    exact inductionHypothesis ((simulates_operation lawful operation).lost machine gone)

/-- Linked machines look alike. -/
theorem view_linked (linked : link.Linked kept images machine other) :
    view other = view machine := by
  have values : ∀ reference ∈ machine.roots,
      (other.valueOf ∘ link.image machine.storage) reference = machine.valueOf reference :=
    fun reference root => lawful.valueOf linked (linked.valid reference root)
  unfold view
  rw [linked.stack, linked.tree, linked.path, List.map_map, Directory.map_map]
  rw [List.map_congr_left fun reference level => values reference
    (mem_roots.mpr (.inl level))]
  rw [Directory.map_congr machine.tree fun reference held => values reference
    (mem_roots.mpr (.inr (.inr held)))]

/-- An operation that loses nothing, and does not fail for want of memory where the link reports,
answers the same on linked machines and leaves them linked. -/
theorem step_linked (operation : Operation) (linked : link.Linked kept images machine other)
    (safe : ¬ link.Lost (enact operation.perform machine).2.storage)
    (untold : link.Reports → (enact operation.perform machine).1 ≠ .error .outOfMemory) :
    (enact operation.perform machine).1 = (enact operation.perform other).1 ∧
      link.Linked kept images (enact operation.perform machine).2
        (enact operation.perform other).2 := by
  have agreed := (simulates_operation lawful operation).agreed linked
  generalize enact operation.perform machine = first at agreed safe untold ⊢
  generalize enact operation.perform other = second at agreed ⊢
  cases agreed with
  | lost gone => exact absurd gone safe
  | refused reports => exact absurd rfl (untold reports)
  | done linked same => exact ⟨congrArg Except.ok same, linked⟩
  | failed linked => exact ⟨rfl, linked⟩

/-- While nothing is lost, and no operation fails for want of memory where the link reports,
linked machines show the same and stay linked. -/
theorem trace_linked (operations : List Operation)
    (linked : link.Linked kept images machine other)
    (safe : ¬ link.Lost (after operations machine).storage)
    (untold : link.Reports →
      ∀ event ∈ trace operations machine, event.answer ≠ .error .outOfMemory) :
    trace operations machine = trace operations other ∧
      link.Linked kept images (after operations machine) (after operations other) := by
  induction operations generalizing machine other with
  | nil => exact ⟨rfl, linked⟩
  | cons operation operations inductionHypothesis =>
    rw [after] at safe
    rw [trace] at untold
    obtain ⟨answers, next⟩ := step_linked lawful operation linked
      (fun gone => safe (lost_after lawful operations gone))
      fun reports => untold reports _ List.mem_cons_self
    obtain ⟨traces, last⟩ := inductionHypothesis next safe fun reports event among =>
      untold reports event (List.mem_cons_of_mem _ among)
    rw [trace, trace, traces, answers, view_linked lawful next]
    exact ⟨rfl, last⟩

end Linked

end Calculator.Session
