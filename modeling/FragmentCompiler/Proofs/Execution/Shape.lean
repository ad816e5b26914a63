import FragmentCompiler.Lowering.Generator
import FragmentCompiler.Proofs.Execution.Moves

/-!
# What running code cannot change

Running code assigns global variables and prints.  Which variables and functions there
are stays the same.
-/

set_option autoImplicit false

namespace FragmentCompiler

def Global.head (entry : Global) : DeclId × Text × ValueKind := (entry.id, entry.name, entry.kind)

/-- Two machines with the same variables and functions. -/
structure Machine.SameShape (before after : Machine) : Prop where
  globals : after.globals.map Global.head = before.globals.map Global.head
  names : after.names = before.names
  functions : after.functions = before.functions

namespace Machine

theorem SameShape.refl (machine : Machine) : machine.SameShape machine := ⟨rfl, rfl, rfl⟩

theorem SameShape.trans {first second third : Machine} (left : first.SameShape second)
    (right : second.SameShape third) : first.SameShape third :=
  ⟨right.globals.trans left.globals, right.names.trans left.names,
    right.functions.trans left.functions⟩

theorem print_sameShape (machine : Machine) (text : Text) :
    machine.SameShape (machine.print text) := ⟨rfl, rfl, rfl⟩

theorem stack_sameShape (machine : Machine) (stack : List Frame) :
    machine.SameShape { machine with stack } := ⟨rfl, rfl, rfl⟩

theorem assign_sameShape (machine : Machine) (id : DeclId) (value : Value) :
    machine.SameShape (machine.assign id value) := by
  refine ⟨?_, rfl, rfl⟩
  show (machine.globals.map _).map Global.head = _
  rw [List.map_map]
  refine List.map_congr_left fun entry _ => ?_
  simp only [Function.comp_apply]
  split <;> rfl

theorem SameShape.global? {before after : Machine} (same : before.SameShape after) (id : DeclId) :
    (after.global? id).map Global.head = (before.global? id).map Global.head := by
  have found : ∀ globals : List Global, (globals.find? fun entry => entry.id == id).map Global.head =
      (globals.map Global.head).find? fun head => head.1 == id := by
    intro globals
    rw [List.find?_map]
    rfl
  unfold Machine.global?
  rw [found, found, same.globals]

end Machine

def Progress.machine : Progress → Machine
  | .running run => run.machine
  | .finished _ machine => machine
  | .failed _ machine => machine

theorem Machine.Touched.sameShape {before after : Machine} (touched : before.Touched after) :
    before.SameShape after := by
  cases touched with
  | kept => exact .refl before
  | printed text => exact before.print_sameShape text
  | assigned id value => exact before.assign_sameShape id value

namespace Run

section

variable (run : Run)

theorem update_sameShape (change : Frame → Frame) :
    run.machine.SameShape (run.update change).machine := by
  rw [machine_update]
  exact run.machine.stack_sameShape _

theorem invoke_sameShape (function : LoweredFunction) (arguments : List Value) (span : Span)
    (todo : List Continuation) :
    run.machine.SameShape (run.invoke function arguments span todo).machine := by
  unfold invoke
  split
  · exact .refl _
  · exact run.machine.stack_sameShape _

theorem call_sameShape (name : Text) (arguments : List Value) (span : Span)
    (todo : List Continuation) :
    run.machine.SameShape (run.call name arguments span todo).machine := by
  unfold call
  split
  · exact .refl _
  · split
    · exact run.invoke_sameShape _ _ _ _
    · exact .refl _

theorem step_sameShape : run.machine.SameShape run.step.machine := by
  have moves := run.moves_step
  generalize run.step = progress at moves
  cases moves with
  | go touched => exact touched.sameShape
  | update => exact run.update_sameShape _
  | enter span => exact (run.update_sameShape _).trans ((run.reach span).machine.stack_sameShape _)
  | leave => exact run.machine.stack_sameShape _
  | finish => exact .refl _
  | fail raises =>
    obtain rfl | rfl := raises
    · exact .refl _
    · exact run.update_sameShape _
  | unwind =>
    unfold unwind
    split
    · exact .refl _
    · exact run.machine.stack_sameShape _
    · exact .refl _

end

theorem finish_sameShape (fuel : Nat) :
    ∀ progress : Progress, progress.machine.SameShape (finish fuel progress).2 := by
  induction fuel with
  | zero =>
    intro progress
    cases progress with
    | running run => exact run.machine.stack_sameShape []
    | finished | failed => exact .refl _
  | succ fuel ih =>
    intro progress
    cases progress with
    | running run => exact (step_sameShape run).trans (ih run.step)
    | finished value machine => exact .refl _
    | failed error machine => exact .refl _

end Run

namespace Machine

theorem evaluate_sameShape (machine : Machine) (fuel : Nat) (frame : Frame) (code : Computation) :
    machine.SameShape (machine.evaluate fuel frame code).2 :=
  Run.finish_sameShape fuel (.running { machine, base := frame, focus := .evaluate code })

theorem invoke_sameShape (machine : Machine) (fuel : Nat) (function : LoweredFunction)
    (arguments : List Value) (span : Span) :
    machine.SameShape (machine.invoke fuel function arguments span).2 :=
  (({ machine, focus := .value .nothing } : Run).invoke_sameShape function arguments span []).trans
    (Run.finish_sameShape fuel _)

theorem call_sameShape (machine : Machine) (fuel : Nat) (name : Text) (arguments : List Value)
    (span : Span) : machine.SameShape (machine.call fuel name arguments span).2 :=
  (({ machine, focus := .value .nothing } : Run).call_sameShape name arguments span []).trans
    (Run.finish_sameShape fuel _)

end Machine

namespace Generator

theorem runInitializer_sameShape (fuel : Nat) (machine : Machine) (initializer : Initializer) :
    machine.SameShape (runInitializer fuel machine initializer).2 := by
  unfold runInitializer
  dsimp only
  split
  · rename_i function _
    have runs := machine.invoke_sameShape fuel function [] initializer.span
    split <;> simp_all
  · rename_i id value _
    have runs := machine.evaluate_sameShape fuel
      { function := initializer.name, span := initializer.span } value
    split
    · simp_all
    · simp_all
    · rename_i machine' isRun
      rw [isRun] at runs
      split
      · exact runs.trans (machine'.assign_sameShape _ _)
      · exact runs

theorem runAll_sameShape (fuel : Nat) (initializers : List Initializer) :
    ∀ machine : Machine, machine.SameShape (runAll fuel machine initializers).2 := by
  induction initializers with
  | nil => exact fun machine => .refl machine
  | cons initializer rest ih =>
    exact fun machine => (runInitializer_sameShape fuel machine initializer).trans (ih _)

end Generator

end FragmentCompiler
