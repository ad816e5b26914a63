import FragmentCompiler.Proofs.Execution.Soundness
import FragmentCompiler.Proofs.Execution.Stack

/-!
# Typed initializers

What every state of a run does to the slots of its innermost frame and to the variables of
the machine, for the runs that a list of typed initializers makes.
-/

set_option autoImplicit false

namespace FragmentCompiler

open List

/-! ## Safe states -/

namespace Continuation.Takes

variable {setting : Setting} {callers : List Frame} {function : LoweredFunction} {layout : Layout}
  {kind : ValueKind} {todo : List Continuation}

theorem holds {index}
    (takes : Continuation.Takes setting callers function layout kind (.setSlot index :: todo)) :
    layout index = some kind := by
  cases takes with
  | setSlot holds => exact holds

theorem room {slot starts}
    (takes : Continuation.Takes setting callers function layout kind (.start slot starts :: todo)) :
    slot < function.frame := by
  cases takes with
  | start room => exact room

end Continuation.Takes

namespace Run

/-- The next step reads a value of the kind declared for the slot, it leaves the slots alone or
writes one inside the frame, and every global variable holds a value of its kind. -/
structure Safe (Runs : LoweredFunction → Prop) (run : Run) : Prop where
  reads : ∀ index, run.read? = some index → ∃ function kind value, Runs function ∧
    run.current.function = function.name ∧ run.current.slots[index]? = some value ∧
    value.kind = kind ∧ kind ≠ .invalid ∧ ∀ other, function.Declares index other ↔ other = kind
  writes : run.Spares run.step ∨ ∃ index < run.current.slots.size, run.write? = some index
  globals : ∀ entry ∈ run.machine.globals, entry.value.kind = entry.kind

theorem Typed.write_inside {setting index} {run : Run} (typed : run.Typed setting)
    (isWrite : run.write? = some index) : index < run.current.slots.size := by
  obtain ⟨_, ⟨error, isFocus, _⟩ | ⟨function, layout, fits, next⟩⟩ := typed
  · simp [write?, isFocus] at isWrite
  unfold write? at isWrite
  split at isWrite
  · rename_i isFocus isTodo
    cases isWrite
    rw [isFocus, isTodo] at next
    exact fits.inside (Continuation.Takes.holds next)
  · rename_i isFocus isTodo
    cases isWrite
    rw [isFocus, isTodo] at next
    exact Nat.lt_of_lt_of_le (Continuation.Takes.room next) fits.size
  · rename_i isFocus
    rw [isFocus] at next
    obtain ⟨after, can, _⟩ := next
    split at isWrite
    · cases isWrite
      cases can with
      | start _ room => exact Nat.lt_of_lt_of_le room fits.size
    · cases isWrite
  · cases isWrite

theorem Typed.safe {setting} {run : Run} (typed : run.Typed setting) :
    run.Safe setting.Runs := by
  have inside : ∀ index, run.write? = some index → index < run.current.slots.size :=
    fun _ => typed.write_inside
  obtain ⟨serves, state⟩ := typed
  refine ⟨fun index isRead => ?_, ?_, serves.meets.values⟩
  · obtain ⟨error, isFocus, _⟩ | ⟨function, layout, fits, next⟩ := state
    · simp [read?, isFocus] at isRead
    unfold read? at isRead
    split at isRead
    · rename_i isFocus
      cases isRead
      rw [isFocus] at next
      obtain ⟨kind, inside, _⟩ := next
      cases inside with
      | slot holds =>
        obtain ⟨declared, value, isValue, isKind⟩ := fits.slots holds
        have typed := setting.typed fits.runs
        refine ⟨function, kind, value, fits.runs, fits.name, isValue, isKind,
          typed.valid declared, fun other => ⟨fun isOther => typed.single isOther declared, ?_⟩⟩
        rintro rfl
        exact declared
    · cases isRead
  · cases isWrite : run.write? with
    | none => exact .inl (spares_step run isWrite)
    | some index => exact .inr ⟨index, inside index isWrite, rfl⟩

end Run

/-- A safe run, or one that ended with every variable as it should be; `Excused` says with
which faults. -/
def Progress.Safe (Runs : LoweredFunction → Prop) (Excused : Fault → Prop) : Progress → Prop
  | .running run => run.Safe Runs
  | .finished _ machine => ∀ entry ∈ machine.globals, entry.value.kind = entry.kind
  | .failed error machine => Excused error.fault ∧
      ∀ entry ∈ machine.globals, entry.value.kind = entry.kind

/-! ## Initializers -/

def LoweredFunction.outside (name : Text) : LoweredFunction :=
  { name, parameters := [], result := .nothing, frame := 0, body := .nothing, span := Span.none }

theorem LoweredFunction.not_declares_outside {slot kind} {name : Text} :
    ¬ (outside name).Declares slot kind := by
  simp [Declares, outside, Instruction.starts]

theorem LoweredFunction.outside_typed (interface : Interface) (name : Text) :
    (outside name).Typed interface where
  single := fun declared => absurd declared not_declares_outside
  valid := fun declared => absurd declared not_declares_outside
  body := ⟨_, .nothing (.nil _)⟩

theorem Frame.fits_outside {name} {setting : Setting} (runs : setting.Runs (.outside name))
    (span : Span) : ({ function := name, span } : Frame).Fits setting (.outside name) .empty where
  runs
  name := rfl
  size := Nat.zero_le _
  slots := by
    intro index kind holds
    cases holds
  result := rfl

namespace Initializer

def Typed (interface : Interface) (initializer : Initializer) : Prop :=
  match initializer.action with
  | .assign id value => ∃ kind, interface.IsVariable id kind ∧ value.Typed interface .empty kind
  | .invoke function => function.parameters = [] ∧ function.Typed interface

def start (initializer : Initializer) (machine : Machine) : Progress :=
  match initializer.action with
  | .invoke function =>
    ({ machine, focus := .value .nothing } : Run).invoke function [] initializer.span []
  | .assign _ value =>
    .running
      { machine
        base := { function := initializer.name, span := initializer.span }
        focus := .evaluate value }

def Runs (initializer : Initializer) (machine : Machine) (function : LoweredFunction) : Prop :=
  machine.function? function.name = some function ∨ initializer.action = .invoke function ∨
    ∃ name, function = .outside name

end Initializer

def Machine.Meets.setting {machine : Machine} {interface : Interface}
    (meets : machine.Meets interface) {initializer : Initializer}
    (typed : initializer.Typed interface) (goal : ValueKind) : Setting where
  interface
  Runs := initializer.Runs machine
  typed := by
    rintro function (found | isOwn | ⟨name, rfl⟩)
    · exact (meets.codes found).2
    · unfold Initializer.Typed at typed
      rw [isOwn] at typed
      exact typed.2
    · exact LoweredFunction.outside_typed interface name
  goal

section Initializers

variable {initializers : List Initializer} {progress : Progress}

variable {machine : Machine} {interface : Interface} {initializer : Initializer}

theorem Machine.Meets.serves (meets : machine.Meets interface) (typed : initializer.Typed interface)
    (goal : ValueKind) : machine.Serves (meets.setting typed goal) where
  meets
  known := by
    intro name function found
    refine .inl ?_
    rw [(meets.codes found).1]
    exact found

theorem Initializer.Typed.start (typed : initializer.Typed interface)
    (meets : machine.Meets interface) (idle : machine.stack = []) : ∃ goal,
      (initializer.start machine).Typed (meets.setting typed goal) ∧
      ∀ id value, initializer.action = .assign id value → interface.IsVariable id goal := by
  have outside : ∀ name, initializer.Runs machine (.outside name) := fun name => .inr (.inr ⟨name, rfl⟩)
  obtain ⟨globals, names, functions, limit, stack, printed⟩ := machine
  obtain rfl : stack = [] := idle
  cases isAction : initializer.action with
  | assign id value =>
    have inside := typed
    unfold Initializer.Typed at inside
    rw [isAction] at inside
    obtain ⟨kind, isVariable, inside⟩ := inside
    refine ⟨kind, ?_, fun other _ same => by cases same; exact isVariable⟩
    unfold Initializer.start
    rw [isAction]
    exact ⟨meets.serves typed kind,
      .inr ⟨_, _, Frame.fits_outside (outside _) _, kind, inside, .finish⟩⟩
  | invoke function =>
    have inside := typed
    unfold Initializer.Typed at inside
    rw [isAction] at inside
    refine ⟨function.result, ?_, fun _ _ same => by cases same⟩
    unfold Initializer.start
    rw [isAction]
    have runs : (meets.setting typed function.result).Runs function := .inr (.inl isAction)
    exact Run.typed_invoke (meets.serves typed _) (Frame.fits_outside (outside []) _) runs
      initializer.span inside.1.symm .finish

theorem Initializer.start_sameShape (initializer : Initializer) (machine : Machine) :
    machine.SameShape (initializer.start machine).machine := by
  unfold Initializer.start
  cases initializer.action with
  | assign => exact .refl _
  | invoke function =>
    exact ({ machine, focus := .value .nothing } : Run).invoke_sameShape function [] initializer.span []

theorem Run.Visits.sameShape {first} (visits : Run.Visits first progress) :
    first.machine.SameShape progress.machine := by
  induction visits with
  | here => exact .refl _
  | @step run _ ih => exact ih.trans (Run.step_sameShape run)

theorem Initializer.Typed.safe (typed : initializer.Typed interface)
    (meets : machine.Meets interface) (idle : machine.stack = [])
    (visits : Run.Visits (initializer.start machine) progress) :
    progress.Safe (initializer.Runs machine) (Fault.Excused interface machine) := by
  obtain ⟨goal, started, _⟩ := typed.start meets idle
  have shape := (initializer.start_sameShape machine).trans visits.sameShape
  have reached := visits.typed started
  cases progress with
  | running run => exact Run.Typed.safe reached
  | finished value after => exact reached.1.meets.values
  | failed error after =>
    exact ⟨reached.2.of_functions shape.functions.symm, reached.1.meets.values⟩

theorem Initializer.Typed.run (typed : initializer.Typed interface)
    (meets : machine.Meets interface) (idle : machine.stack = []) (fuel : Nat) :
    (Generator.runInitializer fuel machine initializer).2.Meets interface ∧
      ∀ error, (Generator.runInitializer fuel machine initializer).1.error = some error →
        error.fault.Excused interface machine := by
  obtain ⟨goal, started, target⟩ := typed.start meets idle
  have ended := Run.typed_finish fuel started
  have shape := (initializer.start_sameShape machine).trans (Run.finish_sameShape fuel _)
  unfold Initializer.start at ended shape
  unfold Generator.runInitializer Machine.invoke Machine.evaluate
  dsimp only
  cases isAction : initializer.action with
  | invoke function =>
    simp only [isAction] at ended shape ⊢
    generalize Run.finish fuel _ = final at ended shape
    obtain ⟨outcome, after⟩ := final
    cases outcome with
    | failed error =>
      refine ⟨ended.1.meets, fun other isOther => ?_⟩
      cases isOther
      exact ended.2.of_functions shape.functions.symm
    | finished | unfinished => exact ⟨ended.1.meets, fun other isOther => by cases isOther⟩
  | assign id value =>
    simp only [isAction] at ended shape ⊢
    have isVariable := target id value isAction
    generalize Run.finish fuel _ = final at ended shape
    obtain ⟨outcome, after⟩ := final
    cases outcome with
    | failed error =>
      refine ⟨ended.1.meets, fun other isOther => ?_⟩
      cases isOther
      exact ended.2.of_functions shape.functions.symm
    | unfinished => exact ⟨ended.1.meets, fun other isOther => by cases isOther⟩
    | finished result =>
      obtain ⟨entry, found, _⟩ := ended.1.meets.places isVariable
      have isKind : result.kind = goal := ended.2
      rw [← isKind] at isVariable
      simp only [found]
      exact ⟨ended.1.meets.assign isVariable, fun other isOther => by cases isOther⟩

/-- The states that running a list of initializers comes to. -/
inductive Generator.Reaches (fuel : Nat) : Machine → List Initializer → Progress → Prop
  | within {machine : Machine} {initializer : Initializer} {rest : List Initializer}
      {progress : Progress} (visits : Run.Visits (initializer.start machine) progress) :
      Reaches fuel machine (initializer :: rest) progress
  | later {machine : Machine} {initializer : Initializer} {rest : List Initializer}
      {progress : Progress}
      (others : Reaches fuel (runInitializer fuel machine initializer).2 rest progress) :
      Reaches fuel machine (initializer :: rest) progress

def Generator.Runs (machine : Machine) (initializers : List Initializer)
    (function : LoweredFunction) : Prop :=
  machine.function? function.name = some function ∨
    (∃ initializer ∈ initializers, initializer.action = .invoke function) ∨
    ∃ name, function = .outside name

theorem Initializer.Runs.generator {function} (runs : initializer.Runs machine function)
    (member : initializer ∈ initializers) : Generator.Runs machine initializers function := by
  rcases runs with found | isOwn | isOutside
  · exact .inl found
  · exact .inr (.inl ⟨initializer, member, isOwn⟩)
  · exact .inr (.inr isOutside)

theorem Progress.Safe.values {Runs Excused} (safe : progress.Safe Runs Excused) :
    ∀ entry ∈ progress.machine.globals, entry.value.kind = entry.kind := by
  cases progress with
  | running run => exact safe.globals
  | finished value after => exact safe
  | failed error after => exact safe.2

theorem Progress.Safe.imp {Runs Excused Others Allowed} (safe : progress.Safe Runs Excused)
    (runs : ∀ function, Runs function → Others function)
    (excused : ∀ fault, Excused fault → Allowed fault) : progress.Safe Others Allowed := by
  cases progress with
  | running run =>
    refine ⟨fun index isRead => ?_, safe.writes, safe.globals⟩
    obtain ⟨function, kind, value, isRun, rest⟩ := safe.reads index isRead
    exact ⟨function, kind, value, runs function isRun, rest⟩
  | finished value after => exact safe
  | failed error after => exact ⟨excused _ safe.1, safe.2⟩

theorem Generator.Reaches.sameShape {fuel}
    (reaches : Generator.Reaches fuel machine initializers progress) :
    machine.SameShape progress.machine := by
  induction reaches with
  | @within machine initializer _ _ visits =>
    exact (initializer.start_sameShape machine).trans visits.sameShape
  | @later machine initializer _ _ _ ih =>
    exact (Generator.runInitializer_sameShape fuel machine initializer).trans ih

theorem Generator.Reaches.safe {fuel}
    (reaches : Generator.Reaches fuel machine initializers progress)
    (meets : machine.Meets interface) (idle : machine.stack = [])
    (typed : ∀ initializer ∈ initializers, initializer.Typed interface) :
    progress.Safe (Generator.Runs machine initializers) (Fault.Excused interface machine) := by
  induction reaches with
  | within visits =>
    have safe := (typed _ mem_cons_self).safe meets idle visits
    exact safe.imp (fun _ runs => runs.generator mem_cons_self) fun _ excused => excused
  | @later machine initializer rest progress _ ih =>
    have shape := Generator.runInitializer_sameShape fuel machine initializer
    have next := ((typed _ mem_cons_self).run meets idle fuel).1
    refine (ih next (machine.runInitializer_idle idle fuel initializer)
      fun other member => typed other (mem_cons_of_mem _ member)).imp ?_ ?_
    · rintro function (found | ⟨other, member, isOwn⟩ | isOutside)
      · refine .inl ?_
        unfold Machine.function? at found ⊢
        rw [shape.functions] at found
        exact found
      · exact .inr (.inl ⟨other, mem_cons_of_mem _ member, isOwn⟩)
      · exact .inr (.inr isOutside)
    · exact fun fault excused => excused.of_functions shape.functions.symm

theorem Generator.runAll_typed (fuel : Nat) (initializers : List Initializer) :
    ∀ {machine : Machine}, machine.Meets interface → machine.stack = [] →
      (∀ initializer ∈ initializers, initializer.Typed interface) →
      (runAll fuel machine initializers).2.Meets interface ∧
        (runAll fuel machine initializers).2.stack = [] ∧
        ∀ result ∈ (runAll fuel machine initializers).1, ∀ error, result.error = some error →
          error.fault.Excused interface machine := by
  induction initializers with
  | nil => exact fun meets idle _ => ⟨meets, idle, by simp [runAll]⟩
  | cons initializer rest ih =>
    intro machine meets idle typed
    have shape := runInitializer_sameShape fuel machine initializer
    obtain ⟨next, failed⟩ := (typed _ mem_cons_self).run meets idle fuel
    obtain ⟨last, lastIdle, others⟩ := ih next (machine.runInitializer_idle idle fuel initializer)
      fun other member => typed other (mem_cons_of_mem _ member)
    exact ⟨last, lastIdle, forall_mem_cons.mpr ⟨failed, fun result inRest error isError =>
      (others result inRest error isError).of_functions shape.functions.symm⟩⟩

end Initializers

end FragmentCompiler
