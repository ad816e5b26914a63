import FragmentCompiler.Proofs.Execution.Shape

/-!
# The stack of calls

A call, a wrapper or an initializer begins on some stack of frames.  Until it is over, the
frames above that stack are those of the calls still to be left, one for each, and a fault on
its way out takes them down again.
-/

set_option autoImplicit false

namespace FragmentCompiler

open Continuation List

def Frame.activation (frame : Frame) : Activation := ⟨frame.function, frame.span⟩

/-- The frames below those of the calls that remain to be left. -/
def Continuation.beneath : List Continuation → List Frame → List Frame
  | [], stack => stack
  | .leave :: todo, stack => beneath todo stack.tail
  | _ :: todo, stack => beneath todo stack

namespace Continuation.Leads

variable {outer todo : List Continuation} {stack frames : List Frame}

theorem beneath {isValue} (leads : Leads outer stack isValue todo frames) :
    ∃ inner, todo = inner ++ outer ∧ beneath inner frames = stack := by
  induction leads with
  | outside empty => exact ⟨[], rfl, empty.symm⟩
  | last => exact ⟨[.leave], rfl, rfl⟩
  | leave _ _ ih =>
    obtain ⟨inner, rfl, isStack⟩ := ih
    exact ⟨.leave :: inner, rfl, isStack⟩
  | @next _ _ _ _ next signed _ ih =>
    obtain ⟨inner, rfl, isStack⟩ := ih
    refine ⟨next :: inner, rfl, ?_⟩
    cases next with
    | leave => cases signed
    | _ => exact isStack

/-- Only frames above the stack are ever innermost. -/
theorem change {isValue frame} (leads : Leads outer stack isValue todo (frame :: frames))
    (changed : Frame) : Leads outer stack isValue todo (changed :: frames) := by
  generalize isFrames : frame :: frames = all at leads
  induction leads with
  | outside => cases isFrames
  | last => cases isFrames; exact .last changed
  | leave _ others => cases isFrames; exact .leave changed others
  | next signed _ ih => exact .next signed (ih isFrames)

end Continuation.Leads

namespace Run

/-- How a call, a wrapper or an initializer begins, with `outer` left to be done after it. -/
inductive Begins (run : Run) (outer : List Continuation) : Progress → Prop
  | call (name : Text) (arguments : List Value) (span : Span) :
      Begins run outer (run.call name arguments span outer)
  | invoke (function : LoweredFunction) (arguments : List Value) (span : Span) :
      Begins run outer (run.invoke function arguments span outer)
  | evaluate (code : Computation) (outside : run.stack = []) :
      Begins run outer (run.go (.evaluate code) outer)

/-- The states it goes through until it is over. -/
inductive Until (outer : List Continuation) (start : Progress) : Run → Prop
  | here {run : Run} (isStart : start = .running run) : Until outer start run
  | step {run later : Run} (before : Until outer start run) (inside : ¬ run.Over outer)
      (isLater : run.step = .running later) : Until outer start later

/-- The state in which a fault comes up: none is on its way out before. -/
inductive Raises (outer : List Continuation) (start : Progress) (error : RunError) : Run → Prop
  | atOnce {raiser : Run} (isStart : start = .running raiser)
      (isFocus : raiser.focus = .raised error) : Raises outer start error raiser
  | later {run raiser : Run} (before : Until outer start run) (inside : ¬ run.Over outer)
      (quiet : run.focus.raised? = none) (isRaiser : run.step = .running raiser)
      (isFocus : raiser.focus = .raised error) : Raises outer start error raiser

/-- A fault lists the frames of a state, and one of a call too deep lists as many as the limit. -/
structure Lists (bound : Nat) (error : RunError) (run : Run) : Prop where
  frames : error.backtrace = run.stack.map Frame.activation
  full : ∀ limit name, error.fault = .tooDeep limit name → error.backtrace.length = bound

/-- Inside a call, with no more frames than there may be, or on the way out of it. -/
structure Keeps (outer : List Continuation) (stack : List Frame) (bound : Nat) (run : Run) :
    Prop where
  limit : run.machine.depthLimit = bound
  depth : run.stack.length ≤ bound
  leads : Leads outer stack run.focus.isValue run.todo run.stack ∨
    ((∃ error, run.focus = .raised error) ∨ run.Over outer) ∧
      ∃ inner, run.todo = inner ++ outer ∧ Continuation.beneath inner run.stack = stack

variable {run later : Run} {outer todo : List Continuation} {stack : List Frame} {start : Progress}
  {error : RunError}

theorem leads_update {isValue} (leads : Leads outer stack isValue todo run.stack)
    (change : Frame → Frame) : Leads outer stack isValue todo (run.update change).stack := by
  unfold update
  split
  · exact leads
  · rename_i isStack
    rw [isStack] at leads
    exact leads.change _

namespace Keeps

variable {bound : Nat} (keeps : run.Keeps outer stack bound)

include keeps

theorem beneath : ∃ inner, run.todo = inner ++ outer ∧
    Continuation.beneath inner run.stack = stack := by
  obtain leads | ⟨_, inside⟩ := keeps.leads
  · exact leads.beneath
  · exact inside

theorem stack_eq (isOver : run.Over outer) : run.stack = stack := by
  obtain ⟨inner, isTodo, isStack⟩ := keeps.beneath
  obtain rfl : inner = [] := self_eq_append_left.mp (isOver.1.symm.trans isTodo)
  exact isStack

theorem unwind (isFocus : run.focus = .raised error) (inside : ¬ run.Over outer) :
    ∃ later, run.step = .running later ∧ later.focus = .raised error ∧
      later.Keeps outer stack bound := by
  have isStep : run.step = run.unwind error run.todo := by
    unfold step
    rw [isFocus]
  obtain ⟨inner, isTodo, isStack⟩ := keeps.beneath
  have depth := keeps.depth
  rw [isStep, isTodo]
  cases inner with
  | nil => exact absurd ⟨isTodo, by rw [isFocus]; rfl⟩ inside
  | cons next inner =>
    cases next with
    | leave =>
      exact ⟨_, rfl, rfl, keeps.limit, by simp [Machine.pop] at depth ⊢; omega,
        .inr ⟨.inl ⟨_, rfl⟩, inner, rfl, isStack⟩⟩
    | _ => exact ⟨_, rfl, rfl, keeps.limit, depth, .inr ⟨.inl ⟨_, rfl⟩, inner, rfl, isStack⟩⟩

/-- Until a call is over it goes on. -/
theorem step (inside : ¬ run.Over outer) :
    ∃ later, run.step = .running later ∧ later.Keeps outer stack bound := by
  by_cases raised : ∃ error, run.focus = .raised error
  · obtain ⟨error, isFocus⟩ := raised
    obtain ⟨later, isLater, _, keeps⟩ := keeps.unwind isFocus inside
    exact ⟨later, isLater, keeps⟩
  obtain ⟨limit, depth, leads⟩ := keeps
  replace leads := leads.resolve_right fun out => out.1.elim raised inside
  have moves := run.moves_step
  generalize run.step = progress at moves
  cases moves with
  | go touched turns =>
    obtain ⟨sameLimit, sameStack⟩ := touched.calls
    have goesOn := turns _ _ _ inside leads
    unfold Run.stack at depth goesOn
    rw [← sameStack] at depth goesOn
    exact ⟨_, rfl, sameLimit.trans limit, depth, .inl goesOn⟩
  | @update change _ _ _ turns =>
    exact ⟨_, rfl, by simpa using limit, by simpa using depth,
      .inl (leads_update (turns _ _ _ inside leads) change)⟩
  | enter span frame body room turns =>
    refine ⟨_, rfl, by simpa [reach, Machine.push] using limit, ?_,
      .inl (.leave frame (leads_update (turns _ _ _ inside leads) _))⟩
    rw [limit] at room
    simpa [reach, Machine.push] using Nat.succ_le_of_lt room
  | @leave todo value isEnded isTodo =>
    rw [isEnded, isTodo] at leads
    refine ⟨_, rfl, limit, by simp [Machine.pop] at depth ⊢; omega, ?_⟩
    show Leads outer stack true todo run.machine.stack.tail ∨ _
    generalize isFrames : run.stack = frames at leads
    cases leads with
    | last => exact .inr ⟨.inr ⟨rfl, rfl⟩, [], rfl, congrArg tail isFrames⟩
    | leave _ others => exact .inl (congrArg tail isFrames ▸ others)
    | next signed => cases signed
  | finish value isFocus isTodo =>
    rw [isTodo] at leads
    generalize run.stack = frames at leads
    generalize isHanded : run.focus.isValue = isValue at leads
    cases leads with
    | outside =>
      obtain isFocus | isEnded := isFocus
      · exact absurd ⟨isTodo, by rw [isFocus]; rfl⟩ inside
      · cases isHanded.symm.trans isEnded
  | fail raises _ turns =>
    have out := (turns _ _ _ inside leads).beneath
    obtain rfl | rfl := raises
    · exact ⟨_, rfl, limit, depth, .inr ⟨.inl ⟨_, rfl⟩, out⟩⟩
    · exact ⟨_, rfl, by simpa [reach] using limit, by simpa [reach] using depth,
        .inr ⟨.inl ⟨_, rfl⟩, (leads_update (turns _ _ _ inside leads) _).beneath⟩⟩
  | unwind isFocus => exact absurd ⟨_, isFocus⟩ raised

end Keeps

/-! ## Faults -/

theorem lists_fail {bound fault} {span : Span} (fits : run.stack.length ≤ bound)
    (full : ∀ limit name, fault = .tooDeep limit name → bound ≤ run.stack.length)
    (isLater : run.fail span fault todo = .running later) (isFocus : later.focus = .raised error) :
    later.Lists bound error := by
  cases isLater
  cases isFocus
  refine ⟨rfl, fun limit name isFault => ?_⟩
  rw [length_map]
  exact Nat.le_antisymm fits (full limit name isFault)

theorem lists_step (quiet : run.focus.raised? = none)
    (fits : run.stack.length ≤ run.machine.depthLimit) (isLater : run.step = .running later)
    (isFocus : later.focus = .raised error) : later.Lists run.machine.depthLimit error := by
  have moves := run.moves_step
  rw [isLater] at moves
  generalize isProgress : Progress.running later = progress at moves
  cases moves with
  | go _ _ quiet | update _ _ quiet =>
    cases isProgress
    cases isFocus
    cases quiet
  | enter | leave =>
    cases isProgress
    cases isFocus
  | finish => cases isProgress
  | @fail _ _ raiser span _ raises full turns =>
    have sameDepth : raiser.stack.length = run.stack.length := by
      obtain rfl | rfl := raises <;> simp [reach]
    rw [← sameDepth] at fits full
    exact lists_fail fits full isProgress.symm isFocus
  | unwind isRaised => rw [isRaised] at quiet; cases quiet

/-! ## Whole calls -/

section

variable (begins : run.Begins outer start) (fits : run.stack.length ≤ run.machine.depthLimit)

include begins fits

theorem Begins.first :
    ∃ later, start = .running later ∧ later.Keeps outer run.stack run.machine.depthLimit ∧
      ∀ error, later.focus = .raised error → later.Lists run.machine.depthLimit error := by
  have fails : ∀ {span fault},
      (∀ limit name, fault = .tooDeep limit name → run.machine.depthLimit ≤ run.stack.length) →
      ∃ later, run.fail span fault outer = .running later ∧
        later.Keeps outer run.stack run.machine.depthLimit ∧
        ∀ error, later.focus = .raised error → later.Lists run.machine.depthLimit error := fun full =>
    ⟨_, rfl, ⟨rfl, fits, .inr ⟨.inl ⟨_, rfl⟩, [], rfl, rfl⟩⟩, fun _ => lists_fail fits full rfl⟩
  have invoked : ∀ {function arguments span},
      ∃ later, run.invoke function arguments span outer = .running later ∧
        later.Keeps outer run.stack run.machine.depthLimit ∧
        ∀ error, later.focus = .raised error → later.Lists run.machine.depthLimit error := by
    intro function arguments span
    unfold Run.invoke
    split
    · exact fails fun _ _ _ => ‹_›
    · exact ⟨_, rfl, ⟨rfl, Nat.lt_of_not_le ‹_›, .inl (.last _)⟩, fun _ isFocus => by cases isFocus⟩
  cases begins with
  | invoke => exact invoked
  | call =>
    unfold Run.call
    split
    · exact fails nofun
    · split
      · exact invoked
      · exact fails nofun
  | evaluate code outside =>
    refine ⟨_, rfl, ⟨rfl, fits, .inl ?_⟩, fun _ isFocus => by cases isFocus⟩
    show Leads outer run.stack true outer run.stack
    rw [outside]
    exact .outside rfl

theorem Until.keeps (reaches : Until outer start later) :
    later.Keeps outer run.stack run.machine.depthLimit := by
  induction reaches with
  | here isStart =>
    obtain ⟨first, isFirst, keeps, _⟩ := begins.first fits
    cases isStart.symm.trans isFirst
    exact keeps
  | step _ inside isLater ih =>
    obtain ⟨next, isNext, keeps⟩ := ih.step inside
    cases isLater.symm.trans isNext
    exact keeps

/-- A fault on its way out is the one that came up. -/
theorem Until.raised (reaches : Until outer start later) (isFocus : later.focus = .raised error) :
    ∃ raiser, Raises outer start error raiser ∧ raiser.Lists run.machine.depthLimit error := by
  induction reaches with
  | here isStart =>
    obtain ⟨first, isFirst, _, lists⟩ := begins.first fits
    cases isStart.symm.trans isFirst
    exact ⟨_, .atOnce isStart isFocus, lists error isFocus⟩
  | @step earlier later before inside isLater ih =>
    have keeps := before.keeps begins fits
    cases isBefore : earlier.focus.raised? with
    | none =>
      have lists := lists_step isBefore (keeps.limit ▸ keeps.depth) isLater isFocus
      rw [keeps.limit] at lists
      exact ⟨_, .later before inside isBefore isLater isFocus, lists⟩
    | some other =>
      have isRaised : earlier.focus = .raised other := by
        unfold Focus.raised? at isBefore
        split at isBefore <;> cases isBefore
        exact Focus.eq_raised ‹_›
      obtain ⟨next, isNext, sameFault, _⟩ := keeps.unwind isRaised inside
      cases isLater.symm.trans isNext
      cases isFocus.symm.trans sameFault
      exact ih isRaised

theorem Until.finish (fuel : Nat) : ∀ {later}, Until outer start later →
    (finish fuel (.running later)).1 ≠ .unfinished →
    ∃ last, Until outer start last ∧ last.Over outer ∧
      (outer = [] → last.focus.outcome? = some (finish fuel (.running later)).1 ∧
        (finish fuel (.running later)).2 = last.machine) := by
  induction fuel with
  | zero => exact fun _ ends => absurd rfl ends
  | succ fuel ih =>
    intro later reaches ends
    by_cases isOver : later.Over outer
    · refine ⟨later, reaches, isOver, ?_⟩
      rintro rfl
      obtain ⟨isTodo, ended⟩ := isOver
      unfold Run.finish Run.step
      rw [isTodo]
      cases isFocus : later.focus with
      | value result => cases fuel <;> exact ⟨rfl, rfl⟩
      | raised error => cases fuel <;> exact ⟨rfl, rfl⟩
      | _ => rw [isFocus] at ended; cases ended
    · obtain ⟨next, isNext, _⟩ := (reaches.keeps begins fits).step isOver
      unfold Run.finish at ends ⊢
      rw [isNext] at ends ⊢
      exact ih (.step reaches isOver isNext) ends

end

theorem stack_unfinished (fuel : Nat) : ∀ progress : Progress,
    (finish fuel progress).1 = .unfinished → (finish fuel progress).2.stack = [] := by
  induction fuel with
  | zero =>
    intro progress isOutcome
    cases progress with
    | running => rfl
    | finished | failed => cases isOutcome
  | succ fuel ih =>
    intro progress isOutcome
    cases progress with
    | running run => exact ih run.step isOutcome
    | finished | failed => cases isOutcome

/-- Whatever is run from outside all calls leaves none behind. -/
theorem Begins.idle (begins : run.Begins [] start) (idle : run.stack = []) (fuel : Nat) :
    (Run.finish fuel start).2.stack = [] := by
  have fits : run.stack.length ≤ run.machine.depthLimit := by simp [idle]
  obtain ⟨first, rfl, _⟩ := begins.first fits
  by_cases ends : (Run.finish fuel (.running first)).1 = .unfinished
  · exact stack_unfinished fuel _ ends
  · obtain ⟨last, reaches, isOver, whole⟩ := Until.finish begins fits fuel (.here rfl) ends
    rw [(whole rfl).2]
    exact ((reaches.keeps begins fits).stack_eq isOver).trans idle

/-- A call, a wrapper or an initializer leaves the stack it began on, whatever code it runs, with a
value as with a fault, and one that ends is over at some state.  There are never more frames than
the limit; a fault lists the frames there are when it comes up, innermost first, and a call too
deep lists as many as the limit.  Where nothing is left to be done after it, the machine has the
same stack again. -/
theorem stack_disciplined (run : Run) (fits : run.stack.length ≤ run.machine.depthLimit)
    (begins : run.Begins outer start) :
    (∀ later, Until outer start later →
      later.stack.length ≤ run.machine.depthLimit ∧
      (later.Over outer → later.stack = run.stack) ∧
      ∀ error, later.focus = .raised error →
        ∃ raiser, Raises outer start error raiser ∧
          error.backtrace = raiser.stack.map Frame.activation ∧
          ∀ limit name, error.fault = .tooDeep limit name →
            error.backtrace.length = run.machine.depthLimit) ∧
    ∀ fuel, (finish fuel start).1 ≠ .unfinished →
      ∃ last, Until outer start last ∧ last.Over outer ∧
        (outer = [] → last.focus.outcome? = some (finish fuel start).1 ∧
          (finish fuel start).2.stack = run.stack) := by
  refine ⟨fun later reaches => ?_, fun fuel ends => ?_⟩
  · have keeps := reaches.keeps begins fits
    refine ⟨keeps.depth, keeps.stack_eq, fun error isFocus => ?_⟩
    obtain ⟨raiser, raises, lists⟩ := reaches.raised begins fits isFocus
    exact ⟨raiser, raises, lists.frames, lists.full⟩
  · obtain ⟨first, rfl, _⟩ := begins.first fits
    obtain ⟨last, reaches, isOver, whole⟩ := Until.finish begins fits fuel (.here rfl) ends
    refine ⟨last, reaches, isOver, fun isOuter => ?_⟩
    obtain ⟨isOutcome, isMachine⟩ := whole isOuter
    exact ⟨isOutcome, isMachine ▸ (reaches.keeps begins fits).stack_eq isOver⟩

/-- A function that calls itself, where three frames are allowed and one is there already. -/
theorem stack_disciplined_overflow :
    let body : Instruction := .returnValue .none (.call .none (.function "f") [])
    let code : LoweredFunction := ⟨"f", [], .int, 0, body, .none⟩
    let machine : Machine :=
      { functions := [("f", code)], depthLimit := 3, stack := [{ function := "g" }] }
    ∃ error, (machine.call 40 "f" [] .none).1 = .failed error ∧ error.backtrace.length = 3 ∧
      (machine.call 40 "f" [] .none).2.stack = machine.stack := by
  intro body code machine
  obtain ⟨error, isFailed, isFault⟩ : ∃ error, (machine.call 40 "f" [] .none).1 = .failed error ∧
      error.fault = .tooDeep 3 "f" := ⟨_, rfl, rfl⟩
  let idle : Run := { machine, focus := .value .nothing }
  obtain ⟨each, whole⟩ := stack_disciplined idle (by decide) (.call "f" [] .none)
  obtain ⟨last, reaches, _, ends⟩ := whole 40 fun unfinished => nomatch isFailed.symm.trans unfinished
  obtain ⟨isOutcome, isStack⟩ := ends rfl
  obtain ⟨_, _, lists⟩ := (each last reaches).2.2 error
    (Focus.eq_raised (isOutcome.trans (congrArg some isFailed)))
  exact ⟨error, isFailed, lists.2 3 "f" isFault, isStack⟩

end Run

namespace Machine

variable {machine : Machine} (idle : machine.stack = []) (fuel : Nat)

include idle

theorem invoke_idle (function : LoweredFunction) (arguments : List Value) (span : Span) :
    (machine.invoke fuel function arguments span).2.stack = [] :=
  Run.Begins.idle (.invoke function arguments span) idle fuel

theorem evaluate_idle (frame : Frame) (code : Computation) :
    (machine.evaluate fuel frame code).2.stack = [] :=
  have begins : Run.Begins { machine, base := frame, focus := .value .nothing } [] _ :=
    .evaluate code idle
  begins.idle idle fuel

theorem runInitializer_idle (initializer : Initializer) :
    (Generator.runInitializer fuel machine initializer).2.stack = [] := by
  unfold Generator.runInitializer
  dsimp only
  split
  · have ends := invoke_idle idle fuel
    split <;> grind
  · have ends := evaluate_idle idle fuel
    split <;> grind [assign]

end Machine

end FragmentCompiler
