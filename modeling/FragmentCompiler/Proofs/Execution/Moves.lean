import FragmentCompiler.Machine.Step

/-!
# What a step can do

A step hands a value, or the end of a statement, on to what remains.  It may touch the
machine, change the innermost frame, enter a call or leave one, raise a fault or pass one on.
What holds of every step is derived from this.
-/

set_option autoImplicit false

namespace FragmentCompiler

/-- What running code does to a machine. -/
inductive Machine.Touched (machine : Machine) : Machine → Prop
  | kept : Touched machine machine
  | printed (text : Text) : Touched machine (machine.print text)
  | assigned (id : DeclId) (value : Value) : Touched machine (machine.assign id value)

theorem Machine.Touched.calls {before after : Machine} (touched : before.Touched after) :
    after.depthLimit = before.depthLimit ∧ after.stack = before.stack := by
  cases touched <;> exact ⟨rfl, rfl⟩

/-- Any fault but that of a call too deep. -/
def Fault.Shallow (fault : Fault) : Prop := ∀ limit name, fault ≠ .tooDeep limit name

namespace Value

variable {fault : Fault} {value : Value}

theorem operate_shallow {op left right} (fails : operate op left right = .error fault) :
    fault.Shallow := by
  unfold operate integerOperation floatOperation at fails
  repeat' split at fails
  all_goals cases fails <;> nofun

theorem operateUnary_shallow {op} (fails : operateUnary op value = .error fault) : fault.Shallow :=
    by
  unfold operateUnary at fails
  split at fails <;> cases fails
  nofun

theorem convert_shallow {target} (fails : convert target value = .error fault) : fault.Shallow := by
  unfold convert at fails
  repeat' split at fails
  all_goals cases fails <;> nofun

theorem length_shallow (fails : value.length = .error fault) : fault.Shallow := by
  cases value <;> cases fails <;> nofun

theorem toText_shallow (fails : value.toText = .error fault) : fault.Shallow := by
  cases value <;> cases fails <;> nofun

theorem truth_shallow (fails : value.truth = .error fault) : fault.Shallow := by
  cases value <;> cases fails <;> nofun

end Value

def Focus.isValue : Focus → Bool
  | .evaluate _ | .value _ => true
  | .execute _ | .ended _ | .raised _ => false

/-- What a call is over with. -/
def Focus.outcome? : Focus → Option Run.Outcome
  | .value result => some (.finished result)
  | .raised error => some (.failed error)
  | _ => none

def Focus.raised? (focus : Focus) : Option RunError :=
  match focus.outcome? with
  | some (.failed error) => some error
  | _ => none

theorem Focus.eq_raised {error} {focus : Focus} (failed : focus.outcome? = some (.failed error)) :
    focus = .raised error := by
  cases focus <;> cases failed
  rfl

namespace Continuation

/-- Whether a continuation waits for a value, and whether it goes on with one; the end of a
call is apart. -/
def signature : Continuation → Option (Bool × Bool)
  | .leave => none
  | .again .. | .sequence _ => some (false, false)
  | .discard | .echo _ | .branch .. | .test .. | .start .. | .returnValue => some (true, false)
  | _ => some (true, true)

/-- What remains leads back to `outer` with a value.  A call has a frame of its own until it
is left; outside all calls there are no frames. -/
inductive Leads (outer : List Continuation) (stack : List Frame) :
    Bool → List Continuation → List Frame → Prop
  | outside (empty : stack = []) : Leads outer stack true outer []
  | last (frame : Frame) : Leads outer stack false (.leave :: outer) (frame :: stack)
  | leave {todo frames} (frame : Frame) (others : Leads outer stack true todo frames) :
      Leads outer stack false (.leave :: todo) (frame :: frames)
  | next {isValue gives todo frames} {next : Continuation}
      (signed : next.signature = some (isValue, gives))
      (others : Leads outer stack gives todo frames) :
      Leads outer stack isValue (next :: todo) frames

end Continuation

namespace Run

/-- Back from a call, with a value or with a fault. -/
def Over (run : Run) (outer : List Continuation) : Prop :=
  run.todo = outer ∧ run.focus.outcome?.isSome

/-- To go on with a value, or with the end of a statement, leads where a run leads. -/
def Turns (run : Run) (isValue : Bool) (todo : List Continuation) : Prop :=
  ∀ outer stack frames, ¬ run.Over outer →
    Continuation.Leads outer stack run.focus.isValue run.todo frames →
      Continuation.Leads outer stack isValue todo frames

def read? (run : Run) : Option Nat :=
  match run.focus with
  | .evaluate (.slot index) => some index
  | _ => none

def write? (run : Run) : Option Nat :=
  match run.focus, run.todo with
  | .value _, .setSlot index :: _ => some index
  | .value _, .start index _ :: _ => some index
  | .execute (.locals (start :: _)), _ => if start.initial.isNone then some start.slot else none
  | _, _ => none

inductive Moves (run : Run) : Progress → Prop
  | go {machine : Machine} {focus : Focus} {todo : List Continuation}
      (touched : run.machine.Touched machine) (turns : run.Turns focus.isValue todo)
      (quiet : focus.raised? = none) :
      Moves run (.running { run with machine, focus, todo })
  | update {change} {focus : Focus} {todo : List Continuation}
      (slots : run.write? = none → ∀ frame, (change frame).slots = frame.slots)
      (turns : run.Turns focus.isValue todo) (quiet : focus.raised? = none) :
      Moves run ((run.update change).go focus todo)
  | enter {todo : List Continuation} (span : Span) (frame : Frame) (body : Instruction)
      (room : run.stack.length < run.machine.depthLimit) (turns : run.Turns true todo) :
      Moves run (({ run.reach span with machine := (run.reach span).machine.push frame } : Run).go
        (.execute body) (.leave :: todo))
  | leave {todo : List Continuation} (value : Value) (isEnded : run.focus.isValue = false)
      (isTodo : run.todo = .leave :: todo) :
      Moves run (({ run with machine := run.machine.pop } : Run).go (.value value) todo)
  | finish (value : Value) (isFocus : run.focus = .value value ∨ run.focus.isValue = false)
      (isTodo : run.todo = []) : Moves run (.finished value run.machine)
  | fail {fault isValue} {raiser : Run} {span : Span} {todo : List Continuation}
      (raises : raiser = run ∨ raiser = run.reach span)
      (full : ∀ limit name, fault = .tooDeep limit name → run.machine.depthLimit ≤ run.stack.length)
      (turns : run.Turns isValue todo) : Moves run (raiser.fail span fault todo)
  | unwind {error} (isFocus : run.focus = .raised error) : Moves run (run.unwind error run.todo)

@[simp] theorem length_stack_update (run : Run) (change : Frame → Frame) :
    (run.update change).machine.stack.length = run.machine.stack.length := by
  unfold update
  split <;> simp_all

/-- Frames are all that an update may change of a machine. -/
theorem machine_update (run : Run) (change : Frame → Frame) :
    (run.update change).machine =
      { run.machine with stack := (run.update change).machine.stack } := by
  unfold update
  split <;> rfl

@[simp] theorem depthLimit_update (run : Run) (change : Frame → Frame) :
    (run.update change).machine.depthLimit = run.machine.depthLimit := by
  rw [machine_update]

section

variable {run : Run} {todo : List Continuation}

theorem Turns.push {gives isValue} {next : Continuation} (turns : run.Turns gives todo)
    (signed : next.signature = some (isValue, gives)) : run.Turns isValue (next :: todo) :=
  fun outer stack frames goesOn leads => .next signed (turns outer stack frames goesOn leads)

theorem moves_fail {isValue} {fault : Fault} (turns : run.Turns isValue todo) (span : Span)
    (shallow : fault.Shallow) : run.Moves (run.fail span fault todo) :=
  .fail (.inl rfl) (fun limit name isFault => absurd isFault (shallow limit name)) turns

theorem moves_onTruth {isValue} {next : Bool → Progress} (turns : run.Turns isValue todo)
    (span : Span) (value : Value) (each : ∀ truth, run.Moves (next truth)) :
    run.Moves (run.onTruth span value todo next) := by
  unfold onTruth
  split
  · exact each _
  · rename_i fails
    exact moves_fail turns span (Value.truth_shallow fails)

variable (turns : run.Turns true todo)

include turns

theorem moves_give {result} (span : Span)
    (shallow : ∀ fault, result = .error fault → fault.Shallow) :
    run.Moves (run.give span todo result) := by
  cases result with
  | ok value => exact .go .kept turns rfl
  | error fault => exact moves_fail turns span (shallow fault rfl)

theorem moves_call (name : Text) (arguments : List Value) (span : Span) :
    run.Moves ((run.reach span).call name arguments span todo) := by
  unfold call
  split
  · exact .fail (.inr rfl) nofun turns
  · split
    · have sameLimit : (run.reach span).machine.depthLimit = run.machine.depthLimit := by simp [reach]
      have sameDepth : (run.reach span).stack.length = run.stack.length := by simp [reach]
      unfold invoke
      split
      · rename_i full
        rw [sameLimit, sameDepth] at full
        exact .fail (.inr rfl) (fun _ _ _ => full) turns
      · rename_i room
        rw [sameLimit, sameDepth, Nat.not_le] at room
        exact .enter span _ _ room turns
    · exact .fail (.inr rfl) nofun turns

theorem moves_nextArgument (span : Span) (target : CallTarget) (evaluated : List Value)
    (rest : List Computation) : run.Moves (run.nextArgument span target evaluated rest todo) := by
  cases rest with
  | cons code rest => exact .go .kept (turns.push rfl) rfl
  | nil =>
    cases target with
    | function name => exact moves_call turns name _ span
    | builtin which =>
      cases which with
      | print => exact .go (.printed _) turns rfl
      | len => exact moves_give turns span fun _ => Value.length_shallow
      | str => exact moves_give turns span fun _ => Value.toText_shallow

theorem moves_evaluate (code : Computation) : run.Moves (run.evaluate code todo) := by
  cases code with
  | constant | slot => exact .go .kept turns rfl
  | global span | named span =>
    unfold evaluate
    dsimp only
    split
    · exact .go .kept turns rfl
    · exact moves_fail turns span nofun
  | call span target arguments => exact moves_nextArgument turns span target [] arguments
  | _ => exact .go .kept (turns.push rfl) rfl

end

variable {next : Continuation} {todo : List Continuation}

/-- What comes next takes what it is handed, or is never reached with it. -/
theorem turns_rest {isValue} {run : Run} (isTodo : run.todo = next :: todo)
    (hands : run.focus.isValue = true → run.focus.outcome?.isSome)
    (stays : next = .leave → run.focus.isValue = true)
    (gives : ∀ gives, next.signature = some (run.focus.isValue, gives) → gives = isValue) :
    run.Turns isValue todo := by
  intro outer stack frames goesOn leads
  rw [isTodo] at leads
  generalize run.focus.isValue = isHanded at *
  cases leads with
  | outside => exact absurd ⟨isTodo, hands rfl⟩ goesOn
  | last => cases stays rfl
  | leave => cases stays rfl
  | next signed others => exact gives _ signed ▸ others

theorem moves_resume {value} {run : Run} (isFocus : run.focus = .value value)
    (isTodo : run.todo = todo) : run.Moves (run.resume value todo) := by
  cases todo with
  | nil => exact .finish _ (.inl isFocus) isTodo
  | cons next todo =>
    have rest : ∀ {isValue}, (∀ gives, next.signature = some (true, gives) → gives = isValue) →
        run.Turns isValue todo := fun gives =>
      turns_rest isTodo (fun _ => by rw [isFocus]; rfl) (fun _ => by rw [isFocus]; rfl)
        (by rw [isFocus]; exact gives)
    have valued : next.signature = some (true, true) → run.Turns true todo :=
      fun signed => rest fun _ other => by cases signed.symm.trans other; rfl
    have ended : next.signature = some (true, false) → run.Turns false todo :=
      fun signed => rest fun _ other => by cases signed.symm.trans other; rfl
    cases next with
    | convert => exact moves_give (valued rfl) _ fun _ => Value.convert_shallow
    | unary => exact moves_give (valued rfl) _ fun _ => Value.operateUnary_shallow
    | operate => exact moves_give (valued rfl) _ fun _ => Value.operate_shallow
    | right => exact .go .kept ((valued rfl).push rfl) rfl
    | decide =>
      refine moves_onTruth (valued rfl) _ value fun truth => ?_
      split
      · exact .go .kept (valued rfl) rfl
      · exact .go .kept ((valued rfl).push rfl) rfl
    | truth => exact moves_onTruth (valued rfl) _ value fun truth => .go .kept (valued rfl) rfl
    | setSlot =>
      exact .update (fun isNone => by simp [write?, isFocus, isTodo] at isNone) (valued rfl) rfl
    | setGlobal =>
      unfold resume
      dsimp only
      split
      · exact .go (.assigned _ _) (valued rfl) rfl
      · exact moves_fail (valued rfl) _ nofun
    | setNamed =>
      unfold resume setNamed
      dsimp only
      split
      · exact moves_fail (valued rfl) _ nofun
      · split
        · exact .go (.assigned _ _) (valued rfl) rfl
        · exact moves_fail (valued rfl) _ (Value.convert_shallow ‹_›)
    | argument => exact moves_nextArgument (valued rfl) _ _ _ _
    | discard => exact .go .kept (ended rfl) rfl
    | echo =>
      unfold resume
      dsimp only
      split
      · exact .go .kept (ended rfl) rfl
      · exact .go (.printed _) (ended rfl) rfl
    | branch => exact moves_onTruth (ended rfl) _ value fun truth => .go .kept (ended rfl) rfl
    | test =>
      refine moves_onTruth (ended rfl) _ value fun truth => ?_
      split
      · exact .go .kept ((ended rfl).push rfl) rfl
      · exact .go .kept (ended rfl) rfl
    | start => exact .update (fun isNone => by simp [write?, isFocus, isTodo] at isNone) (ended rfl) rfl
    | returnValue => exact .update (fun _ _ => rfl) (ended rfl) rfl
    | leave | again | sequence => exact .go .kept (rest nofun) rfl

theorem moves_proceed {run : Run} {control : Control} (isFocus : run.focus = .ended control)
    (isTodo : run.todo = todo) :
    run.Moves (run.proceed control todo) := by
  cases todo with
  | nil => exact .finish _ (.inr (by rw [isFocus]; rfl)) isTodo
  | cons next todo =>
    have rest (stays : next ≠ .leave)
        (gives : ∀ gives, next.signature = some (false, gives) → gives = false) :
        run.Turns false todo :=
      turns_rest isTodo (by rw [isFocus]; exact nofun) (fun isLeave => absurd isLeave stays)
        (by rw [isFocus]; exact gives)
    cases next with
    | leave => exact .leave _ (by rw [isFocus]; rfl) isTodo
    | sequence =>
      have turns := rest nofun fun | _, rfl => rfl
      unfold proceed
      dsimp only
      split <;> exact .go .kept turns rfl
    | again =>
      have turns := rest nofun fun | _, rfl => rfl
      cases control <;> exact .go .kept turns rfl
    | _ => exact .go .kept (rest nofun nofun) rfl

theorem moves_execute {instruction} {run : Run} (isFocus : run.focus = .execute instruction)
    (turns : run.Turns false todo) : run.Moves (run.execute instruction todo) := by
  cases instruction with
  | locals starts =>
    match starts with
    | [] => exact .go .kept turns rfl
    | { initial := some _, .. } :: _ => exact .go .kept (turns.push rfl) rfl
    | { initial := none, .. } :: _ =>
      exact .update (fun isNone => by simp [write?, isFocus] at isNone) turns rfl
  | sequence instructions =>
    cases instructions with
    | nil => exact .go .kept turns rfl
    | cons => exact .go .kept (turns.push rfl) rfl
  | nothing | «return» | «break» | «continue» => exact .go .kept turns rfl
  | _ => exact .update (fun _ _ => rfl) (turns.push rfl) rfl

theorem moves_step (run : Run) : run.Moves run.step := by
  have same : run.Turns run.focus.isValue run.todo := fun _ _ _ _ leads => leads
  unfold step
  split <;> rename_i isFocus <;> rw [isFocus] at same
  · exact moves_evaluate same _
  · exact moves_resume isFocus rfl
  · exact moves_execute isFocus same
  · exact moves_proceed isFocus rfl
  · exact .unwind isFocus

/-! ## Slots -/

def slots (run : Run) : List (Array Value) := (run.stack ++ [run.base]).map Frame.slots

/-- A frame may be entered or left, but the slots of the others stay as they are. -/
def Spares (run : Run) : Progress → Prop
  | .running after => after.slots = run.slots ∨ after.slots.tail = run.slots ∨
      after.slots = run.slots.tail
  | _ => True

theorem slots_update {change} (run : Run) (same : ∀ frame, (change frame).slots = frame.slots) :
    (run.update change).slots = run.slots := by
  unfold update slots
  split <;> rename_i isStack <;> simp [isStack, same]

theorem slots_pop (run : Run) {focus : Focus} :
    run.Spares (({ run with machine := run.machine.pop } : Run).go focus todo) := by
  unfold Spares go slots
  cases isStack : run.machine.stack with
  | nil => exact .inl (by simp [Machine.pop, stack, isStack])
  | cons frame callers => exact .inr (.inr (by simp [Machine.pop, stack, isStack]))

theorem spares_step (run : Run) (writesNone : run.write? = none) : run.Spares run.step := by
  have moves := run.moves_step
  generalize run.step = progress at moves
  cases moves with
  | go touched => exact .inl (by simp [slots, touched.calls.2])
  | update same => exact .inl (slots_update run (same writesNone))
  | enter => exact .inr (.inl (slots_update run fun _ => rfl))
  | leave => exact slots_pop run
  | fail raises =>
    obtain rfl | rfl := raises
    · exact .inl rfl
    · exact .inl (slots_update run fun _ => rfl)
  | finish => trivial
  | unwind =>
    unfold unwind
    split
    · trivial
    · exact slots_pop run
    · exact .inl rfl

end Run

end FragmentCompiler
