import FragmentCompiler.Machine.Arithmetic
import FragmentCompiler.Machine.Basic

/-!
# Running code

A run takes one small step after another.  What remains to be done stands in an
explicit list, so the depth of calls is bounded by the limit of the machine only.  A fault
passes what remains one continuation after another, and takes with it the frame of each call
it leaves.
-/

namespace FragmentCompiler

inductive Control where
  | next
  | break
  | continue
  | return
  deriving DecidableEq, Repr, Inhabited

inductive Continuation where
  | convert (span : Span) (target : ValueKind)
  | unary (span : Span) (op : UnaryOp)
  | right (span : Span) (op : BinaryOp) (operand : Computation)
  | operate (span : Span) (op : BinaryOp) (left : Value)
  | decide (span : Span) (decisive : Bool) (right : Computation)
  | truth (span : Span)
  | setSlot (index : Nat)
  | setGlobal (span : Span) (id : DeclId) (name : Text)
  | setNamed (span : Span) (name : Text)
  /-- The arguments already evaluated are in reverse. -/
  | argument (span : Span) (target : CallTarget) (evaluated : List Value) (rest : List Computation)
  | leave
  | discard
  | echo (silent : Bool)
  | branch (testSpan : Span) (yes no : Instruction)
  | test (span testSpan : Span) (test : Computation) (body : Instruction)
  | again (span testSpan : Span) (test : Computation) (body : Instruction)
  | sequence (rest : List Instruction)
  | start (slot : Nat) (rest : List LocalStart)
  | returnValue
  deriving Repr, Inhabited

inductive Focus where
  | evaluate (code : Computation)
  | value (value : Value)
  | execute (instruction : Instruction)
  | ended (control : Control)
  | raised (error : RunError)
  deriving Repr, Inhabited

structure Run where
  machine : Machine
  /-- The frame used outside all calls. -/
  base : Frame := {}
  focus : Focus
  todo : List Continuation := []
  deriving Inhabited

inductive Progress where
  | running (run : Run)
  | finished (value : Value) (machine : Machine)
  | failed (error : RunError) (machine : Machine)
  deriving Inhabited

namespace Run

@[simp] abbrev stack (run : Run) : List Frame := run.machine.stack

def current (run : Run) : Frame := run.stack.headD run.base

def update (run : Run) (change : Frame → Frame) : Run :=
  match run.stack with
  | [] => { run with base := change run.base }
  | frame :: callers =>
    { run with machine := { run.machine with stack := change frame :: callers } }

def reach (run : Run) (span : Span) : Run := run.update fun frame => { frame with span }

def store (run : Run) (index : Nat) (value : Value) : Run :=
  run.update fun frame => { frame with slots := frame.slots.setIfInBounds index value }

def go (run : Run) (focus : Focus) (todo : List Continuation) : Progress :=
  .running { run with focus, todo }

def fail (run : Run) (span : Span) (fault : Fault) (todo : List Continuation) : Progress :=
  let backtrace := run.stack.map fun frame => ⟨frame.function, frame.span⟩
  run.go (.raised { fault, span, backtrace }) todo

def give (run : Run) (span : Span) (todo : List Continuation) : Except Fault Value → Progress
  | .ok value => run.go (.value value) todo
  | .error fault => run.fail span fault todo

def invoke (run : Run) (function : LoweredFunction) (arguments : List Value) (span : Span)
    (todo : List Continuation) : Progress :=
  if run.machine.depthLimit ≤ run.stack.length then
    run.fail span (.tooDeep run.machine.depthLimit function.name) todo
  else
    let free := List.replicate (function.frame - arguments.length) Value.invalid
    let frame : Frame :=
      { function := function.name
        slots := (arguments ++ free).toArray
        span := function.span
        result := .zero function.result }
    { run with machine := run.machine.push frame }.go (.execute function.body) (.leave :: todo)

def call (run : Run) (name : Text) (arguments : List Value) (span : Span)
    (todo : List Continuation) : Progress :=
  match run.machine.function? name with
  | none => run.fail span (.undefinedFunction name) todo
  | some function =>
    if arguments.length = function.parameters.length then
      run.invoke function arguments span todo
    else
      run.fail span (.argumentCount name function.parameters.length arguments.length) todo

def callBuiltin (run : Run) (which : Builtin) (arguments : List Value) (span : Span)
    (todo : List Continuation) : Progress :=
  match which with
  | .print =>
    { run with machine := run.machine.print (Value.printed arguments) }.go (.value .nothing) todo
  | .len => run.give span todo (arguments.headD .invalid).length
  | .str => run.give span todo (arguments.headD .invalid).toText

def apply (run : Run) (span : Span) (target : CallTarget) (arguments : List Value)
    (todo : List Continuation) : Progress :=
  match target with
  | .function name => (run.reach span).call name arguments span todo
  | .builtin which => run.callBuiltin which arguments span todo

def nextArgument (run : Run) (span : Span) (target : CallTarget) (evaluated : List Value)
    (rest : List Computation) (todo : List Continuation) : Progress :=
  match rest with
  | [] => run.apply span target evaluated.reverse todo
  | code :: rest => run.go (.evaluate code) (.argument span target evaluated rest :: todo)

def evaluate (run : Run) (code : Computation) (todo : List Continuation) : Progress :=
  match code with
  | .constant value => run.go (.value value) todo
  | .slot index => run.go (.value (run.current.slots.getD index .invalid)) todo
  | .global span id name =>
    match run.machine.global? id with
    | some entry => run.go (.value entry.value) todo
    | none => run.fail span (.undefinedGlobal name) todo
  | .named span name =>
    match run.machine.named? name with
    | some entry => run.go (.value entry.value) todo
    | none => run.fail span (.undefinedName name) todo
  | .convert span value target => run.go (.evaluate value) (.convert span target :: todo)
  | .unary span op operand => run.go (.evaluate operand) (.unary span op :: todo)
  | .binary span op left right => run.go (.evaluate left) (.right span op right :: todo)
  | .logical span decisive left right =>
    run.go (.evaluate left) (.decide span decisive right :: todo)
  | .setSlot index value => run.go (.evaluate value) (.setSlot index :: todo)
  | .setGlobal span id name value => run.go (.evaluate value) (.setGlobal span id name :: todo)
  | .setNamed span name value => run.go (.evaluate value) (.setNamed span name :: todo)
  | .call span target arguments => run.nextArgument span target [] arguments todo

def startLocals (run : Run) (starts : List LocalStart) (todo : List Continuation) : Progress :=
  match starts with
  | [] => run.go (.ended .next) todo
  | { slot, kind, initial := none } :: rest =>
    (run.store slot (.zero kind)).go (.execute (.locals rest)) todo
  | { slot, initial := some code, .. } :: rest =>
    run.go (.evaluate code) (.start slot rest :: todo)

def execute (run : Run) (instruction : Instruction) (todo : List Continuation) : Progress :=
  match instruction with
  | .nothing => run.go (.ended .next) todo
  | .sequence [] => run.go (.ended .next) todo
  | .sequence (first :: rest) => run.go (.execute first) (.sequence rest :: todo)
  | .locals starts => run.startLocals starts todo
  | .evaluate span value => (run.reach span).go (.evaluate value) (.discard :: todo)
  | .echo span silent value => (run.reach span).go (.evaluate value) (.echo silent :: todo)
  | .branch span testSpan test yes no =>
    (run.reach span).go (.evaluate test) (.branch testSpan yes no :: todo)
  | .loop span testSpan test body =>
    (run.reach span).go (.evaluate test) (.test span testSpan test body :: todo)
  | .return => run.go (.ended .return) todo
  | .returnValue span value => (run.reach span).go (.evaluate value) (.returnValue :: todo)
  | .break => run.go (.ended .break) todo
  | .continue => run.go (.ended .continue) todo

def onTruth (run : Run) (span : Span) (value : Value) (todo : List Continuation)
    (next : Bool → Progress) : Progress :=
  match value.truth with
  | .ok truth => next truth
  | .error fault => run.fail span fault todo

def setNamed (run : Run) (span : Span) (name : Text) (value : Value) (todo : List Continuation) :
    Progress :=
  match run.machine.named? name with
  | none => run.fail span (.undefinedName name) todo
  | some entry =>
    match value.convert entry.kind with
    | .ok value =>
      { run with machine := run.machine.assign entry.id value }.go (.value value) todo
    | .error fault => run.fail span fault todo

def resume (run : Run) (value : Value) : List Continuation → Progress
  | [] => .finished value run.machine
  | next :: todo =>
    match next with
    | .convert span target => run.give span todo (value.convert target)
    | .unary span op => run.give span todo (Value.operateUnary op value)
    | .right span op operand => run.go (.evaluate operand) (.operate span op value :: todo)
    | .operate span op left => run.give span todo (Value.operate op left value)
    | .decide span decisive right =>
      run.onTruth span value todo fun truth =>
        if truth == decisive then run.go (.value (.bool truth)) todo
        else run.go (.evaluate right) (.truth span :: todo)
    | .truth span =>
      run.onTruth span value todo fun truth => run.go (.value (.bool truth)) todo
    | .setSlot index => (run.store index value).go (.value value) todo
    | .setGlobal span id name =>
      match run.machine.global? id with
      | some _ => { run with machine := run.machine.assign id value }.go (.value value) todo
      | none => run.fail span (.undefinedGlobal name) todo
    | .setNamed span name => run.setNamed span name value todo
    | .argument span target evaluated rest =>
      run.nextArgument span target (value :: evaluated) rest todo
    | .discard => run.go (.ended .next) todo
    | .echo silent =>
      if silent || value.kind = .nothing then run.go (.ended .next) todo
      else
        { run with machine := run.machine.print (value.echo ++ "\n") }.go (.ended .next) todo
    | .branch testSpan yes no =>
      run.onTruth testSpan value todo fun truth =>
        run.go (.execute (if truth then yes else no)) todo
    | .test span testSpan test body =>
      run.onTruth testSpan value todo fun truth =>
        if truth then run.go (.execute body) (.again span testSpan test body :: todo)
        else run.go (.ended .next) todo
    | .start slot rest => (run.store slot value).go (.execute (.locals rest)) todo
    | .returnValue =>
      (run.update fun frame => { frame with result := value }).go (.ended .return) todo
    | .leave | .again .. | .sequence _ => run.go (.value value) todo

def proceed (run : Run) (control : Control) : List Continuation → Progress
  | [] => .finished .nothing run.machine
  | next :: todo =>
    match next with
    | .sequence rest =>
      if control = .next then run.go (.execute (.sequence rest)) todo
      else run.go (.ended control) todo
    | .again span testSpan test body =>
      match control with
      | .break => run.go (.ended .next) todo
      | .return => run.go (.ended .return) todo
      | .next | .continue => run.go (.execute (.loop span testSpan test body)) todo
    | .leave =>
      { run with machine := run.machine.pop }.go (.value run.current.result) todo
    | _ => run.go (.ended control) todo

def unwind (run : Run) (error : RunError) : List Continuation → Progress
  | [] => .failed error run.machine
  | .leave :: todo => { run with machine := run.machine.pop }.go (.raised error) todo
  | _ :: todo => run.go (.raised error) todo

def step (run : Run) : Progress :=
  match run.focus with
  | .evaluate code => run.evaluate code run.todo
  | .value value => run.resume value run.todo
  | .execute instruction => run.execute instruction run.todo
  | .ended control => run.proceed control run.todo
  | .raised error => run.unwind error run.todo

inductive Outcome where
  | finished (value : Value)
  | failed (error : RunError)
  | unfinished
  deriving Repr, Inhabited

/-- Takes steps from a state of progress until the run ends or the steps allowed are
used up.  A run that is given up leaves no calls behind. -/
def finish : Nat → Progress → Outcome × Machine
  | _, .finished value machine => (.finished value, machine)
  | _, .failed error machine => (.failed error, machine)
  | 0, .running run => (.unfinished, { run.machine with stack := [] })
  | fuel + 1, .running run => finish fuel run.step

end Run

namespace Machine

def evaluate (machine : Machine) (fuel : Nat) (frame : Frame) (code : Computation) :
    Run.Outcome × Machine :=
  Run.finish fuel (.running { machine, base := frame, focus := .evaluate code })

def invoke (machine : Machine) (fuel : Nat) (function : LoweredFunction)
    (arguments : List Value) (span : Span) : Run.Outcome × Machine :=
  let idle : Run := { machine, focus := .value .nothing }
  Run.finish fuel (idle.invoke function arguments span [])

def call (machine : Machine) (fuel : Nat) (name : Text) (arguments : List Value) (span : Span) :
    Run.Outcome × Machine :=
  let idle : Run := { machine, focus := .value .nothing }
  Run.finish fuel (idle.call name arguments span [])

end Machine

end FragmentCompiler
