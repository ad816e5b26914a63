import FragmentCompiler.Proofs.Execution.Shape
import FragmentCompiler.Proofs.Execution.Typing

/-!
# Typed runs

A run is typed when the frame of the innermost call has values of the right kinds in the
slots of some layout, and what remains to be done fits: every continuation says which kind
of value it waits for, or which slots it needs after a statement.  Only the innermost frame
changes, so what the callers need is recorded where their call ends.
-/

set_option autoImplicit false

namespace FragmentCompiler

open List

@[simp] theorem Value.kind_zero (kind : ValueKind) : (Value.zero kind).kind = kind := by
  cases kind <;> rfl

/-! ## Machines -/

/-- Every variable of a machine has a number of its own and holds a value of its kind. -/
structure Machine.Stores (machine : Machine) : Prop where
  ids : (machine.globals.map Global.id).Nodup
  values : ∀ entry ∈ machine.globals, entry.value.kind = entry.kind

/-- No call is being run. -/
structure Machine.Rests (machine : Machine) : Prop extends Machine.Stores machine where
  idle : machine.stack = []

/-- A machine has what an interface promises, and its variables hold what they should. -/
structure Machine.Meets (machine : Machine) (interface : Interface) : Prop
    extends Machine.Stores machine where
  places : ∀ {id : DeclId} {kind : ValueKind}, interface.IsVariable id kind →
    ∃ entry, machine.global? id = some entry ∧ entry.kind = kind
  codes : ∀ {name : Text} {code : LoweredFunction}, machine.function? name = some code →
    code.name = name ∧ code.Typed interface
  heads : ∀ {name : Text} {kinds : List ValueKind} {result : ValueKind} {code : LoweredFunction},
    interface.IsFunction name kinds result → machine.function? name = some code →
    code.parameters = kinds ∧ code.result = result

namespace Machine

variable {id : DeclId} {entry : Global}

variable {machine : Machine} {interface : Interface}

theorem mem_of_global? (found : machine.global? id = some entry) :
    entry ∈ machine.globals ∧ entry.id = id := by
  unfold global? at found
  exact ⟨mem_of_find?_eq_some found, by simpa using find?_some found⟩

theorem Meets.global_kind (meets : machine.Meets interface)
    (found : machine.global? id = some entry) : entry.value.kind = entry.kind :=
  meets.values entry (mem_of_global? found).1

theorem Meets.kind_of_id {kind} (meets : machine.Meets interface)
    (isVariable : interface.IsVariable id kind) (member : entry ∈ machine.globals)
    (isId : entry.id = id) : entry.kind = kind := by
  obtain ⟨first, found, isKind⟩ := meets.places isVariable
  obtain ⟨isFirst, isFirstId⟩ := mem_of_global? found
  have same := inj_on_of_nodup_map meets.ids member isFirst (isId.trans isFirstId.symm)
  rw [same]
  exact isKind

theorem SameShape.ids {before after : Machine} (same : before.SameShape after) :
    after.globals.map Global.id = before.globals.map Global.id := by
  have heads := congrArg (List.map Prod.fst) same.globals
  simpa [map_map, Function.comp_def, Global.head] using heads

theorem Meets.assign {value} (meets : machine.Meets interface)
    (isVariable : interface.IsVariable id value.kind) : (machine.assign id value).Meets interface := by
  have same := machine.assign_sameShape id value
  refine ⟨⟨?_, ?_⟩, fun {other kind} isOther => ?_, meets.codes, meets.heads⟩
  · rw [same.ids]
    exact meets.ids
  · intro entry member
    obtain ⟨old, isOld, rfl⟩ := mem_map.mp member
    by_cases isId : old.id = id
    · simp only [isId, beq_self_eq_true, if_true]
      exact (meets.kind_of_id isVariable isOld isId).symm
    · simp only [beq_iff_eq, isId, if_false]
      exact meets.values old isOld
  · obtain ⟨entry, found, isKind⟩ := meets.places isOther
    have heads := same.global? other
    rw [found] at heads
    obtain ⟨entry', found', isHead⟩ := Option.map_eq_some_iff.mp heads
    exact ⟨entry', found', (congrArg (fun head => head.2.2) isHead).trans isKind⟩

end Machine

/-! ## Settings -/

/-- What a run is typed against: an interface, the functions whose code may run, and the
kind of the value at the end. -/
structure Setting where
  interface : Interface
  Runs : LoweredFunction → Prop
  typed : ∀ {function : LoweredFunction}, Runs function → function.Typed interface
  goal : ValueKind

/-- A machine whose functions may run. -/
structure Machine.Serves (machine : Machine) (setting : Setting) : Prop where
  meets : machine.Meets setting.interface
  known : ∀ {name : Text} {function : LoweredFunction},
    machine.function? name = some function → setting.Runs function

/-- A frame of a call of a function: the slots of a layout belong to variables and hold
values of their kinds. -/
structure Frame.Fits (setting : Setting) (function : LoweredFunction) (layout : Layout)
    (frame : Frame) : Prop where
  runs : setting.Runs function
  name : frame.function = function.name
  size : function.frame ≤ frame.slots.size
  slots : ∀ {index : Nat} {kind : ValueKind}, layout index = some kind →
    function.Declares index kind ∧ ∃ value, frame.slots[index]? = some value ∧ value.kind = kind
  result : frame.result.kind = function.result

namespace Frame.Fits

variable {index : Nat} {value : Value}

variable {setting : Setting} {function : LoweredFunction} {layout : Layout} {frame : Frame}

section

variable (fits : frame.Fits setting function layout)

include fits

theorem mono {smaller} (le : smaller.Le layout) : frame.Fits setting function smaller :=
  ⟨fits.runs, fits.name, fits.size, fun holds => fits.slots (le _ _ holds), fits.result⟩

theorem reach (span : Span) : ({ frame with span } : Frame).Fits setting function layout :=
  ⟨fits.runs, fits.name, fits.size, fits.slots, fits.result⟩

theorem returned (isKind : value.kind = function.result) :
    ({ frame with result := value } : Frame).Fits setting function layout :=
  ⟨fits.runs, fits.name, fits.size, fits.slots, isKind⟩

theorem put (inside : index < frame.slots.size) (declared : function.Declares index value.kind) :
    ({ frame with slots := frame.slots.setIfInBounds index value } : Frame).Fits setting function
      (layout.set index value.kind) where
  runs := fits.runs
  name := fits.name
  size := by simpa using fits.size
  slots := by
    intro other kind holds
    unfold Layout.set at holds
    by_cases isIndex : other = index
    · rw [if_pos isIndex] at holds
      cases holds
      exact ⟨isIndex ▸ declared, value, by simp [isIndex, inside], rfl⟩
    · rw [if_neg isIndex] at holds
      obtain ⟨isDeclared, old, isOld, isKind⟩ := fits.slots holds
      refine ⟨isDeclared, old, ?_, isKind⟩
      rw [Array.getElem?_setIfInBounds_ne (Ne.symm isIndex)]
      exact isOld
  result := fits.result

theorem inside {kind} (holds : layout index = some kind) :
    index < frame.slots.size := by
  obtain ⟨_, value, isValue, _⟩ := fits.slots holds
  exact (Array.getElem?_eq_some_iff.mp isValue).1

theorem store (holds : layout index = some value.kind) :
    ({ frame with slots := frame.slots.setIfInBounds index value } : Frame).Fits setting function
      layout := by
  refine (fits.put (fits.inside holds) (fits.slots holds).1).mono fun other kind isKind => ?_
  unfold Layout.set
  split
  · next isIndex => rw [← isKind, isIndex, holds]
  · exact isKind

end

end Frame.Fits

/-! ## What remains -/

def LoweredFunction.Can (function : LoweredFunction) (setting : Setting) (layout : Layout)
    (codes : List Instruction) (after : Layout) : Prop :=
  Instruction.Typed setting.interface function.Declares function.frame function.result layout codes
    after

section

variable (setting : Setting)

mutual

/-- What remains goes on with a value of a kind, in a frame of a function with a layout;
`callers` are the frames outside of it, innermost first. -/
inductive Continuation.Takes :
    List Frame → LoweredFunction → Layout → ValueKind → List Continuation → Prop
  | finish {function layout} : Takes [] function layout setting.goal []
  | convert {source target callers function layout todo} (span : Span)
      (converts : (source = .int ∧ target = .float) ∨ (source = .float ∧ target = .int))
      (others : Takes callers function layout target todo) :
      Takes callers function layout source (.convert span target :: todo)
  | unary {callers function layout kind todo source op} (span : Span) (takes : op.Takes source kind)
      (others : Takes callers function layout kind todo) :
      Takes callers function layout source (.unary span op :: todo)
  | right {callers function layout todo op operand} (span : Span) {left right kind : ValueKind}
      (inside : operand.Typed setting.interface layout right) (takes : op.Takes left right kind)
      (others : Takes callers function layout kind todo) :
      Takes callers function layout left (.right span op operand :: todo)
  | operate {callers function layout todo op left} (span : Span) {right kind : ValueKind}
      (takes : op.Takes left.kind right kind) (others : Takes callers function layout kind todo) :
      Takes callers function layout right (.operate span op left :: todo)
  | decide {layout callers function todo} (span : Span) (decisive : Bool) {right : Computation}
      (inside : right.Typed setting.interface layout .bool)
      (others : Takes callers function layout .bool todo) :
      Takes callers function layout .bool (.decide span decisive right :: todo)
  | truth {callers function layout todo} (span : Span)
      (others : Takes callers function layout .bool todo) :
      Takes callers function layout .bool (.truth span :: todo)
  | setSlot {layout kind callers function todo index} (holds : layout index = some kind)
      (others : Takes callers function layout kind todo) :
      Takes callers function layout kind (.setSlot index :: todo)
  | setGlobal {kind callers function layout todo} (span : Span) {id : DeclId} (name : Text)
      (isVariable : setting.interface.IsVariable id kind)
      (others : Takes callers function layout kind todo) :
      Takes callers function layout kind (.setGlobal span id name :: todo)
  | argument {rest more callers function layout result todo kind target evaluated} (span : Span)
      (takes : target.Takes setting.interface
        (evaluated.reverse.map Value.kind ++ kind :: more) result)
      (given : List.Forall₂ (fun code kind => code.Typed setting.interface layout kind) rest more)
      (others : Takes callers function layout result todo) :
      Takes callers function layout kind (.argument span target evaluated rest :: todo)
  | discard {callers function layout todo kind} (others : Ends callers function layout todo) :
      Takes callers function layout kind (.discard :: todo)
  | branch {callers function layout todo yes no first second} (testSpan : Span)
      (chosen : function.Can setting layout [yes] first)
      (otherwise : function.Can setting layout [no] second)
      (others : Ends callers function layout todo) :
      Takes callers function layout .bool (.branch testSpan yes no :: todo)
  | test {callers : List Frame} {function : LoweredFunction} {layout inner : Layout}
      {todo : List Continuation} (span testSpan : Span) {test : Computation} {body : Instruction}
      (tested : test.Typed setting.interface layout .bool)
      (inside : function.Can setting layout [body] inner)
      (others : Ends callers function layout todo) :
      Takes callers function layout .bool (.test span testSpan test body :: todo)
  | start {slot callers function todo kind starts} {layout after : Layout}
      (room : slot < function.frame) (declared : function.Declares slot kind)
      (rest : function.Can setting (layout.set slot kind) [.locals starts] after)
      (others : Ends callers function after todo) :
      Takes callers function layout kind (.start slot starts :: todo)
  | returnValue {callers function layout todo} (others : Ends callers function layout todo) :
      Takes callers function layout function.result (.returnValue :: todo)

/-- What remains goes on after a statement that leaves a frame of a function with a layout.
A statement that is left early may leave more slots than its continuation needs. -/
inductive Continuation.Ends : List Frame → LoweredFunction → Layout → List Continuation → Prop
  | sequence {callers : List Frame} {function : LoweredFunction}
      {layout needed inner outer : Layout} {todo : List Continuation} {rest : List Instruction}
      (le : needed.Le layout) (can : function.Can setting needed rest inner)
      (less : outer.Le needed) (others : Ends callers function outer todo) :
      Ends callers function layout (.sequence rest :: todo)
  | again {callers : List Frame} {function : LoweredFunction}
      {layout needed inner outer : Layout} {todo : List Continuation} (span testSpan : Span)
      {test : Computation} {body : Instruction} (le : needed.Le layout)
      (tested : test.Typed setting.interface needed .bool)
      (inside : function.Can setting needed [body] inner) (less : outer.Le needed)
      (others : Ends callers function outer todo) :
      Ends callers function layout (.again span testSpan test body :: todo)
  | leave {caller : Frame} {callers : List Frame} {function outer : LoweredFunction}
      {layout outerLayout : Layout} {todo : List Continuation}
      (fits : caller.Fits setting outer outerLayout)
      (others : Takes callers outer outerLayout function.result todo) :
      Ends (caller :: callers) function layout (.leave :: todo)

end

end

theorem Continuation.Ends.mono {setting callers function layout todo larger}
    (ends : Continuation.Ends setting callers function layout todo) (le : layout.Le larger) :
    Continuation.Ends setting callers function larger todo := by
  cases ends with
  | sequence needed can less others => exact .sequence (needed.trans le) can less others
  | again span testSpan needed tested inside less others =>
    exact .again span testSpan (needed.trans le) tested inside less others
  | leave fits others => exact .leave fits others

def Run.callers (run : Run) : List Frame :=
  match run.stack with
  | [] => []
  | _ :: rest => rest ++ [run.base]

/-- What a run does next fits its innermost frame and what remains. -/
def Focus.Fits (setting : Setting) (callers : List Frame) (function : LoweredFunction)
    (layout : Layout) (todo : List Continuation) : Focus → Prop
  | .evaluate code => ∃ kind, code.Typed setting.interface layout kind ∧
      Continuation.Takes setting callers function layout kind todo
  | .value result => Continuation.Takes setting callers function layout result.kind todo
  | .execute instruction => ∃ after, function.Can setting layout [instruction] after ∧
      Continuation.Ends setting callers function after todo
  | .ended _ => Continuation.Ends setting callers function layout todo
  | .raised _ => False

/-- The faults a typed run may end with. -/
inductive Fault.Excused (interface : Interface) (machine : Machine) : Fault → Prop
  | numeric {fault} (isNumeric : fault.IsNumeric) : Excused interface machine fault
  | undefinedFunction {name : Text} {kinds : List ValueKind} {result : ValueKind}
      (isFunction : interface.IsFunction name kinds result)
      (absent : machine.function? name = none) : Excused interface machine (.undefinedFunction name)
  | tooDeep (limit : Nat) (name : Text) : Excused interface machine (.tooDeep limit name)

theorem Fault.Excused.of_functions {interface : Interface} {machine after : Machine} {fault : Fault}
    (excused : fault.Excused interface machine) (same : after.functions = machine.functions) :
    fault.Excused interface after := by
  cases excused with
  | numeric isNumeric => exact .numeric isNumeric
  | undefinedFunction isFunction absent =>
    refine .undefinedFunction isFunction ?_
    unfold Machine.function?
    rw [same]
    exact absent
  | tooDeep limit name => exact .tooDeep limit name

/-- A typed run: a fault on its way out is one of those, and else the innermost frame fits. -/
structure Run.Typed (setting : Setting) (run : Run) : Prop where
  serves : run.machine.Serves setting
  state : (∃ error, run.focus = .raised error ∧
      error.fault.Excused setting.interface run.machine) ∨
    ∃ function layout, run.current.Fits setting function layout ∧
      run.focus.Fits setting run.callers function layout run.todo

def Progress.Typed (setting : Setting) : Progress → Prop
  | .running run => run.Typed setting
  | .finished value machine => machine.Serves setting ∧ value.kind = setting.goal
  | .failed error machine => machine.Serves setting ∧ error.fault.Excused setting.interface machine

end FragmentCompiler
