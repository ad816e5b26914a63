import FragmentCompiler.Machine.Step
import Mathlib.Data.List.Nodup

/-!
# Typed code

What can be said about code without running it: which kind of value a computation
yields, and which slots of a frame hold values of which kinds after an instruction.
A slot has a kind from the moment its variable is declared; leaving the scope of a
variable forgets its slot.
-/

set_option autoImplicit false

namespace FragmentCompiler

open List

/-! ## Interfaces -/

/-- What code may rely on: global variables of a kind, and functions by the kinds of
their parameters and of their result. -/
structure Interface where
  IsVariable : DeclId → ValueKind → Prop
  IsFunction : Text → List ValueKind → ValueKind → Prop

def Layout : Type := Nat → Option ValueKind

namespace Layout

/-- No slot holds a value. -/
def empty : Layout := fun _ => none

/-- The arguments of a call stand in the first slots. -/
def ofParameters (kinds : List ValueKind) : Layout := fun index => kinds[index]?

def set (layout : Layout) (slot : Nat) (kind : ValueKind) : Layout :=
  fun index => if index = slot then some kind else layout index

/-- Every slot that holds a value does so in another layout as well. -/
def Le (layout larger : Layout) : Prop :=
  ∀ index kind, layout index = some kind → larger index = some kind

theorem Le.refl (layout : Layout) : layout.Le layout := fun _ _ known => known

theorem Le.trans {first second third : Layout} (left : first.Le second) (right : second.Le third) :
    first.Le third :=
  fun index kind known => right index kind (left index kind known)

theorem le_set {slot} {layout : Layout} (fresh : layout slot = none) (kind : ValueKind) :
    layout.Le (layout.set slot kind) := by
  intro index other known
  unfold set
  by_cases isSlot : index = slot
  · rw [isSlot, fresh] at known
    cases known
  · rw [if_neg isSlot]
    exact known

end Layout

/-! ## Operators -/

/-- The faults that depend on numbers: a division by zero, and a number too large for an
integer. -/
def Fault.IsNumeric : Fault → Prop
  | .divisionByZero | .tooLarge _ => True
  | _ => False

def Fault.Sure (kind : ValueKind) : Except Fault Value → Prop
  | .ok value => value.kind = kind
  | .error fault => fault.IsNumeric

def BinaryOp.Takes (op : BinaryOp) (left right kind : ValueKind) : Prop :=
  ∀ first second : Value, first.kind = left → second.kind = right →
    Fault.Sure kind (Value.operate op first second)

def UnaryOp.Takes (op : UnaryOp) (operand kind : ValueKind) : Prop :=
  ∀ value : Value, value.kind = operand → Fault.Sure kind (Value.operateUnary op value)

section

variable (interface : Interface) (layout : Layout)

/-- A call takes arguments of kinds to a result of a kind. -/
inductive CallTarget.Takes : CallTarget → List ValueKind → ValueKind → Prop
  | function {name kinds result} (isFunction : interface.IsFunction name kinds result) :
      Takes (.function name) kinds result
  | print (kinds : List ValueKind) : Takes (.builtin .print) kinds .nothing
  | len : Takes (.builtin .len) [.string] .int
  | str {kind} (notInvalid : kind ≠ .invalid) (notNothing : kind ≠ .nothing) :
      Takes (.builtin .str) [kind] .string

/-! ## Code -/

/-- A computation yields a value of a kind. -/
inductive Computation.Typed : Computation → ValueKind → Prop
  | constant {kind value} (isKind : value.kind = kind) : Typed (.constant value) kind
  | slot {index : Nat} {kind : ValueKind} (holds : layout index = some kind) :
      Typed (.slot index) kind
  | global {kind} (span : Span) {id : DeclId} (name : Text)
      (isVariable : interface.IsVariable id kind) : Typed (.global span id name) kind
  | convert {value source target} (span : Span) (inside : Typed value source)
      (converts : (source = .int ∧ target = .float) ∨ (source = .float ∧ target = .int)) :
      Typed (.convert span value target) target
  | unary {operand source op kind} (span : Span) (inside : Typed operand source)
      (takes : op.Takes source kind) : Typed (.unary span op operand) kind
  | binary {left leftKind right rightKind op kind} (span : Span) (first : Typed left leftKind)
      (second : Typed right rightKind) (takes : op.Takes leftKind rightKind kind) :
      Typed (.binary span op left right) kind
  | logical {left right} (span : Span) (decisive : Bool) (first : Typed left .bool)
      (second : Typed right .bool) : Typed (.logical span decisive left right) .bool
  | setSlot {index kind value} (holds : layout index = some kind) (inside : Typed value kind) :
      Typed (.setSlot index value) kind
  | setGlobal {kind value} (span : Span) {id : DeclId} (name : Text)
      (isVariable : interface.IsVariable id kind) (inside : Typed value kind) :
      Typed (.setGlobal span id name value) kind
  | call {arguments kinds target result} (span : Span) (takes : target.Takes interface kinds result)
      (count : arguments.length = kinds.length)
      (given : ∀ (index : Nat) (code : Computation) (kind : ValueKind),
        arguments[index]? = some code → kinds[index]? = some kind →
        Typed code kind) : Typed (.call span target arguments) result

end

mutual

def Instruction.starts : Instruction → List LocalStart
  | .sequence body => startsAll body
  | .locals starts => starts
  | .branch _ _ _ yes no => yes.starts ++ no.starts
  | .loop _ _ _ body => body.starts
  | .nothing | .evaluate .. | .echo .. | .return | .returnValue .. | .break | .continue => []

def Instruction.startsAll : List Instruction → List LocalStart
  | [] => []
  | first :: rest => first.starts ++ startsAll rest

end

/-- Variables in the slots from one number up to another, each of a kind that has values. -/
structure LocalStart.Numbered (starts : List LocalStart) (first last : Nat) : Prop where
  slots : starts.map LocalStart.slot = List.range' first (last - first)
  valid : ∀ start ∈ starts, start.kind ≠ .invalid

namespace LocalStart.Numbered

variable {starts : List LocalStart} {start : LocalStart} {first last : Nat}

theorem nil (first : Nat) : Numbered [] first first := ⟨by simp, by simp⟩

theorem append {early middle late} (left : Numbered early first middle) (le : first ≤ middle)
    (le' : middle ≤ last)
    (right : Numbered late middle last) : Numbered (early ++ late) first last where
  slots := by
    have split : last - first = (middle - first) + (last - middle) := by omega
    have place : first + (middle - first) = middle := by omega
    rw [map_append, left.slots, right.slots, split, ← range'_append_1, place]
  valid := by
    exact forall_mem_append.mpr ⟨left.valid, right.valid⟩

theorem cons (le : start.slot + 1 ≤ last) (valid : start.kind ≠ .invalid)
    (numbered : Numbered starts (start.slot + 1) last) :
    Numbered (start :: starts) start.slot last := by
  have single : Numbered [start] start.slot (start.slot + 1) := ⟨by simp, by simpa using valid⟩
  exact single.append (Nat.le_succ _) le numbered

theorem le (numbered : Numbered starts first last)
    (member : start ∈ starts) : first ≤ start.slot := by
  have inRange : start.slot ∈ starts.map LocalStart.slot := mem_map_of_mem member
  rw [numbered.slots] at inRange
  exact (mem_range'_1.mp inRange).1

theorem eq_of_slot {other} (numbered : Numbered starts first last) (member : start ∈ starts)
    (isOther : other ∈ starts) (same : start.slot = other.slot) : start = other := by
  have distinct : (starts.map LocalStart.slot).Nodup := by
    rw [numbered.slots]
    exact nodup_range'
  exact inj_on_of_nodup_map distinct member isOther same

end LocalStart.Numbered

def LoweredFunction.Declares (function : LoweredFunction) (slot : Nat) (kind : ValueKind) : Prop :=
  function.parameters[slot]? = some kind ∨
    ∃ start ∈ function.body.starts, start.slot = slot ∧ start.kind = kind

section

variable (interface : Interface) (declares : Nat → ValueKind → Prop) (size : Nat)
  (result : ValueKind)

/-- Instructions that can run one after another in a frame of a size, from one layout to
another; `declares` says which slot is for which kind. -/
inductive Instruction.Typed : Layout → List Instruction → Layout → Prop
  | nil (layout : Layout) : Typed layout [] layout
  | nothing {rest} {layout after : Layout} (others : Typed layout rest after) :
      Typed layout (.nothing :: rest) after
  | sequence {layout inner after : Layout} {body rest : List Instruction}
      (inside : Typed layout body inner) (others : Typed layout rest after) :
      Typed layout (.sequence body :: rest) after
  | started {rest} {layout after : Layout} (others : Typed layout rest after) :
      Typed layout (.locals [] :: rest) after
  | start {layout after : Layout} {start : LocalStart} {starts : List LocalStart}
      {rest : List Instruction} (fresh : layout start.slot = none) (room : start.slot < size)
      (declared : declares start.slot start.kind)
      (initial : ∀ code, start.initial = some code → code.Typed interface layout start.kind)
      (others : Typed (layout.set start.slot start.kind)
        (.locals starts :: rest) after) : Typed layout (.locals (start :: starts) :: rest) after
  | evaluate {rest value kind} {layout after : Layout} (span : Span)
      (inside : value.Typed interface layout kind) (others : Typed layout rest after) :
      Typed layout (.evaluate span value :: rest) after
  | branch {yes no rest test} {layout first second after : Layout} (span testSpan : Span)
      (tested : test.Typed interface layout .bool) (chosen : Typed layout [yes] first)
      (otherwise : Typed layout [no] second) (others : Typed layout rest after) :
      Typed layout (.branch span testSpan test yes no :: rest) after
  | loop {body rest test} {layout inner after : Layout} (span testSpan : Span)
      (tested : test.Typed interface layout .bool) (inside : Typed layout [body] inner)
      (others : Typed layout rest after) :
      Typed layout (.loop span testSpan test body :: rest) after
  | return {rest} {layout after : Layout} (others : Typed layout rest after) :
      Typed layout (.return :: rest) after
  | returnValue {rest value} {layout after : Layout} (span : Span)
      (inside : value.Typed interface layout result) (others : Typed layout rest after) :
      Typed layout (.returnValue span value :: rest) after
  | break {rest} {layout after : Layout} (others : Typed layout rest after) :
      Typed layout (.break :: rest) after
  | continue {rest} {layout after : Layout} (others : Typed layout rest after) :
      Typed layout (.continue :: rest) after

end

/-- A typed function: every slot is for one kind, and the body can run in a frame that
starts with the arguments. -/
structure LoweredFunction.Typed (interface : Interface) (function : LoweredFunction) : Prop where
  single : ∀ {slot : Nat} {kind other : ValueKind}, function.Declares slot kind →
    function.Declares slot other → kind = other
  valid : ∀ {slot : Nat} {kind : ValueKind}, function.Declares slot kind → kind ≠ .invalid
  body : ∃ after, Instruction.Typed interface function.Declares function.frame function.result
    (.ofParameters function.parameters) [function.body] after

end FragmentCompiler
