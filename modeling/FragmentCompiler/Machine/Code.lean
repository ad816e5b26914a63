import FragmentCompiler.Analysis.Universe
import FragmentCompiler.Machine.Value

/-!
# Code

What declarations are lowered to: trees in which every name is already a slot, a
global variable, a function or a name to be found at run time.
-/

namespace FragmentCompiler

inductive CallTarget where
  | function (name : Text)
  | builtin (which : Builtin)
  deriving DecidableEq, Repr, Inhabited

inductive Computation where
  | constant (value : Value)
  | slot (index : Nat)
  | global (span : Span) (id : DeclId) (name : Text)
  /-- A global variable found by its name. -/
  | named (span : Span) (name : Text)
  | convert (span : Span) (value : Computation) (target : ValueKind)
  | unary (span : Span) (op : UnaryOp) (operand : Computation)
  | binary (span : Span) (op : BinaryOp) (left right : Computation)
  /-- The right operand is left alone when the left one is `decisive`. -/
  | logical (span : Span) (decisive : Bool) (left right : Computation)
  | setSlot (index : Nat) (value : Computation)
  | setGlobal (span : Span) (id : DeclId) (name : Text) (value : Computation)
  | setNamed (span : Span) (name : Text) (value : Computation)
  | call (span : Span) (target : CallTarget) (arguments : List Computation)
  deriving Repr, Inhabited

structure LocalStart where
  slot : Nat
  kind : ValueKind
  initial : Option Computation
  deriving Repr, Inhabited

inductive Instruction where
  | nothing
  | sequence (body : List Instruction)
  | locals (starts : List LocalStart)
  | evaluate (span : Span) (value : Computation)
  /-- Shows a value, unless the expression has none. -/
  | echo (span : Span) (silent : Bool) (value : Computation)
  | branch (span testSpan : Span) (test : Computation) (yes no : Instruction)
  | loop (span testSpan : Span) (test : Computation) (body : Instruction)
  | return
  | returnValue (span : Span) (value : Computation)
  | break
  | continue
  deriving Repr, Inhabited

structure LoweredFunction where
  name : Text
  parameters : List ValueKind
  result : ValueKind
  frame : Nat
  body : Instruction
  span : Span
  deriving Repr, Inhabited

end FragmentCompiler
