import FragmentCompiler.Machine.Value
import FragmentCompiler.Source.FileSet

/-!
# Faults of a running program

What can go wrong when a program runs, with the call stack at that moment.
-/

namespace FragmentCompiler

inductive Fault where
  | badOperands (op : BinaryOp) (left right : ValueKind)
  | notOnFloats (op : BinaryOp)
  | notOnIntegers (op : BinaryOp)
  | badOperand (op : UnaryOp) (operand : ValueKind)
  | badConversion (source target : ValueKind)
  | badCondition (kind : ValueKind)
  | noLength (kind : ValueKind)
  | noText (kind : ValueKind)
  | argumentCount (name : Text) (expected given : Nat)
  | divisionByZero
  | undefinedGlobal (name : Text)
  | undefinedName (name : Text)
  | undefinedFunction (name : Text)
  | tooDeep (limit : Nat) (name : Text)
  | tooLarge (value : Float)
  deriving Repr, Inhabited

namespace Fault

def number : Fault → Nat
  | .badOperands .. | .notOnFloats _ | .badOperand .. | .badConversion .. | .badCondition _
  | .noLength _ | .noText _ | .argumentCount .. => 1003
  | .divisionByZero => 1007
  | .undefinedGlobal _ | .undefinedName _ => 1008
  | .undefinedFunction _ => 1009
  | .tooDeep .. => 1010
  | .tooLarge _ => 1011
  | .notOnIntegers _ => 1999

def code (fault : Fault) : Text := "VM" ++ Text.decimal fault.number

def message : Fault → Text
  | .badOperands op left right =>
    "invalid operands to '" ++ op.spelling ++ "' (" ++ left.name ++ " and " ++ right.name ++ ")"
  | .notOnFloats op => "operator '" ++ op.spelling ++ "' is not defined on float"
  | .notOnIntegers op => "operator '" ++ op.spelling ++ "' on int"
  | .badOperand op operand =>
    "invalid operand of type " ++ operand.name ++ " for unary '" ++ op.spelling ++ "'"
  | .badConversion source target => "cannot use " ++ source.name ++ " value as " ++ target.name
  | .badCondition kind => "condition must be bool, got " ++ kind.name
  | .noLength kind => "len expects string, got " ++ kind.name
  | .noText kind => "cannot convert " ++ kind.name ++ " to string"
  | .argumentCount name expected given =>
    "function '" ++ name ++ "' expects " ++ Text.decimal expected ++ " arguments, got " ++
      Text.decimal given
  | .divisionByZero => "integer division by zero"
  | .undefinedGlobal name => "global '" ++ name ++ "' is not defined"
  | .undefinedName name => "'" ++ name ++ "' is not defined"
  | .undefinedFunction name => "function '" ++ name ++ "' has no definition"
  | .tooDeep limit name =>
    "call depth limit " ++ Text.decimal limit ++ " exceeded in '" ++ name ++ "'"
  | .tooLarge value => Value.displayFloat value ++ " does not fit into int"

end Fault

structure Activation where
  function : Text
  span : Span
  deriving DecidableEq, Repr, Inhabited

structure RunError where
  fault : Fault
  span : Span
  backtrace : List Activation
  deriving Repr, Inhabited

namespace RunError

def message (error : RunError) : Text :=
  "panic " ++ error.fault.code ++ ": " ++ error.fault.message

def renderPlace (files : Option FileSet) (span : Span) : Text :=
  match files with
  | none => "<no-span>"
  | some files =>
    if span.isNone then "<no-span>"
    else
      match files.get? span.file with
      | none => "<no-span>"
      | some buffer =>
        let start := (files.resolve span).1
        buffer.path ++ ":" ++ Text.decimal start.line ++ ":" ++ Text.decimal start.column

def renderBacktrace (files : Option FileSet) (number : Nat) : List Activation → Text
  | [] => []
  | activation :: rest =>
    "  " ++ Text.decimal number ++ ": " ++ activation.function ++ " at " ++
      renderPlace files activation.span ++ "\n" ++ renderBacktrace files (number + 1) rest

def render (error : RunError) (files : Option FileSet) : Text :=
  let calls : Text :=
    if error.backtrace.isEmpty then []
    else "backtrace:\n" ++ renderBacktrace files 0 error.backtrace
  error.message ++ "\nat " ++ renderPlace files error.span ++ "\n" ++ calls

end RunError

end FragmentCompiler
