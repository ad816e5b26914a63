import FragmentCompiler.Diagnostic.Basic
import FragmentCompiler.Machine.Code

/-!
# Lowering

Checked expressions and statements become code.  What the analysis accepts always
has code, unless a name was left to be found at run time and never turned into a
run-time lookup.
-/

namespace FragmentCompiler

/-- Lowering some form, collecting diagnostics; any diagnostic means failure. -/
abbrev Lower := StateM (Array Diagnostic)

namespace Lower

def reject (code : Code) (span : Span) (message : Text) : Lower Computation := do
  modify fun reports => reports.push (.error code span message)
  return .constant .nothing

def rejectDeferred (span : Span) (name : Text) : Lower Computation :=
  reject .unresolvedDynamic span
    ("'" ++ name ++ "' was deferred to run time but dynamic lookup is not active")

def name (decls : Declarations) (span : Span) (spelling : Text) (reference : Reference) :
    Lower Computation :=
  match reference with
  | .declaration id =>
    match decls.asVariable id with
    | none => reject .generation span ("'" ++ spelling ++ "' is not a variable")
    | some data =>
      if data.storage = .global then return .global span id spelling
      else return .slot data.slot
  | .deferred => rejectDeferred span spelling
  | .unresolved | .builtin =>
    reject .generation span ("'" ++ spelling ++ "' is not a value")

def assign (decls : Declarations) (span : Span) (target : Expr) (value : Computation) :
    Lower Computation :=
  match target with
  | .lookup _ spelling => return .setNamed span spelling value
  | .name _ spelling (.declaration id) =>
    match decls.asVariable id with
    | none => reject .generation span ("'" ++ spelling ++ "' is not a variable")
    | some data =>
      if data.storage = .global then return .setGlobal span id spelling value
      else return .setSlot data.slot value
  | .name info spelling .deferred => rejectDeferred info.span spelling
  | _ => reject .generation span "invalid assignment target"

def call (span : Span) (callee : Expr) (arguments : List Computation) : Lower Computation :=
  match callee with
  | .lookup _ spelling => return .call span (.function spelling) arguments
  | .name _ spelling (.declaration _) => return .call span (.function spelling) arguments
  | .name info spelling .builtin =>
    match Builtin.ofText? spelling with
    | some builtin => return .call span (.builtin builtin) arguments
    | none => reject .generation info.span ("'" ++ spelling ++ "' is not callable")
  | .name info spelling .deferred => rejectDeferred info.span spelling
  | .name info spelling .unresolved =>
    reject .generation info.span ("'" ++ spelling ++ "' is not callable")
  | other => reject .generation other.span "expression is not callable"

mutual

def expression (decls : Declarations) : Expr → Lower Computation
  | .literal _ _ value => return .constant (.ofLiteral value)
  | .name info spelling reference => name decls info.span spelling reference
  | .lookup info spelling => return .named info.span spelling
  | .group _ inner => expression decls inner
  | .convert info value target => do
      return .convert info.span (← expression decls value) (.ofType target)
  | .unary info op operand => do
      return .unary info.span op (← expression decls operand)
  | .binary info op left right => do
      let left ← expression decls left
      let right ← expression decls right
      if op.isLogical then return .logical info.span (op == .or) left right
      else return .binary info.span op left right
  | .assign info target value => do
      let value ← expression decls value
      assign decls info.span target value
  | .call info callee arguments => do
      let arguments ← expressions decls arguments
      call info.span callee arguments

def expressions (decls : Declarations) : List Expr → Lower (List Computation)
  | [] => return []
  | first :: rest => do
      let first ← expression decls first
      return first :: (← expressions decls rest)

end

def optional (decls : Declarations) : Option Expr → Lower (Option Computation)
  | none => return none
  | some value => some <$> expression decls value

/-- The local variables a statement declares; promoted ones live elsewhere. -/
def locals (decls : Declarations) : List DeclId → Lower (List LocalStart)
  | [] => return []
  | id :: rest => do
      match decls.asVariable id with
      | none => locals decls rest
      | some data =>
        if data.storage = .global then locals decls rest
        else
          let initial ← optional decls data.initial
          let start : LocalStart := { slot := data.slot, kind := .ofType data.type, initial }
          return start :: (← locals decls rest)

mutual

def statement (decls : Declarations) : Stmt → Lower Instruction
  | .block _ body => do return .sequence (← statements decls body)
  | .declare _ ids => do return .locals (← locals decls ids)
  | .expression span value _ => do return .evaluate span (← expression decls value)
  | .echo span value => do return .echo span (value.type == .void) (← expression decls value)
  | .branch span test yes no => do
      let code ← expression decls test
      let yes ← statement decls yes
      let no ← otherwise decls no
      return .branch span test.span code yes no
  | .loop span test body => do
      let code ← expression decls test
      let body ← statement decls body
      return .loop span test.span code body
  | .return span value =>
    match value with
    | none => return .return
    | some value => do return .returnValue span (← expression decls value)
  | .break _ => return .break
  | .continue _ => return .continue
  | .empty _ => return .nothing

def statements (decls : Declarations) : List Stmt → Lower (List Instruction)
  | [] => return []
  | first :: rest => do
      let first ← statement decls first
      return first :: (← statements decls rest)

def otherwise (decls : Declarations) : Option Stmt → Lower Instruction
  | none => return .nothing
  | some no => statement decls no

end

def function (decls : Declarations) (decl : Decl) (data : Function) (body : Stmt) :
    Lower LoweredFunction := do
  let body ← statement decls body
  let parameters := data.parameters.filterMap fun id =>
    (decls.asVariable id).map fun parameter => ValueKind.ofType parameter.type
  return {
    name := decl.name
    parameters
    result := .ofType data.result
    frame := data.frame
    body
    span := decl.span }

/-- The result of lowering; none when there was a diagnostic. -/
def result {α : Type} (lower : Lower α) : Option α × List Diagnostic :=
  let (value, reports) := lower #[]
  (if reports.isEmpty then some value else none, reports.toList)

end Lower

end FragmentCompiler
