import FragmentCompiler.Lowering.Lower
import FragmentCompiler.Machine.Step

/-!
# Code generation

One compile call makes one unit.  Groups are lowered into the pending unit; when
the unit is committed, its variables and functions join the machine and its
initializers join the queue.  Each queued initializer runs exactly once.
-/

namespace FragmentCompiler

inductive InitialAction where
  | assign (id : DeclId) (value : Computation)
  | invoke (function : LoweredFunction)
  deriving Repr, Inhabited

structure Initializer where
  name : Text
  span : Span
  action : InitialAction
  deriving Repr, Inhabited

structure GlobalStart where
  id : DeclId
  name : Text
  kind : ValueKind
  deriving DecidableEq, Repr, Inhabited

structure CodeUnit where
  globals : List GlobalStart := []
  functions : List LoweredFunction := []
  fetched : List Initializer := []
  initializers : List Initializer := []
  groups : Nat := 0
  deriving Repr, Inhabited

structure Generator where
  machine : Machine := {}
  pending : CodeUnit := {}
  queue : List Initializer := []
  released : Bool := false
  deriving Inhabited

namespace CodeUnit

def addInitializer (unit : CodeUnit) (decl : Decl) (action : InitialAction) : CodeUnit :=
  let initializer : Initializer := { name := decl.name, span := decl.span, action }
  if decl.external then { unit with fetched := unit.fetched ++ [initializer] }
  else { unit with initializers := unit.initializers ++ [initializer] }

def addVariable (unit : CodeUnit) (decls : Declarations) (id : DeclId) (decl : Decl)
    (data : Variable) : CodeUnit × List Diagnostic :=
  if data.storage ≠ .global then (unit, [])
  else
    let start : GlobalStart := { id, name := decl.name, kind := .ofType data.type }
    let unit := { unit with globals := unit.globals ++ [start] }
    match data.initial with
    | none => (unit, [])
    | some value =>
      match (Lower.expression decls value).result with
      | (some code, reports) => (unit.addInitializer decl (.assign id code), reports)
      | (none, reports) => (unit, reports)

/-- Lowers a function or a wrapper; a prototype has no code. -/
def addFunction (unit : CodeUnit) (decls : Declarations) (decl : Decl) (data : Function) :
    CodeUnit × List Diagnostic :=
  match data.body with
  | none => (unit, [])
  | some body =>
    match (Lower.function decls decl data body).result with
    | (none, reports) => (unit, reports)
    | (some function, reports) =>
      if decl.isWrapper then (unit.addInitializer decl (.invoke function), reports)
      else ({ unit with functions := unit.functions ++ [function] }, reports)

def addDecl (unit : CodeUnit) (decls : Declarations) (id : DeclId) : CodeUnit × List Diagnostic :=
  match decls.get? id with
  | none => (unit, [])
  | some decl =>
    if decl.invalid then (unit, [])
    else
      match decl.body with
      | .variable data => unit.addVariable decls id decl data
      | .function data | .wrapper data => unit.addFunction decls decl data

def addAll (unit : CodeUnit) (decls : Declarations) : Group → CodeUnit × List Diagnostic
  | [] => (unit, [])
  | id :: rest =>
    let (unit, reports) := unit.addDecl decls id
    let (unit, others) := unit.addAll decls rest
    (unit, reports ++ others)

end CodeUnit

structure InitializerResult where
  initializer : Initializer
  error : Option RunError
  deriving Repr, Inhabited

namespace Generator

def handleGroup (generator : Generator) (decls : Declarations) (group : Group) :
    Generator × List Diagnostic :=
  if generator.released then (generator, [])
  else
    let unit := { generator.pending with groups := generator.pending.groups + 1 }
    let (pending, reports) := unit.addAll decls group
    ({ generator with pending }, reports)

def discard (generator : Generator) : Generator := { generator with pending := {} }

def commit (generator : Generator) : Generator :=
  if generator.released then generator
  else
    let unit := generator.pending
    let machine := unit.globals.foldl
      (fun machine start => machine.define start.id start.name start.kind) generator.machine
    let machine := unit.functions.foldl Machine.addFunction machine
    { generator with
      machine
      pending := {}
      queue := generator.queue ++ unit.fetched ++ unit.initializers }

def runInitializer (fuel : Nat) (machine : Machine) (initializer : Initializer) :
    InitializerResult × Machine :=
  let fails (error : RunError) : InitializerResult := { initializer, error := some error }
  let fine : InitializerResult := { initializer, error := none }
  match initializer.action with
  | .invoke function =>
    match machine.invoke fuel function [] initializer.span with
    | (.failed error, machine) => (fails error, machine)
    | (_, machine) => (fine, machine)
  | .assign id value =>
    let frame : Frame := { function := initializer.name, span := initializer.span }
    match machine.evaluate fuel frame value with
    | (.failed error, machine) => (fails error, machine)
    | (.unfinished, machine) => (fine, machine)
    | (.finished value, machine) =>
      match machine.global? id with
      | some _ => (fine, machine.assign id value)
      | none =>
        (fails ⟨.undefinedGlobal initializer.name, initializer.span, []⟩, machine)

/-- Runs initializers in order; a failing one does not stop the others. -/
def runAll (fuel : Nat) (machine : Machine) : List Initializer →
    List InitializerResult × Machine
  | [] => ([], machine)
  | initializer :: rest =>
    let (result, machine) := runInitializer fuel machine initializer
    let (results, machine) := runAll fuel machine rest
    (result :: results, machine)

def runQueue (generator : Generator) (fuel : Nat) : List InitializerResult × Generator :=
  let (results, machine) := runAll fuel generator.machine generator.queue
  (results, { generator with machine, queue := [] })

def release (generator : Generator) : Generator :=
  { generator with pending := {}, queue := [], released := true }

end Generator

end FragmentCompiler
