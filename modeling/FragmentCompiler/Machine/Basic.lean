import FragmentCompiler.Machine.Code
import FragmentCompiler.Machine.Fault

/-!
# The machine

What survives between runs: global variables, functions and what was printed.  The frames
of the calls being run are on the machine too.
-/

namespace FragmentCompiler

structure Global where
  id : DeclId
  name : Text
  kind : ValueKind
  value : Value
  deriving Repr, Inhabited

structure Frame where
  function : Text := []
  slots : Array Value := #[]
  span : Span := Span.none
  result : Value := .nothing
  deriving Repr, Inhabited

structure Machine where
  globals : List Global := []
  names : List (Text × DeclId) := []
  functions : List (Text × LoweredFunction) := []
  depthLimit : Nat := 4096
  /-- The calls being run, innermost first. -/
  stack : List Frame := []
  /-- What was printed and not yet taken, latest first. -/
  printed : List Text := []
  deriving Inhabited

namespace Machine

def ofDepthLimit (limit : Int) : Machine :=
  if limit ≤ 0 then {} else { depthLimit := limit.toNat }

def put {α : Type} (name : Text) (value : α) : List (Text × α) → List (Text × α)
  | [] => [(name, value)]
  | (known, old) :: rest =>
    if known == name then (known, value) :: rest else (known, old) :: put name value rest

def global? (machine : Machine) (id : DeclId) : Option Global :=
  machine.globals.find? fun entry => entry.id == id

def named? (machine : Machine) (name : Text) : Option Global :=
  (machine.names.lookup name).bind machine.global?

def define (machine : Machine) (id : DeclId) (name : Text) (kind : ValueKind) : Machine :=
  match machine.global? id with
  | some _ => machine
  | none =>
    { machine with
      globals := machine.globals ++ [{ id, name, kind, value := .zero kind }]
      names := put name id machine.names }

def assign (machine : Machine) (id : DeclId) (value : Value) : Machine :=
  { machine with
    globals := machine.globals.map fun entry =>
      if entry.id == id then { entry with value } else entry }

def globalNames (machine : Machine) : List Text := Text.sort (machine.names.map Prod.fst)

def function? (machine : Machine) (name : Text) : Option LoweredFunction :=
  machine.functions.lookup name

def addFunction (machine : Machine) (function : LoweredFunction) : Machine :=
  { machine with functions := put function.name function machine.functions }

def push (machine : Machine) (frame : Frame) : Machine :=
  { machine with stack := frame :: machine.stack }

def pop (machine : Machine) : Machine := { machine with stack := machine.stack.tail }

def print (machine : Machine) (text : Text) : Machine :=
  { machine with printed := text :: machine.printed }

def takePrinted (machine : Machine) : Text × Machine :=
  (machine.printed.reverse.flatten, { machine with printed := [] })

end Machine

end FragmentCompiler
