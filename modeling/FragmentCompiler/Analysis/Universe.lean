import FragmentCompiler.Syntax.Basic

/-!
# The universe of global names

All names a session knows outside functions.  Changes are logged, so that a
rejected fragment leaves no trace: rolling back to a mark undoes every change
made after the mark was taken.
-/

namespace FragmentCompiler

inductive Builtin where
  | print
  | len
  | str
  deriving DecidableEq, Repr, Inhabited

namespace Builtin

def name : Builtin → Text
  | .print => "print"
  | .len => "len"
  | .str => "str"

def all : List Builtin := [.print, .len, .str]

def ofText? (name : Text) : Option Builtin := all.find? fun builtin => builtin.name == name

end Builtin

inductive Meaning where
  | variable (id : DeclId)
  | function (id : DeclId)
  | builtin (which : Builtin)
  deriving DecidableEq, Repr, Inhabited

namespace Meaning

/-- The declaration behind a name; zero for a built-in function. -/
def decl : Meaning → DeclId
  | .variable id | .function id => id
  | .builtin _ => 0

def isBuiltin : Meaning → Bool
  | .builtin _ => true
  | _ => false

def isFunction : Meaning → Bool
  | .function _ => true
  | _ => false

end Meaning

structure NameChange where
  name : Text
  before : Option Meaning
  deriving DecidableEq, Repr, Inhabited

structure Universe where
  names : List (Text × Meaning) := Builtin.all.map fun builtin => (builtin.name, .builtin builtin)
  /-- The declared names in the order they became known. -/
  order : List Text := []
  changes : List NameChange := []
  deriving Repr, Inhabited

namespace Universe

def lookup (names : Universe) (name : Text) : Option Meaning := names.names.lookup name

/-- The table with a name standing for something else; a new name comes last. -/
def assign (name : Text) (meaning : Meaning) : List (Text × Meaning) → List (Text × Meaning)
  | [] => [(name, meaning)]
  | (known, old) :: rest =>
    if known == name then (known, meaning) :: rest
    else (known, old) :: assign name meaning rest

def declare (names : Universe) (name : Text) (meaning : Meaning) : Universe :=
  let before := names.lookup name
  { names := assign name meaning names.names
    order := if before.isNone then names.order ++ [name] else names.order
    changes := { name, before } :: names.changes }

def mark (names : Universe) : Nat := names.changes.length

def undo (names : Universe) (change : NameChange) : Universe :=
  match change.before with
  | some meaning => { names with names := assign change.name meaning names.names }
  | none =>
    { names with
      names := names.names.filter fun entry => entry.1 != change.name
      order :=
        if names.order.getLast? == some change.name then names.order.dropLast
        else names.order }

def undoDownTo (point : Nat) : List NameChange → Universe → Universe
  | [], names => names
  | change :: rest, names =>
    if rest.length < point then names
    else undoDownTo point rest { names.undo change with changes := rest }

def rollback (names : Universe) (point : Nat) : Universe :=
  undoDownTo point names.changes names

end Universe

end FragmentCompiler
