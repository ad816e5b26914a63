import FragmentCompiler.Text.Basic

/-!
# Open braces

A line that leaves a brace or a comment open continues on the next line.  Braces
inside string literals and comments do not count.
-/

namespace FragmentCompiler

structure Balance where
  depth : Int := 0
  inComment : Bool := false
  deriving DecidableEq, Repr, Inhabited

namespace Balance

inductive Place where
  | code
  | string
  | comment
  deriving DecidableEq, Repr, Inhabited

/-- Reads the rest of a line.  A string ends with its line. -/
def scan (depth : Int) : Place → Text → Balance
  | place, [] => { depth, inComment := place = .comment }
  | .comment, 42 :: 47 :: rest => scan depth .code rest
  | .comment, _ :: rest => scan depth .comment rest
  | .string, 92 :: _ :: rest => scan depth .string rest
  | .string, 34 :: rest => scan depth .code rest
  | .string, _ :: rest => scan depth .string rest
  | .code, 34 :: rest => scan depth .string rest
  | .code, 47 :: 47 :: _ => { depth, inComment := false }
  | .code, 47 :: 42 :: rest => scan depth .comment rest
  | .code, 123 :: rest => scan (depth + 1) .code rest
  | .code, 125 :: rest => scan (depth - 1) .code rest
  | .code, _ :: rest => scan depth .code rest

/-- What a line alone opens, given whether it begins inside a comment. -/
def ofLine (inComment : Bool) (line : Text) : Balance :=
  scan 0 (if inComment then .comment else .code) line

def add (balance : Balance) (line : Text) : Balance :=
  let next := ofLine balance.inComment line
  { next with depth := balance.depth + next.depth }

def isOpen (balance : Balance) : Bool := 0 < balance.depth || balance.inComment

end Balance

end FragmentCompiler
