import FragmentCompiler.Diagnostic.Bag

/-!
# The diagnostics of one call

Every compile call opens a scope, reports into it, and reads the counters.  The
same report made twice inside one scope counts once.
-/

namespace FragmentCompiler

structure Engine where
  bag : Bag
  known : List Diagnostic := []
  errors : Nat := 0
  warnings : Nat := 0
  /-- Diagnostics that did not fit into the bag. -/
  dropped : Nat := 0
  depth : Nat := 0
  deriving Repr, Inhabited

namespace Engine

def ofLimit (limit : Int) : Engine := { bag := Bag.ofLimit limit }

def record (engine : Engine) (diagnostic : Diagnostic) : Engine :=
  let (kept, bag) := engine.bag.add diagnostic
  { engine with
    bag
    errors := if diagnostic.isError then engine.errors + 1 else engine.errors
    warnings :=
      if diagnostic.severity = .warning then engine.warnings + 1 else engine.warnings
    dropped := if kept then engine.dropped else engine.dropped + 1 }

def report (engine : Engine) (diagnostic : Diagnostic) : Engine :=
  if engine.known.any diagnostic.repeats then engine
  else { engine.record diagnostic with known := diagnostic :: engine.known }

def reportAll (engine : Engine) (diagnostics : List Diagnostic) : Engine :=
  diagnostics.foldl report engine

def beginScope (engine : Engine) : Engine := { engine with depth := engine.depth + 1 }

/-- Closes the innermost scope; nothing is known any more outside all scopes. -/
def endScope (engine : Engine) : Engine :=
  let depth := engine.depth - 1
  { engine with depth, known := if depth = 0 then [] else engine.known }

def reset (engine : Engine) : Engine :=
  { engine with bag := engine.bag.cleared, known := [], errors := 0, warnings := 0, dropped := 0 }

def snapshot (engine : Engine) : Bag := engine.bag.sorted

end Engine

end FragmentCompiler
