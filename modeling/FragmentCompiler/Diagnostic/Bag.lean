import FragmentCompiler.Diagnostic.Basic

/-!
# Bags

A bag collects diagnostics up to a limit.
-/

namespace FragmentCompiler

structure Bag where
  items : List Diagnostic := []
  limit : Nat := 100
  deriving Repr, Inhabited

namespace Bag

def largestLimit : Nat := 65535

/-- An empty bag; a limit that is not positive means the usual one. -/
def ofLimit (limit : Int) : Bag :=
  { limit := if limit ≤ 0 then 100 else min limit.toNat largestLimit }

def add (bag : Bag) (diagnostic : Diagnostic) : Bool × Bag :=
  if bag.limit ≤ bag.items.length then (false, bag)
  else (true, { bag with items := bag.items ++ [diagnostic] })

def addAll (bag : Bag) (diagnostics : List Diagnostic) : Bag :=
  diagnostics.foldl (fun current diagnostic => (current.add diagnostic).2) bag

def merge (bag other : Bag) : Bag :=
  let total := bag.items.length + other.items.length
  { items := bag.items ++ other.items
    limit := if bag.limit < total then min total largestLimit else bag.limit }

def cleared (bag : Bag) : Bag := { bag with items := [] }

def sorted (bag : Bag) : Bag := { bag with items := Diagnostic.sorted bag.items }

def distinctFrom (seen : List (Text × Span)) : List Diagnostic → List Diagnostic
  | [] => []
  | diagnostic :: rest =>
    let key := (diagnostic.code.identifier, diagnostic.span)
    if seen.contains key then distinctFrom seen rest
    else diagnostic :: distinctFrom (key :: seen) rest

def distinct (bag : Bag) : Bag := { bag with items := distinctFrom [] bag.items }

def keepFrom (bag : Bag) (severity : Severity) : Bag :=
  { bag with items := bag.items.filter fun item => severity.rank ≤ item.severity.rank }

def hasErrors (bag : Bag) : Bool := bag.items.any (·.isError)

def hasWarnings (bag : Bag) : Bool :=
  bag.items.any fun item => Severity.warning.rank ≤ item.severity.rank

end Bag

end FragmentCompiler
