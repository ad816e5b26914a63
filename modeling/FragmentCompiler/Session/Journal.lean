import FragmentCompiler.Syntax.Basic

/-!
# The journal of a session

Every compile call is a transaction.  The journal numbers fragments, keeps all
transactions and knows which one is open.
-/

namespace FragmentCompiler

inductive TransactionState where
  | opened
  | parsed
  | committed
  | failed
  deriving DecidableEq, Repr, Inhabited

def TransactionState.name : TransactionState → Text
  | .opened => "open"
  | .parsed => "parsed"
  | .committed => "committed"
  | .failed => "failed"

structure Transaction where
  id : Nat
  /-- The name of the buffer; empty when the call only drained pending input. -/
  fragment : Text
  first : DeclId := 0
  last : DeclId := 0
  decls : List DeclId := []
  groups : Nat := 0
  state : TransactionState := .opened
  /-- The call bypassed code generation. -/
  declOnly : Bool := false
  /-- The dispatched groups of such a call, until they are lowered. -/
  batches : List Group := []
  deriving DecidableEq, Repr, Inhabited

namespace Transaction

/-- Notes a dispatched group; an empty one leaves no trace. -/
def record (transaction : Transaction) (group : Group) : Transaction :=
  match group with
  | [] => transaction
  | first :: rest =>
    { transaction with
      first := if transaction.first = 0 then first else transaction.first
      last := (first :: rest).getLastD 0
      decls := transaction.decls ++ group
      groups := transaction.groups + 1
      batches :=
        if transaction.declOnly then transaction.batches ++ [group] else transaction.batches }

def isEmpty (transaction : Transaction) : Bool := transaction.groups = 0

def isDone (transaction : Transaction) : Bool :=
  transaction.state = .committed || transaction.state = .failed

end Transaction

structure Journal where
  fragments : Nat := 0
  log : List Transaction := []
  isOpen : Bool := false
  errors : Nat := 0
  warnings : Nat := 0
  dynamicLookup : Bool := false
  usingSnapshot : Bool := false
  buildingSnapshot : Bool := false
  deriving DecidableEq, Repr, Inhabited

namespace Journal

def last? (journal : Journal) : Option Transaction := journal.log.getLast?

def open? (journal : Journal) : Option Transaction :=
  if journal.isOpen then journal.last? else none

def pending? (journal : Journal) : Option Transaction :=
  match journal.last? with
  | some transaction => if transaction.state = .parsed then some transaction else none
  | none => none

def nextFragment (journal : Journal) : Text × Journal :=
  let number := journal.fragments + 1
  ("input_line_" ++ Text.decimal number, { journal with fragments := number })

def updateLast (journal : Journal) (change : Transaction → Transaction) : Journal :=
  match journal.last? with
  | some transaction => { journal with log := journal.log.dropLast ++ [change transaction] }
  | none => journal

def update (journal : Journal) (id : Nat) (change : Transaction → Transaction) : Journal :=
  { journal with
    log := journal.log.map fun transaction =>
      if transaction.id = id then change transaction else transaction }

def begin (journal : Journal) (fragment : Text) : Option Journal :=
  if journal.isOpen then none
  else
    let transaction : Transaction := { id := journal.log.length + 1, fragment }
    some { journal with log := journal.log ++ [transaction], isOpen := true }

def markParsed (journal : Journal) : Journal :=
  if journal.isOpen then
    { journal.updateLast (fun transaction => { transaction with state := .parsed }) with
      isOpen := false }
  else journal

def close (journal : Journal) (state : TransactionState) : Journal :=
  if journal.isOpen || journal.pending?.isSome then
    { journal.updateLast (fun transaction => { transaction with state }) with isOpen := false }
  else journal

def commit (journal : Journal) : Journal := journal.close .committed

def fail (journal : Journal) : Journal := journal.close .failed

def setCounters (journal : Journal) (errors warnings : Nat) : Journal :=
  { journal with errors, warnings }

end Journal

end FragmentCompiler
