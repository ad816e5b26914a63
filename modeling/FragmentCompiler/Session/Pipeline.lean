import FragmentCompiler.Syntax.Basic

/-!
# The stages of a session

Every group of declarations passes the enabled stages in the order in which they
were registered.
-/

namespace FragmentCompiler

inductive StageId where
  | dynamicRewriter
  | declExtractor
  | valuePrinter
  | dumper
  | codeGenerator
  | snapshotWriter
  deriving DecidableEq, Repr, Inhabited

namespace StageId

def name : StageId → Text
  | .dynamicRewriter => "dynamic_rewriter"
  | .declExtractor => "decl_extractor"
  | .valuePrinter => "value_printer"
  | .dumper => "dumper"
  | .codeGenerator => "codegen"
  | .snapshotWriter => "snapshot_writer"

def all : List StageId :=
  [.dynamicRewriter, .declExtractor, .valuePrinter, .dumper, .codeGenerator, .snapshotWriter]

def index : StageId → Fin 6
  | .dynamicRewriter => 0
  | .declExtractor => 1
  | .valuePrinter => 2
  | .dumper => 3
  | .codeGenerator => 4
  | .snapshotWriter => 5

def ofText? (name : Text) : Option StageId := all.find? fun stage => stage.name == name

end StageId

structure StageSlot (α : Type) where
  stage : α
  enabled : Bool
  deriving Repr, Inhabited

structure StageEntry (α : Type) extends StageSlot α where
  id : StageId
  deriving Repr, Inhabited

/-- A slot for each stage, and the order in which the occupied ones were filled. -/
structure Pipeline (α : Type) where
  slots : Vector (Option (StageSlot α)) 6 := .replicate 6 none
  order : List StageId := []
  queue : List Group := []
  deriving Repr, Inhabited

namespace Pipeline

variable {α σ : Type}

def slot? (pipeline : Pipeline α) (id : StageId) : Option (StageSlot α) := pipeline.slots[id.index]

def place (pipeline : Pipeline α) (id : StageId) (slot : Option (StageSlot α)) : Pipeline α :=
  { pipeline with slots := pipeline.slots.set id.index slot }

def has (pipeline : Pipeline α) (id : StageId) : Bool := (pipeline.slot? id).isSome

def isEnabled (pipeline : Pipeline α) (id : StageId) : Bool :=
  match pipeline.slot? id with
  | some slot => slot.enabled
  | none => false

/-- The registered stages in the order in which a group passes them. -/
def entries (pipeline : Pipeline α) : List (StageEntry α) :=
  pipeline.order.filterMap fun id => (pipeline.slot? id).map fun slot => { slot with id }

/-- Registers a stage last, unless its slot is taken.  Code generation always starts
enabled. -/
def register (pipeline : Pipeline α) (id : StageId) (stage : α) (enabled : Bool) :
    Bool × Pipeline α :=
  if pipeline.has id then (false, pipeline)
  else
    let slot : StageSlot α := { stage, enabled := enabled || id == .codeGenerator }
    (true, { pipeline with order := pipeline.order ++ [id] }.place id (some slot))

/-- Frees a slot and takes it out of the order. -/
def remove (pipeline : Pipeline α) (id : StageId) : Option α × Pipeline α :=
  match pipeline.slot? id with
  | none => (none, pipeline)
  | some slot =>
    let order := pipeline.order.eraseIdx (pipeline.order.idxOf id)
    (some slot.stage, { pipeline with order }.place id none)

/-- Enables or disables a stage; gives its previous state if it is registered. -/
def set (pipeline : Pipeline α) (id : StageId) (enabled : Bool) : Option Bool × Pipeline α :=
  let slot := pipeline.slot? id
  (slot.map StageSlot.enabled, pipeline.place id (slot.map fun slot => { slot with enabled }))

def restore (pipeline : Pipeline α) (id : StageId) (previous : Bool) : Pipeline α :=
  (pipeline.set id previous).2

/-- Visits the enabled stages of a list, one after the other. -/
def visit (handle : StageId → α → σ → α × σ) :
    List StageId → Pipeline α → σ → Pipeline α × σ
  | [], pipeline, state => (pipeline, state)
  | id :: rest, pipeline, state =>
    match pipeline.slot? id with
    | some { stage, enabled := true } =>
      let (stage, state) := handle id stage state
      visit handle rest (pipeline.place id (some { stage, enabled := true })) state
    | _ => visit handle rest pipeline state

def pass (handle : StageId → α → Group → σ → Group × α × σ) (id : StageId) (stage : α)
    (state : Group × σ) : α × Group × σ :=
  let (group, stage, state) := handle id stage state.1 state.2
  (stage, group, state)

/-- Hands a group to the enabled stages; each sees it as the one before left it. -/
def dispatch (pipeline : Pipeline α) (handle : StageId → α → Group → σ → Group × α × σ)
    (group : Group) (state : σ) : Group × Pipeline α × σ :=
  let (pipeline, group, state) := visit (pass handle) pipeline.order pipeline (group, state)
  (group, { pipeline with queue := pipeline.queue ++ [group] }, state)

def enabled (pipeline : Pipeline α) : List StageId := pipeline.order.filter pipeline.isEnabled

def flush (pipeline : Pipeline α) (handle : StageId → α → σ → α × σ) (state : σ) : Pipeline α × σ :=
  visit handle pipeline.order pipeline state

def resetQueue (pipeline : Pipeline α) : Pipeline α := { pipeline with queue := [] }

/-- Removes the latest stage over and over; gives the stages as they are closed. -/
def closeLast : Nat → Pipeline α → List α × Pipeline α
  | 0, pipeline => ([], pipeline)
  | count + 1, pipeline =>
    match pipeline.order.getLast? with
    | none => ([], pipeline)
    | some id =>
      let (stage, pipeline) := pipeline.remove id
      let (stages, pipeline) := closeLast count pipeline
      (stage.toList ++ stages, pipeline)

def close (pipeline : Pipeline α) : List α × Pipeline α := closeLast pipeline.order.length pipeline

end Pipeline

end FragmentCompiler
