import FragmentCompiler.Session.Basic

/-!
# Compiling a fragment

A call is one transaction: the fragment is parsed into groups, every group passes
the stages, and if nothing was wrong the unit is committed and its initializers
run.  A call that reports an error is undone.
-/

namespace FragmentCompiler.Session

/-! ## Stages -/

def handleStage (id : StageId) (store : StageStore) (group : Group) (session : Session) :
    Group × StageStore × Session :=
  match id with
  | .dynamicRewriter =>
    let analysis := session.analysis.updateDecls fun decls =>
      group.foldl Declarations.lookupsIn decls
    (group, store, { session with analysis })
  | .declExtractor =>
    let (group, analysis) := session.analysis.extractGroup group
    (group, store, { session with analysis })
  | .valuePrinter =>
    let analysis := session.analysis.updateDecls fun decls =>
      group.foldl Declarations.echoIn decls
    (group, store, { session with analysis })
  | .dumper =>
    let text := "// group of " ++ Text.decimal group.length ++ "\n" ++
      session.analysis.decls.renderGroup group
    (group, store, session.dump text)
  | .codeGenerator =>
    let (generator, reports) := session.generator.handleGroup session.analysis.decls group
    (group, store,
      { session with generator, analysis := reports.foldl Analysis.report session.analysis })
  | .snapshotWriter =>
    match store with
    | .snapshot writer groups transactions =>
      (group, .snapshot writer (groups + 1) transactions, session)
    | .nothing => (group, store, session)

def flushStage (id : StageId) (store : StageStore) (session : Session) : StageStore × Session :=
  match id, store with
  | .codeGenerator, _ => (store, { session with generator := session.generator.commit })
  | .snapshotWriter, .snapshot writer groups transactions =>
    (.snapshot writer groups (transactions + 1), session)
  | _, _ => (store, session)

def dispatch (session : Session) (group : Group) : Session :=
  let session := session.beginSpan .batch "dispatch"
  let ran := session.pipeline.enabled.map StageId.name
  let (group, pipeline, session) := session.pipeline.dispatch handleStage group session
  let session := { session with pipeline }.endSpan .batch [] [("stages", Text.join "," ran)]
  { session.drain with
    journal := session.journal.updateLast fun transaction => transaction.record group }

def flushStages (session : Session) : Session :=
  let (pipeline, session) := session.pipeline.flush flushStage session
  { session with pipeline }

/-! ## Dynamic lookup -/

def armRewriter (session : Session) : Session :=
  { session with
    pipeline := session.pipeline.restore .dynamicRewriter session.journal.dynamicLookup }

/-- Turns dynamic lookup on or off; `again` says that turning it on twice is no error. -/
def setLookup (session : Session) (on again : Bool) : Except SessionError Session :=
  let slot := session.analysis.resolver
  let fresh : Resolver := { only := session.only }
  let switched :=
    if on && !again then session.switch.enable slot fresh
    else session.switch.set slot fresh on
  match switched with
  | none => .error .resolverInstalled
  | some (switch, resolver) =>
    .ok ({ session with
      switch
      analysis := { session.analysis with resolver }
      journal := { session.journal with dynamicLookup := switch.isOn } }).armRewriter

def applyPragma (session : Session) (key value : Text) : Except Text Session :=
  if key == "dynamic_lookup" then
    if value == "on" then (session.setLookup true true).mapError SessionError.message
    else if value == "off" then (session.setLookup false true).mapError SessionError.message
    else .error ("dynamic_lookup expects on or off, got " ++ value.quote)
  else .error ("unknown pragma key " ++ key.quote)

def handlePragma (session : Session) (key value : Text) (span : Span) : Session :=
  match session.applyPragma key value with
  | .ok session => session
  | .error message =>
    let parser := session.analysis.parser.record (.error .badDirective span message)
    { session with analysis := { session.analysis with parser } }.drain

/-! ## Phases -/

/-- Takes in units until the input ends, in at most the given number of steps; the rest
is given up after them. -/
def takeUnits : Nat → Session → Session
  | 0, session =>
    { session with
      analysis := { session.analysis with parser := session.analysis.parser.abandon } }
  | fuel + 1, session =>
    let (unit, parser) := session.analysis.parser.nextUnit session.patience
    let session := { session with analysis := { session.analysis with parser } }.drain
    match unit with
    | .finished => session
    | .pragma key value span => takeUnits fuel (session.handlePragma key value span)
    | .group [] => takeUnits fuel session
    | .group group =>
      let (_, analysis) := session.analysis.checkGroup group
      takeUnits fuel ({ session with analysis }.drain.dispatch group)

def groupCount (session : Session) : Nat :=
  (session.journal.last?.map Transaction.groups).getD 0

def groupNote (count : Nat) : Text := Text.decimal count ++ " groups"

def parseInput (session : Session) : Session :=
  let (index, session) := session.beginPhase "parse"
  let session := session.beginSpan .pass "parse"
  let session := session.takeUnits session.patience
  let session := session.endSpan .pass [] []
  session.endPhase index (groupNote session.groupCount)

def dispatchFetched (session : Session) : Session :=
  let (ids, analysis) := session.analysis.takeFetched
  let session := { session with analysis }
  if ids.isEmpty then session
  else
    let (index, session) := session.beginPhase "side_effect_decls"
    let session := session.beginSpan .pass "side_effect_decls"
    let session := ids.foldl (fun session id => session.dispatch [id]) session
    let session := session.endSpan .pass (Text.decimal ids.length) []
    session.endPhase index []

def finishPending (session : Session) : Session :=
  let (index, session) := session.beginPhase "pending_work"
  let session := session.beginSpan .pass "pending_work"
  let session := { session with analysis := session.analysis.finishPending }.drain
  let session := session.endSpan .pass [] []
  session.endPhase index []

def runDiagnostic (error : RunError) : Diagnostic :=
  error.backtrace.foldl
    (fun diagnostic activation =>
      diagnostic.withNote activation.span ("in " ++ activation.function))
    (.error .runtimeError error.span error.message)

def runInitializers (session : Session) : Session :=
  let (index, session) := session.beginPhase "run_inits"
  if session.generator.queue.isEmpty then session.endPhase index []
  else
    let session := session.beginSpan .pass "run_inits"
    let (results, generator) := session.generator.runQueue session.patience
    let failed := results.filter fun result => result.error.isSome
    let session := failed.foldl
      (fun session result =>
        { session with
          trace := session.trace.point .batch "init_failed" result.initializer.name })
      { session with generator }
    let session := session.endSpan .pass [] [("count", Text.decimal results.length)]
    let reports := results.filterMap fun result => result.error.map runDiagnostic
    { session.endPhase index [] with engine := session.engine.reportAll reports }

def flush (session : Session) : Session :=
  let (index, session) := session.beginPhase "flush"
  let session := session.beginSpan .pass "flush"
  let session := session.flushStages.endSpan .pass [] []
  session.endPhase index []

def flushPending (session : Session) (transaction : Transaction) : Session :=
  let (index, session) := session.beginPhase "flush_pending"
  let session :=
    { session with
      trace := session.trace.point .pass "flush_pending" ("txn " ++ Text.decimal transaction.id)
      generator := session.generator.discard }
  let session := transaction.batches.foldl
    (fun session batch =>
      let (generator, reports) := session.generator.handleGroup session.analysis.decls batch
      { session with generator, engine := session.engine.reportAll reports })
    session
  let session := { session with generator := session.generator.commit }.flushStages
  let session := session.endPhase index (groupNote transaction.batches.length)
  let session :=
    { session with
      journal := session.journal.updateLast fun transaction => { transaction with batches := [] } }
  let session := session.runInitializers
  { session with journal := session.journal.commit }

/-! ## Calls -/

def withTimings (diagnostics : Bag) (timer : Timer) (fragment : Text) : Bag :=
  let place : Text := if fragment.isEmpty then [] else ", " ++ fragment
  let message := "timings (compile): total " ++ Decimal.fixed 2 timer.total ++ " ms" ++ place
  let entry : Diagnostic :=
    { severity := .info, code := .timings, span := Span.none, message
      notes := [⟨Span.none, (timer.record fragment).compact⟩] }
  match diagnostics.add entry with
  | (true, diagnostics) => diagnostics
  | (false, diagnostics) => diagnostics.merge ((Bag.ofLimit 1).add entry).2

def enterFragment (session : Session) (name text : Text) : Session :=
  let (id, files) := session.files.addFragment name text
  let parser := { session.analysis.parser with files }.enter id
  { session with analysis := { session.analysis with parser } }

/-- Ends a transaction: undone after an error, pending without code generation, and
committed and run otherwise. -/
def settle (session : Session) (mark : AnalysisMark) (inherited : Nat) (declOnly : Bool) :
    Session :=
  if inherited < session.engine.errors then
    { session with
      generator := session.generator.discard
      analysis := session.analysis.rollback mark
      journal := session.journal.fail }
  else if declOnly then session
  else
    let session := session.flush.runInitializers
    { session with journal := session.journal.commit }

def statusOf (errors warnings : Nat) : Status :=
  if 0 < errors then .failed else if 0 < warnings then .warnings else .success

def conclude (session : Session) (fragment : Text) : Outcome × Session :=
  let status := statusOf session.engine.errors session.engine.warnings
  let engine := session.engine.endScope
  let diagnostics := match session.timer with
    | some timer => withTimings engine.snapshot timer fragment
    | none => engine.snapshot
  let outcome : Outcome :=
    { status
      transaction := session.journal.last?.map Transaction.id
      diagnostics
      phases := (session.timer.map Timer.phases).getD [] }
  let session := { session with engine := engine.reset, timer := none }
  let session := session.endSpan .driver status.name
    [("fragment", fragment), ("groups", Text.decimal session.groupCount)]
  (outcome, session)

/-- Compiles a text as one transaction; an empty text only drains the pending
input. -/
def compileText (session : Session) (text : Text) (declOnly : Bool) : Outcome × Session :=
  let session := session.beginSpan .driver "compile"
  let session :=
    { session with
      timer := if session.timings then some {} else none
      engine := session.engine.beginScope }
  let session := match session.journal.pending? with
    | some transaction => session.flushPending transaction
    | none => session
  let inherited := session.engine.errors
  let session :=
    { session with
      generator := session.generator.discard
      pipeline := session.pipeline.resetQueue }.armRewriter
  let mark := session.analysis.mark
  let (fragment, journal) :=
    if text.isEmpty then (([] : Text), session.journal) else session.journal.nextFragment
  match journal.begin fragment with
  | none =>
    ({ Outcome.refused .transactionOpen with diagnostics := Bag.ofLimit 1 },
      { session with journal, engine := session.engine.endScope }.endSpan .driver "rejected" [])
  | some journal =>
    let session :=
      { session with
        journal := journal.updateLast fun transaction => { transaction with declOnly } }
    let session := if text.isEmpty then session else session.enterFragment fragment text
    let session := session.parseInput.dispatchFetched.finishPending
    let session := { session with journal := session.journal.markParsed }
    (session.settle mark inherited declOnly).conclude fragment

def withMode {α : Type} (session : Session) (mode : Mode) (call : Session → α × Session) :
    α × Session :=
  let on := mode = .prompt
  let (extractor, pipeline) := session.pipeline.set .declExtractor on
  let (printer, pipeline) := pipeline.set .valuePrinter on
  let (result, session) := call { session with pipeline }
  let back (id : StageId) (previous : Option Bool) (pipeline : Pipeline StageStore) :
      Pipeline StageStore :=
    match previous with
    | some previous => pipeline.restore id previous
    | none => pipeline
  (result,
    { session with
      pipeline :=
        back .valuePrinter printer (back .declExtractor extractor session.pipeline) })

def guarded {α : Type} (session : Session) (call : Session → α × Session) : α × Session :=
  let (result, session) := call { session with busy := true }
  (result, { session with busy := false })

def compile (session : Session) (text : Text) (mode : Mode) : Outcome × Session :=
  match session.refusal with
  | some error => (.refused error, session)
  | none =>
    session.guarded fun session =>
      session.withMode mode fun session => session.compileText text false

/-- Compiles a line typed at the prompt; a directive is refused. -/
def compileLine (session : Session) (line : Text) : Outcome × Session :=
  if line.trimLeft.startsWith "#" then (.refused .directiveInPrompt, session)
  else session.compile line .prompt

/-- Parses and dispatches a text without code generation; gives the dispatched
groups.  The transaction stays pending until the next call. -/
def parseDeclarations (session : Session) (text : Text) : List Group × Outcome × Session :=
  match session.refusal with
  | some error => ([], .refused error, session)
  | none =>
    let session := session.beginSpan .driver "parse_decls_only"
    let (outcome, session) := session.guarded fun session =>
      session.withMode .asIs fun session =>
        let (previous, pipeline) := session.pipeline.set .codeGenerator false
        let (outcome, session) := { session with pipeline }.compileText text true
        match previous with
        | some previous =>
          (outcome,
            { session with pipeline := session.pipeline.restore .codeGenerator previous })
        | none => (outcome, session)
    (session.pipeline.queue, outcome, session.endSpan .driver [] [])

end FragmentCompiler.Session
