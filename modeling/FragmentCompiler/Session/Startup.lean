import FragmentCompiler.Session.Compile

/-!
# Opening and closing a session

A session may start from a snapshot of an earlier one.  When there is no usable
snapshot it builds one, and compiles the runtime library.
-/

namespace FragmentCompiler.Session

/-- Turns dynamic lookup on or off; turning it on twice is an error. -/
def enableLookup (session : Session) (on : Bool) : Option SessionError × Session :=
  match session.refusal with
  | some error => (some error, session)
  | none =>
    match session.setLookup on false with
    | .ok session => (none, session)
    | .error error => (some error, session)

/-- Makes a snapshot the archive of the session.  When it cannot be loaded the
session starts to build it.  Gives whether it was loaded. -/
def loadSnapshot (session : Session) (path : Text) : Except SessionError Bool × Session :=
  match session.refusal with
  | some error => (.error error, session)
  | none =>
    if session.journal.usingSnapshot || session.journal.buildingSnapshot then
      (.error .snapshotActive, session)
    else
      let session := session.beginSpan .driver "snapshot_load"
      match Snapshot.load session.tree path with
      | .ok snapshot =>
        let count := Text.decimal snapshot.entries.length
        let session :=
          { session with
            analysis := { session.analysis with archive := some snapshot.archive }
            snapshot := some snapshot
            journal := { session.journal with usingSnapshot := true } }
        (.ok true, session.endSpan .driver "loaded" [("decls", count)])
      | .error reason =>
        let session := session.endSpan .driver "build" [("reason", reason.message)]
        match SnapshotWriter.create session.tree path with
        | .error error => (.error (.startup path error), session)
        | .ok (writer, tree) =>
          let session := session.withTree tree
          let (_, pipeline) :=
            session.pipeline.register .snapshotWriter (.snapshot writer 0 0) true
          (.ok false,
            { session with
              pipeline
              journal := { session.journal with buildingSnapshot := true } })

def writeSnapshot (session : Session) : Option SessionError × Session :=
  match session.refusal with
  | some error => (some error, session)
  | none =>
    match session.journal.buildingSnapshot, session.pipeline.slot? .snapshotWriter with
    | true, some { stage := .snapshot writer groups transactions, .. } =>
      let session := session.beginSpan .driver "snapshot_write"
      let (failure, _, tree) :=
        writer.write session.tree session.version session.analysis.exported
      let session :=
        { session.withTree tree with
          pipeline := (session.pipeline.remove .snapshotWriter).2
          journal := { session.journal with buildingSnapshot := false } }
      (failure.map SessionError.snapshot,
        session.endSpan .driver []
          [("path", writer.path), ("groups", Text.decimal groups),
            ("txns", Text.decimal transactions)])
    | _, _ => (some .noSnapshotSink, session)

def closeStage (session : Session) (store : StageStore) : Option SnapshotError × Session :=
  match store with
  | .nothing => (none, session)
  | .snapshot writer _ _ =>
    let (failure, _, tree) := writer.close session.tree
    (failure, session.withTree tree)

def closeStages (session : Session) : Option SnapshotError × Session :=
  let (stages, pipeline) := session.pipeline.close
  stages.foldl
    (fun (failure, session) stage =>
      let (other, session) := session.closeStage stage
      (failure.or other, session))
    (none, { session with pipeline })

/-- Closes the session; closing it again does nothing. -/
def close (session : Session) : Option SessionError × Session :=
  if session.closed then (none, session)
  else if session.busy then (some .reentrant, session)
  else
    let (switch, resolver) := session.switch.disable session.analysis.resolver
    let (failure, session) :=
      { session with
        closed := true
        switch
        analysis := { session.analysis with resolver } }.closeStages
    (failure.map SessionError.snapshot,
      { session with
        journal := { session.journal with buildingSnapshot := false }
        generator := session.generator.release })

def failureOf (outcome : Outcome) : SessionError :=
  match outcome.diagnostics.items.find? fun entry => entry.severity.isError with
  | some entry => .bootstrap entry.message
  | none => .bootstrap "unknown error"

def compileAll (session : Session) : List Text → Option SessionError × Session
  | [] => (none, session)
  | text :: rest =>
    let (outcome, session) := session.compile text .asIs
    if outcome.isFine then session.compileAll rest else (some (failureOf outcome), session)

def bootstrap (session : Session) : Option SessionError × Session :=
  session.compileAll [[], "#include " ++ Buffer.runtimeName.quote]

def initialStages : Pipeline StageStore :=
  [(StageId.dynamicRewriter, false), (.declExtractor, true), (.valuePrinter, true),
    (.dumper, false), (.codeGenerator, true)].foldl
    (fun pipeline (id, on) => (pipeline.register id .nothing on).2) {}

def fresh (front : AnalysisSetup) (back : MachineSetup) (options : SessionOptions)
    (tree : FileTree) : Session :=
  let parser : Parser :=
    { files :=
        { baseDirectory := front.baseDirectory, workingDirectory := tree.workingDirectory }
      tree
      includePaths := front.includePaths
      virtuals := [(Buffer.runtimeName, runtimeSource)]
      takesPragmas := true }
  { analysis := { parser }
    engine := .ofLimit (if front.maxDiagnostics ≤ 0 then 256 else front.maxDiagnostics)
    generator := { machine := .ofDepthLimit back.depthLimit }
    pipeline := initialStages
    only := options.only
    timings := options.timings
    version := options.version
    trace := { level := options.traceLevel } }

def start (session : Session) (options : SessionOptions) : Option SessionError × Session :=
  let (failure, session) :=
    if options.dynamicLookup then session.enableLookup true else (none, session)
  let (failure, session) :=
    if failure.isSome || options.snapshotPath.isEmpty then (failure, session)
    else
      match session.loadSnapshot options.snapshotPath with
      | (.ok _, session) => (none, session)
      | (.error error, session) => (some error, session)
  if failure.isSome || session.journal.usingSnapshot || options.noBootstrap then
    (failure, session)
  else
    match session.bootstrap with
    | (some error, session) => (some error, session.close.2)
    | (none, session) => (none, session)

/-- Opens a session over files; gives the session or what is wrong, and the files as
they are then. -/
def openOver (options : SessionOptions) (tree : FileTree) :
    Except SessionError Session × FileTree :=
  match options.front, options.back with
  | none, _ => (.error .noFrontend, tree)
  | some _, none => (.error .noBackend, tree)
  | some front, some back =>
    match (fresh front back options tree).start options with
    | (some error, session) => (.error error, session.tree)
    | (none, session) => (.ok session, session.tree)

end FragmentCompiler.Session
