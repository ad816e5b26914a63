import FragmentCompiler.CommandLine.Help
import FragmentCompiler.CommandLine.Settings
import FragmentCompiler.Script.Batch
import FragmentCompiler.Shell.Command
import FragmentCompiler.Trace.Store

/-!
# Running a command

A command line with the files it can reach leads to a result, or to a shell that
takes lines until it is left.
-/

namespace FragmentCompiler

inductive CommandError where
  | unknownWord (word : Text)
  | flags (cause : FlagError)
  | unexpected (word : Text) (command : Command)
  | wrongCount (expected received : Nat)
  | tooFew (least received : Nat)
  /-- A setting of the trace, with what is wrong with it. -/
  | traceSetting (what reason : Text)
  | traceSetup (cause : TraceError)
  | settings (cause : SettingsError)
  | session (cause : SessionError)
  | batch (cause : BatchError)
  | file (cause : FileError)
  | snapshot (cause : SnapshotError)
  | snapshotExists (path : Text)
  | notFine (path : Text) (status : Status)
  | someFailed (failed all : Nat)
  | versionFormat (word : Text)

namespace CommandError

def message : CommandError → Text
  | .unknownWord word =>
    let similar := Command.suggestions word
    let line (name : Text) : Text := "\t" ++ name ++ "\n"
    let hint : Text :=
      if similar.isEmpty then [] else "\n\nDid you mean this?\n" ++ similar.flatMap line
    "unknown command " ++ word.quote ++ " for \"kiln\"" ++ hint
  | .flags cause => cause.message
  | .unexpected word command => "unknown command " ++ word.quote ++ " for " ++ command.path.quote
  | .wrongCount expected received =>
    "accepts " ++ Text.decimal expected ++ " arg(s), received " ++ Text.decimal received
  | .tooFew least received =>
    "requires at least " ++ Text.decimal least ++ " arg(s), only received " ++
      Text.decimal received
  | .traceSetting what reason => "invalid trace " ++ what ++ ": " ++ reason
  | .traceSetup cause => "failed to create tracer: " ++ cause.message
  | .settings cause => cause.message
  | .session cause => cause.message
  | .batch cause => cause.message
  | .file cause => cause.message
  | .snapshot cause => cause.message
  | .snapshotExists path => path ++ " already exists (use --force to overwrite)"
  | .notFine path status => path ++ ": " ++ status.name
  | .someFailed failed all =>
    Text.decimal failed ++ " of " ++ Text.decimal all ++ " file(s) failed"
  | .versionFormat word => "unsupported format " ++ word.quote ++ " (must be pretty or json)"

def report (error : CommandError) : Text :=
  let hint : Text := match error with
    | .unknownWord _ => "Run 'kiln --help' for usage.\n"
    | _ => []
  "Error: " ++ error.message ++ "\n" ++ hint

end CommandError

structure Console where
  out : Text := []
  err : Text := []
  tree : FileTree
  onTerminal : Bool := false
  tracer : Tracer := {}

structure CommandResult where
  status : Nat := 0
  out : Text := []
  err : Text := []
  tree : FileTree

structure ShellStart where
  shell : Shell
  banner : Text := []
  prompt : Text
  history : Text := []
  console : Console

inductive CommandStep where
  | finished (result : CommandResult)
  | shell (start : ShellStart)

namespace Console

def print (console : Console) (text : Text) : Console :=
  { console with out := console.out ++ text }

def warn (console : Console) (text : Text) : Console :=
  { console with err := console.err ++ text }

def endTrace (console : Console) : Console :=
  let tracer := console.tracer.close
  match tracer.file with
  | some path =>
    { console with tree := (console.tree.write path tracer.content).toOption.getD console.tree }
  | none => console.warn tracer.content

def finish (console : Console) (error : Option CommandError) : CommandResult :=
  let report : Text := match error with
    | some error => error.report
    | none => []
  let console := (console.warn report).endTrace
  { status := if error.isSome then 1 else 0
    out := console.out
    err := console.err
    tree := console.tree }

def fail (console : Console) (error : CommandError) : CommandResult := console.finish (some error)

def succeed (console : Console) : CommandResult := console.finish none

def printFrom (console : Console) (session : Session) : Console × Session :=
  let (parts, session) := session.takeOutput
  (console.print (parts.flatMap OutputPart.programText), session)

def leave (console : Console) (session : Session) : Console :=
  let session := session.close.2
  let (events, _) := session.trace.take
  { console with
    tree := session.tree
    tracer := events.foldl (fun tracer event => tracer.emit event) console.tracer }

def openSession (console : Console) (settings : Settings) : Except CommandResult Session :=
  match Session.openOver (settings.sessionOptions console.tracer.level) console.tree with
  | (.ok session, _) => .ok session
  | (.error error, tree) => .error ({ console with tree }.fail (.session error))

def loadSettings (console : Console) (reading : FlagReading) : Except CommandResult Settings :=
  match Settings.load console.tree console.onTerminal reading with
  | .ok settings => .ok settings
  | .error error => .error (console.fail (.settings error))

end Console

namespace CommandLine

def clock : TraceClock := { stamp := fun _ => "[   0.000ms] ", offset := fun _ => 0 }

def startTrace (tree : FileTree) (reading : FlagReading) :
    Except CommandError (Tracer × FileTree) := do
  let output := reading.word "trace" []
  let setting {α : Type} (what : Text) (parsed : Except Text α) : Except CommandError α :=
    parsed.mapError (.traceSetting what)
  let level ← setting "level" (TraceLevel.parse (reading.word "trace-level" "off"))
  if level = .off && output.isEmpty then return ({}, tree)
  let mode ← setting "mode" (TraceMode.parse (reading.word "trace-mode" "stream"))
  let format ← setting "format" (TraceFormat.parse (reading.word "trace-format" "auto"))
  let setup : TraceSetup :=
    { level := if level = .off then .phase else level
      mode := some mode
      format
      output
      capacity := reading.number "trace-ring-size" 4096 }
  (Tracer.create setup clock tree).mapError .traceSetup

def checkArguments (command : Command) (arguments : List Text) : Option CommandError :=
  match command.rule, arguments with
  | .nothing, word :: _ => some (.unexpected word command)
  | .exactly count, _ =>
    if arguments.length = count then none else some (.wrongCount count arguments.length)
  | .atLeast count, _ =>
    if count ≤ arguments.length then none else some (.tooFew count arguments.length)
  | _, _ => none

def startShell (console : Console) (reading : FlagReading) : CommandStep :=
  match console.loadSettings reading with
  | .error result => .finished result
  | .ok settings =>
    match console.openSession settings with
    | .error result => .finished result
    | .ok session =>
      .shell
        { shell := { session, style := settings.style }
          banner := if settings.style.coloured then Shell.banner session else []
          prompt := settings.config.prompt
          history := settings.config.history
          console }

def runScripts (console : Console) (reading : FlagReading) : CommandResult :=
  match console.loadSettings reading with
  | .error result => result
  | .ok settings =>
    let progress := reading.word "ui" "auto"
    if (Choice.ofProgressWord? progress).isNone then
      console.fail (.settings (.progress progress))
    else
      match console.openSession settings with
      | .error result => result
      | .ok session =>
        let paths := reading.arguments
        let (result, session) := Batch.run session
          (some { paths, directory := settings.directory, keepGoing := reading.isOn "keep-going" })
        let (console, session) := console.printFrom session
        let describe (entry : ScriptResult) : Text :=
          (match entry.outcome.error with
            | some error => entry.script.display ++ ": " ++ error.message ++ "\n"
            | none => [] : Text) ++
            settings.style.render session.files entry.outcome.diagnostics.items
        let console := (console.warn (result.scripts.flatMap describe)).leave session
        match result.error with
        | some error => console.fail (.batch error)
        | none =>
          let console :=
            if settings.config.timings then console.warn result.timings.render else console
          if result.failed = 0 then console.succeed
          else console.fail (.someFailed result.failed paths.length)

def showDeclarations (console : Console) (reading : FlagReading) (path : Text) : CommandResult :=
  match console.loadSettings reading with
  | .error result => result
  | .ok settings =>
    match console.tree.read path with
    | .error error => console.fail (.file error)
    | .ok text =>
      match console.openSession settings with
      | .error result => result
      | .ok session =>
        let (groups, outcome, session) := session.parseDeclarations text
        let (console, session) := console.printFrom session
        let console := (console.warn (Shell.report settings.style session outcome)).print
          (groups.flatMap session.analysis.decls.renderGroup)
        let console := console.leave session
        if outcome.isFine then console.succeed else console.fail (.notFine path outcome.status)

def clearSnapshot (tree : FileTree) (path : Text) (force : Bool) : Except CommandError FileTree :=
  match tree.status path with
  | .ok _ =>
    if force then (tree.removeFile path).mapError .file else .error (.snapshotExists path)
  | .error .notFound => .ok tree
  | .error fault => .error (.file ⟨"stat", path, fault⟩)

def compileFiles (settings : Settings) (console : Console) (session : Session) :
    List Text → Option CommandError × Console × Session
  | [] => (none, console, session)
  | path :: rest =>
    match session.tree.read path with
    | .error error => (some (.file error), console, session)
    | .ok text =>
      let (outcome, session) := session.compile text .asIs
      let (console, session) := console.printFrom session
      let console := console.warn (Shell.report settings.style session outcome)
      if outcome.isFine then compileFiles settings console session rest
      else (some (.notFine path outcome.status), console, session)

def buildSnapshot (console : Console) (reading : FlagReading) (path : Text) (files : List Text) :
    CommandResult :=
  match clearSnapshot console.tree path (reading.isOn "force") with
  | .error error => console.fail error
  | .ok tree =>
    let console := { console with tree }
    match console.loadSettings reading with
    | .error result => result
    | .ok settings =>
      let settings := { settings with config := { settings.config with snapshot := path } }
      match console.openSession settings with
      | .error result => result
      | .ok session =>
        match compileFiles settings console session files with
        | (some error, console, session) => (console.leave session).fail error
        | (none, console, session) =>
          match session.writeSnapshot with
          | (some error, session) => (console.leave session).fail (.session error)
          | (none, session) =>
            let console := console.leave session
            match Snapshot.load console.tree path with
            | .error error => console.fail (.snapshot error)
            | .ok snapshot =>
              (console.print ("wrote " ++ path ++ " (" ++
                Text.decimal snapshot.entries.length ++ " declarations)\n")).succeed

def inspectSnapshot (console : Console) (reading : FlagReading) (path : Text) : CommandResult :=
  match Snapshot.load console.tree path with
  | .error error => console.fail (.snapshot error)
  | .ok snapshot =>
    let entry (declaration : ArchivedDecl) : Text :=
      let source : Text :=
        if reading.isOn "source" then Text.spaces 9 ++ declaration.source ++ "\n" else []
      "  " ++ Utf8.fill 6 declaration.kind ++ " " ++ declaration.name ++ "\n" ++ source
    (console.print (snapshot.path ++ ": " ++ Text.decimal snapshot.entries.length ++
      " declarations, written by " ++ snapshot.tool ++ "\n" ++
      snapshot.entries.flatMap entry)).succeed

def showVersion (console : Console) (reading : FlagReading) : CommandResult :=
  let version : Version := {}
  let shown : Version.Shown :=
    { commit := reading.isOn "hash" || reading.isOn "full"
      built := reading.isOn "date" || reading.isOn "full" }
  let format := reading.word "format" "pretty"
  if format.lower = "json" then (console.print (version.renderRecord shown)).succeed
  else if format.lower = "pretty" then (console.print (version.renderPretty false shown)).succeed
  else console.fail (.versionFormat format)

def resolve (words : List Text) : Except CommandError (Command × List Text) :=
  let (command, rest) := Command.choose words.length .tool words
  match command, command.bareWords rest with
  | .tool, word :: _ => .error (.unknownWord word)
  | _, _ => .ok (command, rest)

def showHelp (console : Console) (topic : List Text) : CommandResult :=
  match resolve topic with
  | .ok (command, _) => (console.print command.helpText).succeed
  | .error _ =>
    let quoted (word : Text) : Text := "\x60" ++ word ++ "\x60"
    (console.warn ("Unknown help topic [" ++ Text.join " " (topic.map quoted) ++ "]\n" ++
      Command.usageWith .tool [])).succeed

def run (console : Console) (command : Command) (reading : FlagReading) : CommandStep :=
  match command, reading.arguments with
  | .tool, _ | .repl, _ => startShell console reading
  | .run, _ => .finished (runScripts console reading)
  | .decls, path :: _ => .finished (showDeclarations console reading path)
  | .build, path :: files => .finished (buildSnapshot console reading path files)
  | .inspect, path :: _ => .finished (inspectSnapshot console reading path)
  | .version, _ => .finished (showVersion console reading)
  | .help, topic => .finished (showHelp console topic)
  | _, _ => .finished console.succeed

def start (tree : FileTree) (onTerminal : Bool) (words : List Text) : CommandStep :=
  let console : Console := { tree, onTerminal }
  match resolve words with
  | .error error => .finished (console.fail error)
  | .ok (command, words) =>
    match FlagReading.ofArguments command.flags words with
    | .error error => .finished (console.fail (.flags error))
    | .ok reading =>
      if reading.isOn "help" then .finished (console.print command.helpText).succeed
      else if reading.isOn "version" then
        .finished (console.print ("kiln version " ++ ({} : Version).number ++ "\n")).succeed
      else if !command.isRunnable then .finished (console.print command.helpText).succeed
      else
        match checkArguments command reading.arguments with
        | some error => .finished (console.fail error)
        | none =>
          match startTrace tree reading with
          | .error error => .finished (console.fail error)
          | .ok (tracer, tree) => run { console with tree, tracer } command reading

/-- The lines of an input; a carriage return ends a line too. -/
def linesOf (input : Text) : List Text :=
  let lines := Text.split 10 (input.map fun byte => if byte = 13 then 10 else byte)
  if lines.getLast? = some [] then lines.dropLast else lines

/-- The history with entered lines added; empty and repeated ones are left out. -/
def addHistory (tree : FileTree) (path : Text) (entered : List Text) : FileTree :=
  if path.isEmpty then tree
  else
    let kept := entered.foldl (fun (kept : List Text) line =>
      if line.isEmpty || kept.getLast? = some line then kept else kept ++ [line]) []
    let before := (tree.read path).toOption.getD []
    let line (entry : Text) : Text := entry ++ "\n"
    (tree.write path (before ++ kept.flatMap line)).toOption.getD tree

def finishShell (start : ShellStart) (shell : Shell) (entered : List Text) : CommandResult :=
  let console := start.console.leave shell.session
  { console with tree := addHistory console.tree start.history entered }.succeed

def execute (tree : FileTree) (words : List Text) (input : Text) : CommandResult :=
  match start tree false words with
  | .finished result => result
  | .shell start =>
    let lines := linesOf input
    let replies := start.shell.feedAll (lines.map .line)
    let console :=
      (start.console.print (start.banner ++ replies.flatMap (·.1.out))).warn
        (replies.flatMap (·.1.err))
    let shell := (replies.getLast?.map (·.2)).getD start.shell
    finishShell { start with console } shell (lines.take replies.length)

end CommandLine

end FragmentCompiler
