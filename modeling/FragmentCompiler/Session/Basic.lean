import FragmentCompiler.Diagnostic.Engine
import FragmentCompiler.Lowering.Generator
import FragmentCompiler.Session.Journal
import FragmentCompiler.Session.Lookup
import FragmentCompiler.Session.Pipeline
import FragmentCompiler.Session.Timer
import FragmentCompiler.Session.Transform
import FragmentCompiler.Snapshot.Basic
import FragmentCompiler.Trace.Recorder

/-!
# Sessions

A session compiles fragments one at a time against one persistent context: the
analysis, the machine with its code generation, the stages and the journal.
-/

namespace FragmentCompiler

inductive SessionError where
  | reentrant
  | directiveInPrompt
  | noFrontend
  | noBackend
  | closed
  | noSnapshotSink
  | snapshotActive
  | resolverInstalled
  | transactionOpen
  | snapshot (error : SnapshotError)
  | startup (path : Text) (error : SnapshotError)
  | bootstrap (message : Text)
  deriving DecidableEq, Repr, Inhabited

def SessionError.message : SessionError → Text
  | .reentrant => "driver: reentrant call"
  | .directiveInPrompt => "driver: directive in prompt input"
  | .noFrontend => "driver: no frontend"
  | .noBackend => "driver: no backend"
  | .closed => "driver: closed"
  | .noSnapshotSink => "driver: no startup snapshot sink"
  | .snapshotActive => "driver: startup snapshot already active"
  | .resolverInstalled => "sema: external resolver already installed"
  | .transactionOpen => "session: a transaction is already open"
  | .snapshot error => error.message
  | .startup path error => "driver: startup snapshot " ++ path ++ ": " ++ error.message
  | .bootstrap message => "driver: bootstrap failed: " ++ message

inductive Status where
  | success
  | warnings
  | failed
  | invalidInput
  deriving DecidableEq, Repr, Inhabited

def Status.name : Status → Text
  | .success => "success"
  | .warnings => "succeeded_with_warnings"
  | .failed => "failed"
  | .invalidInput => "invalid_input"

inductive Mode where
  | asIs
  /-- A line typed at a prompt: variables become global and a last value is shown. -/
  | prompt
  deriving DecidableEq, Repr, Inhabited

inductive StageStore where
  | nothing
  | snapshot (writer : SnapshotWriter) (groups transactions : Nat)
  deriving DecidableEq, Repr, Inhabited

inductive OutputPart where
  | program (text : Text)
  | dump (text : Text)
  deriving DecidableEq, Repr, Inhabited

namespace OutputPart

def text : OutputPart → Text
  | .program text => text
  | .dump text => text

def programText : OutputPart → Text
  | .program text => text
  | .dump _ => []

def dumpText : OutputPart → Text
  | .program _ => []
  | .dump text => text

end OutputPart

structure Outcome where
  status : Status
  transaction : Option Nat := none
  diagnostics : Bag
  phases : List Phase := []
  error : Option SessionError := none
  deriving Inhabited

namespace Outcome

def isFine (outcome : Outcome) : Bool :=
  outcome.status = .success || outcome.status = .warnings

def refused (error : SessionError) : Outcome :=
  { status := .invalidInput, diagnostics := Bag.ofLimit 1, error := some error }

end Outcome

structure AnalysisSetup where
  /-- The most diagnostics a call keeps; a number that is not positive stands for
  256. -/
  maxDiagnostics : Int := 0
  includePaths : List Text := []
  baseDirectory : Text := []
  deriving DecidableEq, Repr, Inhabited

structure MachineSetup where
  depthLimit : Int := 0
  deriving DecidableEq, Repr, Inhabited

structure SessionOptions where
  /-- The analysis; a session cannot be opened without one. -/
  front : Option AnalysisSetup := some {}
  /-- The machine; a session cannot be opened without one. -/
  back : Option MachineSetup := some {}
  snapshotPath : Text := []
  dynamicLookup : Bool := false
  timings : Bool := false
  noBootstrap : Bool := false
  /-- The names dynamic lookup defers; all of them when absent. -/
  only : Option (List Text) := none
  traceLevel : TraceLevel := .off
  version : Version := {}
  deriving Inhabited

structure Session where
  analysis : Analysis := {}
  engine : Engine := .ofLimit 256
  generator : Generator := {}
  pipeline : Pipeline StageStore := {}
  journal : Journal := {}
  switch : LookupSwitch := {}
  only : Option (List Text) := none
  questions : List Question := []
  snapshot : Option Snapshot := none
  timings : Bool := false
  timer : Option Timer := none
  version : Version := {}
  trace : TraceRecorder := {}
  /-- What was written before the last dump and not yet taken, latest first. -/
  written : List OutputPart := []
  busy : Bool := false
  closed : Bool := false
  /-- The most steps a run or the input of a call may take. -/
  patience : Nat := Nat.pow 2 60
  deriving Inhabited

namespace Session

def runtimeSource : Text := Text.join "\n" <| List.map Text.ofString [
  "// Runtime support for kiln sessions. Included once at bootstrap.",
  "",
  "int abs(int v) \x7b",
  "    if (v < 0) \x7b",
  "        return -v;",
  "    \x7d",
  "    return v;",
  "\x7d",
  "",
  "float fabs(float v) \x7b",
  "    if (v < 0.0) \x7b",
  "        return -v;",
  "    \x7d",
  "    return v;",
  "\x7d",
  "",
  "int max(int a, int b) \x7b",
  "    if (a > b) \x7b",
  "        return a;",
  "    \x7d",
  "    return b;",
  "\x7d",
  "",
  "int min(int a, int b) \x7b",
  "    if (a < b) \x7b",
  "        return a;",
  "    \x7d",
  "    return b;",
  "\x7d",
  "",
  "int clamp(int v, int lo, int hi) \x7b",
  "    return max(lo, min(v, hi));",
  "\x7d",
  "",
  "int pow(int base, int exp) \x7b",
  "    int out = 1;",
  "    while (exp > 0) \x7b",
  "        out = out * base;",
  "        exp = exp - 1;",
  "    \x7d",
  "    return out;",
  "\x7d",
  "",
  "string repeat(string s, int n) \x7b",
  "    string out = \"\";",
  "    while (n > 0) \x7b",
  "        out = out + s;",
  "        n = n - 1;",
  "    \x7d",
  "    return out;",
  "\x7d",
  "",
  "bool kiln_runtime_loaded = true;",
  ""]

def tree (session : Session) : FileTree := session.analysis.parser.tree

def withTree (session : Session) (tree : FileTree) : Session :=
  { session with
    analysis := { session.analysis with parser := { session.analysis.parser with tree } } }

def files (session : Session) : FileSet := session.analysis.parser.files

def takeAsked (analysis : Analysis) : List Question × Analysis :=
  match analysis.resolver with
  | some resolver =>
    (resolver.asked, { analysis with resolver := some { resolver with asked := [] } })
  | none => ([], analysis)

def drain (session : Session) : Session :=
  let (reports, analysis) := session.analysis.takeReports
  let (asked, analysis) := takeAsked analysis
  { session with
    analysis
    engine := session.engine.reportAll reports
    questions := session.questions ++ asked }

def takeQuestions (session : Session) : List Question × Session :=
  (session.questions, { session with questions := [] })

def collectPrinted (session : Session) : Session :=
  let (text, machine) := session.generator.machine.takePrinted
  { session with
    generator := { session.generator with machine }
    written := if text.isEmpty then session.written else .program text :: session.written }

def dump (session : Session) (text : Text) : Session :=
  let session := session.collectPrinted
  { session with written := .dump text :: session.written }

def takeOutput (session : Session) : List OutputPart × Session :=
  let session := session.collectPrinted
  (session.written.reverse, { session with written := [] })

def beginSpan (session : Session) (scope : TraceScope) (name : Text) : Session :=
  { session with trace := session.trace.begin scope name }

def endSpan (session : Session) (scope : TraceScope) (detail : Text)
    (extra : List (Text × Text)) : Session :=
  { session with trace := session.trace.finish scope detail extra }

def beginPhase (session : Session) (name : Text) : Int × Session :=
  let (index, timer) := Timer.beginIn session.timer name
  (index, { session with timer })

def endPhase (session : Session) (index : Int) (note : Text) : Session :=
  { session with timer := session.timer.map fun timer => timer.finish index note }

def refusal (session : Session) : Option SessionError :=
  if session.closed then some .closed else if session.busy then some .reentrant else none

end Session

end FragmentCompiler
