import FragmentCompiler.Script.Basic
import FragmentCompiler.Script.Event
import FragmentCompiler.Script.Timings
import FragmentCompiler.Session.Compile

/-!
# Running several scripts

A batch loads all of its scripts and then compiles them in order in one session,
so that later scripts see the declarations of earlier ones.
-/

namespace FragmentCompiler

structure BatchRequest where
  paths : List Text
  directory : Text := []
  keepGoing : Bool := false
  deriving DecidableEq, Repr, Inhabited

inductive BatchError where
  | noRequest
  | noScripts
  | load (display : Text) (cause : FileError)
  deriving DecidableEq, Repr

def BatchError.message : BatchError → Text
  | .noRequest => "missing run request"
  | .noScripts => "no files to run"
  | .load display cause => "load " ++ display ++ ": " ++ cause.message

structure ScriptResult where
  script : Script
  outcome : Outcome

structure BatchResult where
  scripts : List ScriptResult := []
  events : List ScriptEvent := []
  timings : StageTimings := {}
  error : Option BatchError := none

namespace BatchResult

def failed (result : BatchResult) : Nat :=
  result.scripts.countP fun script => !script.outcome.isFine

end BatchResult

namespace Batch

def loadAll (tree : FileTree) (directory : Text) :
    List Text → List ScriptEvent × Except BatchError (List Script)
  | [] => ([], .ok [])
  | path :: rest =>
    let display := Script.displayName tree.workingDirectory directory path
    let working : ScriptEvent := ⟨display, .load, .working, none⟩
    match Script.load tree directory path with
    | .error cause =>
      ([working, ⟨display, .load, .error, some cause.message⟩], .error (.load display cause))
    | .ok script =>
      let (events, scripts) := loadAll tree directory rest
      (working :: ⟨display, .compile, .queued, none⟩ :: events, scripts.map (script :: ·))

/-- Compiles scripts in order; without `keepGoing` up to the first that fails. -/
def compileAll (keepGoing : Bool) (session : Session) :
    List Script → List ScriptEvent × List ScriptResult × Session
  | [] => ([], [], session)
  | script :: rest =>
    let (outcome, session) := session.compile script.text .asIs
    let working : ScriptEvent := ⟨script.display, .compile, .working, none⟩
    let finished : ScriptEvent :=
      if outcome.isFine then ⟨script.display, .compile, .done, none⟩
      else ⟨script.display, .compile, .error, outcome.error.map SessionError.message⟩
    if outcome.isFine || keepGoing then
      let (events, results, session) := compileAll keepGoing session rest
      (working :: finished :: events, ⟨script, outcome⟩ :: results, session)
    else ([working, finished], [⟨script, outcome⟩], session)

def run (session : Session) : Option BatchRequest → BatchResult × Session
  | none => ({ error := some .noRequest }, session)
  | some request =>
    if request.paths.isEmpty then ({ error := some .noScripts }, session)
    else
      let display (path : Text) : Text :=
        Script.displayName session.tree.workingDirectory request.directory path
      let queued : List ScriptEvent :=
        request.paths.map fun path => ⟨display path, .load, .queued, none⟩
      match loadAll session.tree request.directory request.paths with
      | (loading, .error error) =>
        ({ events := queued ++ loading, timings := { load := some 0 }, error := some error },
          session)
      | (loading, .ok scripts) =>
        let (compiling, results, session) := compileAll request.keepGoing session scripts
        ({ scripts := results
           events := queued ++ loading ++ compiling
           timings := { load := some 0, compile := some 0 } }, session)

end Batch

end FragmentCompiler
