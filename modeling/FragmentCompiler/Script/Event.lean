import FragmentCompiler.Text.Basic

/-!
# What happens to a script while it is run
-/

namespace FragmentCompiler

inductive ScriptStage where
  | load
  | compile
  deriving DecidableEq, Repr, Inhabited

inductive ScriptStatus where
  | queued
  | working
  | done
  | error
  deriving DecidableEq, Repr, Inhabited

def ScriptStage.name : ScriptStage → Text
  | .load => "load"
  | .compile => "compile"

def ScriptStage.ofText? (name : Text) : Option ScriptStage :=
  [ScriptStage.load, .compile].find? fun stage => stage.name = name

def ScriptStatus.name : ScriptStatus → Text
  | .queued => "queued"
  | .working => "working"
  | .done => "done"
  | .error => "error"

def ScriptStatus.ofText? (name : Text) : Option ScriptStatus :=
  [ScriptStatus.queued, .working, .done, .error].find? fun status => status.name = name

structure ScriptEvent where
  file : Text
  stage : ScriptStage
  status : ScriptStatus
  failure : Option Text := none
  deriving DecidableEq, Repr, Inhabited

end FragmentCompiler
