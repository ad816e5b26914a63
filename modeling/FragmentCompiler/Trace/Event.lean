import FragmentCompiler.Text.Blank
import FragmentCompiler.Text.Quoted

/-!
# Trace events

What a session reports about its own progress: spans that begin and end, and
single points in between.  The level decides how fine the reported scopes are.
-/

namespace FragmentCompiler

inductive TraceLevel where
  | off
  | error
  | phase
  | detail
  | debug
  deriving DecidableEq, Repr, Inhabited

namespace TraceLevel

def name : TraceLevel → Text
  | .off => "off"
  | .error => "error"
  | .phase => "phase"
  | .detail => "detail"
  | .debug => "debug"

def all : List TraceLevel := [.off, .error, .phase, .detail, .debug]

/-- The level of a word; no word means that tracing is off. -/
def parse (word : Text) : Except Text TraceLevel :=
  if word.isEmpty then .ok .off
  else
    match all.find? fun level => level.name == word.lower with
    | some level => .ok level
    | none =>
      .error ("invalid trace level: " ++ word.quote ++
        " (expected: off|error|phase|detail|debug)")

end TraceLevel

/-- How fine an event is; a larger rank is finer. -/
structure TraceScope where
  rank : Nat
  deriving DecidableEq, Repr, Inhabited

namespace TraceScope

def driver : TraceScope := ⟨1⟩

def pass : TraceScope := ⟨2⟩

def batch : TraceScope := ⟨3⟩

def node : TraceScope := ⟨4⟩

def name (scope : TraceScope) : Text :=
  match scope.rank with
  | 1 => "driver"
  | 2 => "pass"
  | 3 => "module"
  | 4 => "node"
  | _ => "unknown"

end TraceScope

def TraceLevel.reports (level : TraceLevel) (scope : TraceScope) : Bool :=
  match level with
  | .off | .error => false
  | .phase => scope.rank ≤ 2
  | .detail => scope.rank ≤ 3
  | .debug => true

inductive TraceKind where
  | begins
  | ends
  | point
  | heartbeat
  | unknown
  deriving DecidableEq, Repr, Inhabited

def TraceKind.name : TraceKind → Text
  | .begins => "begin"
  | .ends => "end"
  | .point => "point"
  | .heartbeat => "heartbeat"
  | .unknown => "unknown"

structure TraceEvent where
  time : Int := 0
  sequence : Nat := 0
  kind : TraceKind
  scope : TraceScope
  span : Nat := 0
  parent : Nat := 0
  depth : Int := 0
  name : Text
  detail : Text := []
  extra : List (Text × Text) := []
  deriving DecidableEq, Repr, Inhabited

/-- Whether a level lets an event through; a sign of life always passes. -/
def TraceLevel.admits (level : TraceLevel) (event : TraceEvent) : Bool :=
  level.reports event.scope || event.kind = .heartbeat

end FragmentCompiler
