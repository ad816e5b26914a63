import FragmentCompiler.Trace.Event

/-!
# Recording a trace

A session records events as it goes.  Spans nest: a new span lies inside the one
that is open.  Spans of scopes that are too fine are not recorded at all, and what
lies inside them belongs to the span around them.
-/

namespace FragmentCompiler

structure OpenSpan where
  id : Nat
  parent : Nat
  depth : Int
  scope : TraceScope
  name : Text
  deriving DecidableEq, Repr, Inhabited

structure TraceRecorder where
  level : TraceLevel := .off
  spans : List OpenSpan := []
  lastSpan : Nat := 0
  lastSequence : Nat := 0
  /-- What was recorded and not yet taken, latest first. -/
  events : List TraceEvent := []
  deriving Repr, Inhabited

namespace TraceRecorder

def add (recorder : TraceRecorder) (event : TraceEvent) : TraceRecorder :=
  let sequence := recorder.lastSequence + 1
  { recorder with
    lastSequence := sequence
    events := { event with sequence } :: recorder.events }

def position (recorder : TraceRecorder) : Nat × Int :=
  match recorder.spans with
  | [] => (0, 0)
  | span :: _ => (span.id, span.depth + 1)

def begin (recorder : TraceRecorder) (scope : TraceScope) (name : Text) : TraceRecorder :=
  if recorder.level.reports scope then
    let id := recorder.lastSpan + 1
    let (parent, depth) := recorder.position
    let span : OpenSpan := { id, parent, depth, scope, name }
    { recorder with lastSpan := id, spans := span :: recorder.spans }.add
      { kind := .begins, scope, span := id, parent, depth, name }
  else recorder

def finish (recorder : TraceRecorder) (scope : TraceScope) (detail : Text)
    (extra : List (Text × Text)) : TraceRecorder :=
  if recorder.level.reports scope then
    match recorder.spans with
    | [] => recorder
    | span :: outer =>
      { recorder with spans := outer }.add
        { kind := .ends
          scope := span.scope
          span := span.id
          parent := span.parent
          depth := span.depth
          name := span.name
          detail
          extra }
  else recorder

def point (recorder : TraceRecorder) (scope : TraceScope) (name detail : Text) : TraceRecorder :=
  if recorder.level.reports scope then
    let (parent, depth) := recorder.position
    recorder.add { kind := .point, scope, parent, depth, name, detail }
  else recorder

def take (recorder : TraceRecorder) : List TraceEvent × TraceRecorder :=
  (recorder.events.reverse, { recorder with events := [] })

end TraceRecorder

end FragmentCompiler
