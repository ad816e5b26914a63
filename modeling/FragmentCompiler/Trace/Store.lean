import FragmentCompiler.Source.FileTree
import FragmentCompiler.Trace.Format

/-!
# Keeping a trace

Events are written at once, or the latest of them are kept in a ring, or both.
-/

namespace FragmentCompiler

inductive TraceMode where
  | stream
  | ring
  | both
  deriving DecidableEq, Repr, Inhabited

namespace TraceMode

def name : TraceMode → Text
  | .stream => "stream"
  | .ring => "ring"
  | .both => "both"

/-- The mode of a word; no word means the ring. -/
def parse (word : Text) : Except Text TraceMode :=
  if word.isEmpty then .ok .ring
  else
    match [TraceMode.stream, .ring, .both].find? fun mode => mode.name == word.lower with
    | some mode => .ok mode
    | none =>
      .error ("invalid storage mode: " ++ word.quote ++ " (expected: stream|ring|both)")

end TraceMode

structure TraceRing where
  slots : Array TraceEvent
  head : Nat := 0
  full : Bool := false
  level : TraceLevel
  deriving Repr, Inhabited

namespace TraceRing

def usualCapacity : Nat := 4096

/-- An empty ring; a capacity that is not positive means the usual one. -/
def ofCapacity (capacity : Int) (level : TraceLevel) : TraceRing :=
  let places := if capacity ≤ 0 then usualCapacity else capacity.toNat
  { slots := Array.replicate places { kind := .unknown, scope := ⟨0⟩, name := [] }, level }

def emit (ring : TraceRing) (event : TraceEvent) : TraceRing :=
  if ring.level.admits event then
    let head := (ring.head + 1) % ring.slots.size
    { ring with
      slots := ring.slots.setIfInBounds ring.head event
      head
      full := ring.full || head = 0 }
  else ring

def events (ring : TraceRing) : List TraceEvent :=
  let all := ring.slots.toList
  if ring.full then all.drop ring.head ++ all.take ring.head else all.take ring.head

def dump (ring : TraceRing) (clock : TraceClock) (format : TraceFormat) : Text :=
  ring.events.flatMap (TraceEvent.render clock format)

end TraceRing

structure TraceStream where
  level : TraceLevel
  format : TraceFormat
  clock : TraceClock
  written : List Text
  begun : Bool := false

namespace TraceStream

def start (level : TraceLevel) (format : TraceFormat) (clock : TraceClock) : TraceStream :=
  { level, format, clock
    written := if format = .chrome then ["\x7b\"traceEvents\":[\n"] else [] }

def emit (stream : TraceStream) (event : TraceEvent) : TraceStream :=
  if stream.level.admits event then
    let separator : List Text :=
      if stream.format = .chrome && stream.begun then [",\n"] else []
    { stream with
      written := event.render stream.clock stream.format :: (separator ++ stream.written)
      begun := true }
  else stream

def close (stream : TraceStream) : TraceStream :=
  if stream.format = .chrome then { stream with written := "\n]\x7d\n" :: stream.written }
  else stream

def content (stream : TraceStream) : Text := stream.written.reverse.flatten

end TraceStream

structure TraceSetup where
  level : TraceLevel := .off
  /-- How events are kept; there may be none that is known. -/
  mode : Option TraceMode := some .ring
  format : TraceFormat := .auto
  /-- The file events are written to; nothing or a dash stands for the error
  output. -/
  output : Text := []
  capacity : Int := 0
  deriving DecidableEq, Repr, Inhabited

namespace TraceSetup

def hasFile (setup : TraceSetup) : Bool := !(setup.output.isEmpty || setup.output = "-")

/-- The format to write in: the one asked for, or the one for the output. -/
def chosenFormat (setup : TraceSetup) : TraceFormat :=
  if setup.format ≠ .auto then setup.format
  else if setup.hasFile then .ofPath setup.output
  else .text

end TraceSetup

inductive TraceError where
  | output (error : FileError)
  | unknownMode
  deriving DecidableEq, Repr, Inhabited

def TraceError.message : TraceError → Text
  | .output error => "failed to open trace output: " ++ error.message
  | .unknownMode => "unknown storage mode: unknown"

structure Tracer where
  level : TraceLevel := .off
  stream : Option TraceStream := none
  ring : Option TraceRing := none
  file : Option Text := none

namespace Tracer

def openOutput (setup : TraceSetup) (tree : FileTree) :
    Except TraceError (Option Text × FileTree) :=
  if setup.hasFile then
    match tree.write setup.output [] with
    | .ok tree => .ok (some setup.output, tree)
    | .error error => .error (.output error)
  else .ok (none, tree)

def create (setup : TraceSetup) (clock : TraceClock) (tree : FileTree) :
    Except TraceError (Tracer × FileTree) :=
  let level := setup.level
  if level = .off then .ok ({}, tree)
  else
    let stream := TraceStream.start level setup.chosenFormat clock
    let ring := TraceRing.ofCapacity setup.capacity level
    match setup.mode with
    | some .stream => do
        let (file, tree) ← openOutput setup tree
        .ok ({ level, stream := some stream, file }, tree)
    | some .ring => .ok ({ level, ring := some ring }, tree)
    | some .both => do
        let (file, tree) ← openOutput setup tree
        .ok ({ level, stream := some stream, ring := some ring, file }, tree)
    | none => .error .unknownMode

def emit (tracer : Tracer) (event : TraceEvent) : Tracer :=
  { tracer with
    stream := tracer.stream.map fun stream => stream.emit event
    ring := tracer.ring.map fun ring => ring.emit event }

def close (tracer : Tracer) : Tracer := { tracer with stream := tracer.stream.map .close }

def content (tracer : Tracer) : Text := (tracer.stream.map TraceStream.content).getD []

end Tracer

end FragmentCompiler
