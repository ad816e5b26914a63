import FragmentCompiler.Text.JsonText
import FragmentCompiler.Trace.Event

/-!
# Written traces

Events as lines of text, as one JSON object a line, or as the events of a timeline
viewer.
-/

namespace FragmentCompiler

inductive TraceFormat where
  | auto
  | text
  | ndjson
  | chrome
  deriving DecidableEq, Repr, Inhabited

namespace TraceFormat

def name : TraceFormat → Text
  | .auto => "auto"
  | .text => "text"
  | .ndjson => "ndjson"
  | .chrome => "chrome"

/-- The format of a word; no word leaves the choice open. -/
def parse (word : Text) : Except Text TraceFormat :=
  if word.isEmpty then .ok .auto
  else
    match [TraceFormat.auto, .text, .ndjson, .chrome].find? fun format =>
        format.name == word.lower with
    | some format => .ok format
    | none =>
      .error ("invalid trace format: " ++ word.quote ++ " (expected: auto|text|ndjson|chrome)")

def ofPath (path : Text) : TraceFormat :=
  if path.endsWith ".ndjson" then .ndjson
  else if path.endsWith ".json" then .chrome
  else .text

end TraceFormat

/-- How times are shown relative to the start of the program. -/
structure TraceClock where
  stamp : Int → Text
  offset : Int → Int

structure Date where
  year : Int
  month : Nat
  day : Nat
  deriving DecidableEq, Repr, Inhabited

/-- The date of a day counted from the start of 1970, in the calendar that repeats
every four hundred years. -/
def Date.ofDays (days : Int) : Date :=
  let shifted := days + 719468
  let era := shifted.fdiv 146097
  let dayOfEra := (shifted.fmod 146097).toNat
  let yearOfEra :=
    (dayOfEra - dayOfEra / 1460 + dayOfEra / 36524 - dayOfEra / 146096) / 365
  let dayOfYear := dayOfEra - (365 * yearOfEra + yearOfEra / 4 - yearOfEra / 100)
  let monthFromMarch := (5 * dayOfYear + 2) / 153
  let day := dayOfYear - (153 * monthFromMarch + 2) / 5 + 1
  let month := if monthFromMarch < 10 then monthFromMarch + 3 else monthFromMarch - 9
  { year := era * 400 + yearOfEra + (if month ≤ 2 then 1 else 0), month, day }

def padded (width value : Nat) : Text :=
  Text.zeros (width - (Text.decimal value).length) ++ Text.decimal value

def renderMoment (micros : Int) : Text :=
  let seconds := micros.fdiv 1000000
  let fraction := (micros.fmod 1000000).toNat
  let date := Date.ofDays (seconds.fdiv 86400)
  let ofDay := (seconds.fmod 86400).toNat
  padded 4 date.year.toNat ++ "-" ++ padded 2 date.month ++ "-" ++ padded 2 date.day ++ "T" ++
    padded 2 (ofDay / 3600) ++ ":" ++ padded 2 (ofDay / 60 % 60) ++ ":" ++ padded 2 (ofDay % 60) ++
    "." ++ padded 6 fraction ++ "Z"

namespace TraceEvent

def mark : TraceKind → Text
  | .begins => "→ "
  | .ends => "← "
  | .point => "• "
  | .heartbeat => "♡ "
  | .unknown => []

def sortedExtra (event : TraceEvent) : List (Text × Text) :=
  event.extra.mergeSort fun left right => !Text.before right.1 left.1

def line (clock : TraceClock) (event : TraceEvent) : Text :=
  let detail : Text := if event.detail.isEmpty then [] else " (" ++ event.detail ++ ")"
  let extra : Text :=
    if event.extra.isEmpty then []
    else
      " \x7b" ++
        Text.join ", " (event.sortedExtra.map fun entry => entry.1 ++ "=" ++ entry.2) ++ "\x7d"
  clock.stamp event.time ++ Text.spaces (2 * event.depth.toNat) ++ mark event.kind ++ event.name ++
    detail ++ extra ++ "\n"

def record (event : TraceEvent) : Text :=
  let object : JsonText := .ofParts [
    [("time", .string (renderMoment event.time)), ("seq", .nat event.sequence),
      ("kind", .string event.kind.name), ("scope", .string event.scope.name),
      ("span_id", .nat event.span)],
    if event.parent = 0 then [] else [("parent_id", .nat event.parent)],
    [("name", .string event.name)],
    JsonText.optionalField "detail" event.detail,
    if event.extra.isEmpty then [] else [("extra", .ofTable event.extra)]]
  object.compact ++ "\n"

def phase : TraceKind → Text
  | .begins => "B"
  | .ends => "E"
  | _ => "i"

def timelineArguments (event : TraceEvent) : List (Text × Text) :=
  if event.detail.isEmpty then event.extra
  else
    let others := event.extra.filter fun entry => entry.1 != Text.ofString "detail"
    ("detail", event.detail) :: others

def timeline (clock : TraceClock) (event : TraceEvent) : Text :=
  let arguments := event.timelineArguments
  let object : JsonText := .ofParts [
    [("name", .string event.name), ("cat", .string event.scope.name),
      ("ph", .string (phase event.kind)),
      ("ts", .number (Text.ofInt (clock.offset event.time))), ("pid", .nat 1), ("tid", .nat 1)],
    if event.kind = .begins || event.kind = .ends then [] else [("s", .string "g")],
    if arguments.isEmpty then [] else [("args", .ofTable arguments)]]
  object.compact

/-- An event in a format; text is the choice when none was made. -/
def render (clock : TraceClock) (format : TraceFormat) (event : TraceEvent) : Text :=
  match format with
  | .auto | .text => event.line clock
  | .ndjson => event.record
  | .chrome => event.timeline clock

end TraceEvent

end FragmentCompiler
