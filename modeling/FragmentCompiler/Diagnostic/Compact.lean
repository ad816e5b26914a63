import FragmentCompiler.Diagnostic.Bag
import FragmentCompiler.Source.FileSet
import FragmentCompiler.Text.Blank

/-!
# Diagnostics on one line each

Every diagnostic, and every note of one, is a line with its severity, code, place
and message.  Lines are sorted by place.
-/

namespace FragmentCompiler

structure Place where
  path : Text
  position : Position
  deriving DecidableEq, Repr, Inhabited

namespace Place

def nowhere : Text := "kiln"

def plainPath : Text → Text
  | 46 :: 47 :: rest => plainPath rest
  | path => path

def ofSpan? (files : Option FileSet) (span : Span) : Option Place :=
  if span.isNone then none
  else
    match files with
    | none => none
    | some files =>
      match files.get? span.file with
      | none => none
      | some buffer =>
        some
          { path := plainPath (files.shownPath buffer .relative)
            position := (files.resolve span).1 }

def render (path : Text) (position : Position) : Text :=
  path ++ ":" ++ position.render

end Place

structure CompactLine where
  severity : Text
  rank : Nat
  code : Text
  place : Option Place
  message : Text
  deriving DecidableEq, Repr, Inhabited

namespace CompactLine

def flatten (message : Text) : Text := Text.join " " message.words

def severityRank (severity : Severity) : Nat :=
  if severity = .error then 0 else if severity = .warning then 1 else 2

def ofDiagnostic (files : Option FileSet) (notes : Bool) (diagnostic : Diagnostic) :
    List CompactLine × List CompactLine :=
  let code := diagnostic.code.identifier
  let first : CompactLine :=
    { severity := diagnostic.severity.name.lower
      rank := severityRank diagnostic.severity
      code
      place := Place.ofSpan? files diagnostic.span
      message := flatten diagnostic.message }
  let ofNote (note : Note) : CompactLine :=
    { severity := "note"
      rank := 3
      code
      place := Place.ofSpan? files note.span
      message := flatten note.message }
  ([first], if notes then diagnostic.notes.map ofNote else [])

/-- Lines with a place come first; they are ordered by place, severity, code and
message. -/
def order (left right : CompactLine) : Ordering :=
  let byPlace : Ordering := match left.place, right.place with
    | some _, none => .lt
    | none, some _ => .gt
    | none, none => .eq
    | some left, some right =>
      (Text.order left.path right.path).then
        ((compare left.position.line right.position.line).then
          (compare left.position.column right.position.column))
  byPlace.then
    ((compare left.rank right.rank).then
      ((Text.order left.code right.code).then (Text.order left.message right.message)))

def render (line : CompactLine) : Text :=
  let place := match line.place with
    | some place => Place.render place.path place.position
    | none => Place.nowhere
  line.severity ++ " " ++ line.code ++ " " ++ place ++ " " ++ line.message

def isOutside (line : CompactLine) : Bool :=
  match line.place with
  | some place => place.path != Buffer.runtimeName
  | none => false

def renderAll (lines : List CompactLine) : Text :=
  Text.join "\n" ((lines.mergeSort fun left right => (order left right).isLE).map render)

end CompactLine

namespace Diagnostic

def renderShort (files : Option FileSet) (notes : Bool) (diagnostics : List Diagnostic) : Text :=
  CompactLine.renderAll (diagnostics.flatMap fun diagnostic =>
    let (first, rest) := CompactLine.ofDiagnostic files notes diagnostic
    first ++ rest)

/-- Only what has a place outside the runtime library; the notes of a diagnostic
that is left out are left out too. -/
def renderGolden (files : Option FileSet) (notes : Bool) (diagnostics : List Diagnostic) : Text :=
  CompactLine.renderAll (diagnostics.flatMap fun diagnostic =>
    let (first, rest) := CompactLine.ofDiagnostic files notes diagnostic
    if first.all CompactLine.isOutside then first ++ rest.filter CompactLine.isOutside else [])

end Diagnostic

end FragmentCompiler
