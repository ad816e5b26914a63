import FragmentCompiler.Diagnostic.Compact
import FragmentCompiler.Text.Style
import FragmentCompiler.Text.Width

/-!
# Diagnostics with source lines

A diagnostic is shown with its line of source, lines around it, and a mark under
what it is about.
-/

namespace FragmentCompiler

structure PrettyOptions where
  coloured : Bool := false
  context : Int := 0
  paths : PathStyle := .auto
  /-- The columns a line of source may take; unlimited if zero. -/
  width : Nat := 0
  notes : Bool := false
  deriving DecidableEq, Repr, Inhabited

namespace Pretty

def errorStyle : Style := ⟨[.red, .bold]⟩
def warningStyle : Style := ⟨[.yellow, .bold]⟩
def infoStyle : Style := ⟨[.cyan, .bold]⟩
def noteStyle : Style := ⟨[.blue]⟩
def pathStyle : Style := ⟨[.bold]⟩
def gutterStyle : Style := ⟨[.grey]⟩
def markStyle : Style := ⟨[.green, .bold]⟩

def severityStyle (severity : Severity) : Style :=
  if severity = .error then errorStyle else if severity = .warning then warningStyle else infoStyle

def expandTabs (text : Text) : Text :=
  text.flatMap fun byte => if byte == 9 then Text.spaces 4 else [byte]

def location (files : Option FileSet) (paths : PathStyle) (span : Span) : Text :=
  if span.isNone then Place.nowhere
  else
    match files.bind fun files => (files.get? span.file).map fun buffer => (files, buffer) with
    | none => span.render
    | some (files, buffer) =>
      Place.render (files.shownPath buffer paths) (files.resolve span).1

def before (line : Text) (column : Nat) : Text :=
  line.take (column - 1) ++ Text.spaces (column - 1 - line.length)

def between (line : Text) (start stop : Nat) : Text :=
  (line.take (stop - 1)).drop (start - 1)

def mark (line : Text) (start stop : Position) : Text :=
  let width :=
    if stop.line = start.line && start.column < stop.column then
      Width.ofText (expandTabs (between line start.column stop.column))
    else 1
  "^" ++ Text.times (width - 1) "~"

def gutter (coloured : Bool) (width : Nat) (label : Text) : Text :=
  gutterStyle.paint coloured (Text.padLeft width label ++ " |") ++ " "

def sourceLine (options : PrettyOptions) (buffer : Buffer) (start stop : Position)
    (gutterWidth number : Nat) : Text :=
  let line := buffer.line (.ofNat number)
  if number ≠ start.line && line.isEmpty then []
  else
    let expanded := expandTabs line
    let shown := if options.width = 0 then expanded else Width.truncate expanded options.width "…"
    let written := gutter options.coloured gutterWidth (Text.decimal number) ++ shown ++ "\n"
    if number ≠ start.line then written
    else
      let indent := Width.ofText (expandTabs (before line start.column))
      written ++ gutter options.coloured gutterWidth [] ++ Text.spaces indent ++
        markStyle.paint options.coloured (mark line start stop) ++ "\n"

def snippet (options : PrettyOptions) (files : Option FileSet) (span : Span) : Text :=
  if span.isNone then []
  else
    match files.bind fun files => (files.get? span.file).map fun buffer => (files, buffer) with
    | none => []
    | some (files, buffer) =>
      let (start, stop) := files.resolve span
      let around := options.context.toNat
      let first := max 1 (start.line - around)
      let last := start.line + around
      let gutterWidth := (Text.decimal last).length
      (List.range' first (last + 1 - first)).flatMap
        (sourceLine options buffer start stop gutterWidth)

def renderNote (options : PrettyOptions) (files : Option FileSet) (note : Note) : Text :=
  "  " ++ noteStyle.paint options.coloured "note:" ++ " " ++
    location files options.paths note.span ++ ": " ++ note.message ++ "\n" ++
    snippet { options with context := 0 } files note.span

def render (options : PrettyOptions) (files : Option FileSet) (diagnostic : Diagnostic) : Text :=
  pathStyle.paint options.coloured (location files options.paths diagnostic.span) ++ ": " ++
    (severityStyle diagnostic.severity).paint options.coloured diagnostic.severity.name ++ " " ++
    diagnostic.code.identifier ++ ": " ++ diagnostic.message ++ "\n" ++
    snippet options files diagnostic.span ++
    (if options.notes then diagnostic.notes.flatMap (renderNote options files) else [])

end Pretty

def Diagnostic.renderPretty (options : PrettyOptions) (files : Option FileSet)
    (diagnostics : List Diagnostic) : Text :=
  diagnostics.flatMap (Pretty.render options files)

end FragmentCompiler
