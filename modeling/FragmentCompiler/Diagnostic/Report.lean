import FragmentCompiler.Diagnostic.Compact
import FragmentCompiler.Text.JsonScan

/-!
# Diagnostics for tools

All diagnostics of a call as one JSON document.
-/

namespace FragmentCompiler

structure ReportOptions where
  positions : Bool := false
  paths : PathStyle := .auto
  /-- The most diagnostics that are written; all of them if it is not positive. -/
  most : Int := 0
  notes : Bool := false
  deriving DecidableEq, Repr, Inhabited

namespace Report

def countField (name : Text) (value : Nat) : List (Text × JsonText) :=
  if value = 0 then [] else [(name, .nat value)]

def location (options : ReportOptions) (files : Option FileSet) (span : Span) :
    List (Text × JsonText) :=
  if span.isNone then []
  else
    match files.bind fun files => (files.get? span.file).map fun buffer => (files, buffer) with
    | none => []
    | some (files, buffer) =>
      let (start, stop) := files.resolve span
      let positions :=
        if options.positions then
          countField "line" start.line ++ countField "col" start.column ++
            countField "end_line" stop.line ++ countField "end_col" stop.column ++
            JsonText.optionalField "text" (files.text span)
        else []
      let fragment : List (Text × JsonText) :=
        if buffer.flags.fragment then [("fragment", .bool true)] else []
      let file : List (Text × JsonText) :=
        [("file", .string (files.shownPath buffer options.paths))]
      [("location", .ofParts [file, fragment, positions])]

def note (options : ReportOptions) (files : Option FileSet) (value : Note) : JsonText :=
  .ofParts [[("message", .string value.message)], location options files value.span]

def timings (diagnostic : Diagnostic) : List (Text × JsonText) :=
  match diagnostic.notes.findSome? fun value => JsonScan.read? value.message with
  | some value => [("timings", value)]
  | none => []

def entry (options : ReportOptions) (files : Option FileSet) (diagnostic : Diagnostic) : JsonText :=
  let rest : List (Text × JsonText) :=
    if diagnostic.code = .timings then timings diagnostic
    else if options.notes && !diagnostic.notes.isEmpty then
      [("notes", .array (diagnostic.notes.map (note options files)))]
    else []
  .ofParts [
    [("severity", .string diagnostic.severity.name),
      ("code", .string diagnostic.code.identifier),
      ("message", .string diagnostic.message)],
    location options files diagnostic.span,
    rest]

end Report

def Diagnostic.renderReport (options : ReportOptions) (files : Option FileSet)
    (diagnostics : List Diagnostic) : Text :=
  let shown :=
    if 0 < options.most then diagnostics.take options.most.toNat else diagnostics
  let count (test : Diagnostic → Bool) := JsonText.nat (diagnostics.filter test).length
  let document : JsonText := .ofParts [
    [("diagnostics", .array (shown.map (Report.entry options files))),
      ("count", .nat shown.length),
      ("errors", count isError),
      ("warnings", count fun diagnostic => diagnostic.severity = .warning)],
    Report.countField "omitted" (diagnostics.length - shown.length)]
  document.indented 0 ++ "\n"

end FragmentCompiler
