import FragmentCompiler.Diagnostic.Pretty
import FragmentCompiler.Diagnostic.Report

/-!
# How a session shows its diagnostics
-/

namespace FragmentCompiler

inductive OutputFormat where
  | pretty
  | short
  | json
  deriving DecidableEq, Repr, Inhabited

def OutputFormat.ofText? (name : Text) : Option OutputFormat :=
  if name = "pretty" then some .pretty
  else if name = "short" then some .short
  else if name = "json" then some .json
  else none

structure OutputStyle where
  format : OutputFormat := .pretty
  coloured : Bool := false
  paths : PathStyle := .auto
  deriving DecidableEq, Repr, Inhabited

/-- Diagnostics as they are shown; nothing is written for none. -/
def OutputStyle.render (style : OutputStyle) (files : FileSet) (diagnostics : List Diagnostic) :
    Text :=
  if diagnostics.isEmpty then []
  else
    match style.format with
    | .short => Diagnostic.renderShort (some files) true diagnostics ++ "\n"
    | .json =>
      Diagnostic.renderReport { positions := true, paths := style.paths, notes := true }
        (some files) diagnostics
    | .pretty =>
      Diagnostic.renderPretty
        { coloured := style.coloured, context := 1, paths := style.paths, notes := true }
        (some files) diagnostics

end FragmentCompiler
