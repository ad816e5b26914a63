import FragmentCompiler.Text.Blank
import FragmentCompiler.Text.JsonText
import FragmentCompiler.Text.Style

/-!
# The version of the tool

What a build says about itself.
-/

namespace FragmentCompiler

structure Version where
  number : Text := "0.1.0-dev"
  commit : Text := []
  built : Text := []
  deriving DecidableEq, Repr, Inhabited

namespace Version

def tool (version : Version) : Text := "kiln " ++ version.number

def majorStyle : Style := ⟨[.yellow, .bold]⟩
def minorStyle : Style := ⟨[.green, .bold]⟩
def patchStyle : Style := ⟨[.blue, .bold]⟩

/-- The number with each of its three parts in a style of its own; a number of
another form stays as it is. -/
def painted (version : Version) (coloured : Bool) : Text :=
  let (core, suffix) := Text.cut 45 version.number
  match Text.splitAtMost 46 3 core with
  | [major, minor, patch] =>
    let tail : Text := match suffix with
      | none | some [] => []
      | some suffix => "-" ++ suffix
    majorStyle.paint coloured major ++ "." ++ minorStyle.paint coloured minor ++ "." ++
      patchStyle.paint coloured patch ++ tail
  | _ => version.number

def optionalLine (label value : Text) : Text :=
  if value.isEmpty then [] else label ++ value ++ "\n"

def banner (version : Version) (coloured : Bool) : Text :=
  "kiln " ++ version.painted coloured ++ "\n" ++ optionalLine "commit: " version.commit ++
    optionalLine "built:  " version.built

structure Shown where
  commit : Bool := false
  built : Bool := false
  deriving DecidableEq, Repr, Inhabited

def known (value : Text) : Text := if value.trim.isEmpty then "unknown" else value.trim

def renderPretty (version : Version) (coloured : Bool) (shown : Shown) : Text :=
  if !shown.commit && !shown.built then version.banner coloured
  else
    "kiln " ++ version.painted coloured ++ "\n" ++
      (if shown.commit then "commit: " ++ known version.commit ++ "\n" else []) ++
      (if shown.built then "built:  " ++ known version.built ++ "\n" else [])

def renderRecord (version : Version) (shown : Shown) : Text :=
  let number : Text := if version.number.trim.isEmpty then "dev" else version.number.trim
  let document : JsonText := .ofParts [
    [("tool", .string "kiln"), ("version", .string number)],
    if shown.commit then [("git_commit", .string (known version.commit))] else [],
    if shown.built then [("build_date", .string (known version.built))] else []]
  document.indented 0 ++ "\n"

end Version

end FragmentCompiler
