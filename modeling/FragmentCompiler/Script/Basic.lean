import FragmentCompiler.Source.FileTree
import FragmentCompiler.Text.Blank

/-!
# Scripts

A script is a source file that is compiled as one fragment.
-/

namespace FragmentCompiler

structure Script where
  path : Text
  display : Text
  text : Text
  deriving DecidableEq, Repr, Inhabited

namespace Script

/-- How a path is shown: relative to a directory that holds it, and otherwise as
it is given.  Without a directory every path is shown as it is given. -/
def displayName (workingDirectory directory path : Text) : Text :=
  let directory := directory.trim
  if directory.isEmpty then Path.clean path
  else
    let seen := Path.relative (Path.absolute workingDirectory directory)
      (Path.absolute workingDirectory (Path.clean path))
    if seen = "." || seen.startsWith ".." then Path.clean path else seen

def load (tree : FileTree) (directory path : Text) : Except FileError Script :=
  (tree.read path).map fun text =>
    { path, display := displayName tree.workingDirectory directory path, text }

end Script

end FragmentCompiler
