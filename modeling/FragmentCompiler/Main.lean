import FragmentCompiler.CommandLine.Basic

/-!
# The program

Reads the files a command can reach, follows the command line, and writes what
changed.
-/

namespace FragmentCompiler.Program

open FragmentCompiler

def contentOf (path : String) : IO (Option Text) := do
  try
    return some (← IO.FS.readBinFile path).toList
  catch _ => return none

/-- Adds files, and those in directories, to a tree; what cannot be read is left
out. -/
partial def gather (tree : FileTree) (entries : List IO.FS.DirEntry) : IO FileTree :=
  entries.foldlM (fun tree entry => do
    let path : String := entry.path.toString
    if ← entry.path.isDir then
      let tree := tree.put (Text.ofString path) .directory
      try
        gather tree (← entry.path.readDir).toList
      catch _ => return tree
    else
      match ← contentOf path with
      | some content => return tree.put (Text.ofString path) (.file content)
      | none => return tree) tree

def gatherFiles (tree : FileTree) (paths : List Text) : IO FileTree :=
  paths.foldlM (fun tree path => do
    match ← contentOf (Text.toString path) with
    | some content =>
      return tree.populate (Path.absolute tree.workingDirectory path) content
    | none => return tree) tree

/-- The files a command can reach: those below the working directory, the settings
of the directories above it, and those the command line names. -/
def reachable (words : List Text) : IO FileTree := do
  let place ← IO.currentDir
  let directory := Text.ofString place.toString
  let tree ← gather (.empty directory) (← place.readDir).toList
  let settings := (Config.ancestors directory.length directory).map fun above =>
    Path.joinAll [above, Config.fileName]
  gatherFiles tree (settings ++ words)

def save (before after : FileTree) : IO Unit := do
  for (path, node) in after.nodes do
    if before.node? path ≠ some node then
      match node with
      | .directory => IO.FS.createDirAll (Text.toString path)
      | .file content => IO.FS.writeBinFile (Text.toString path) ⟨content.toArray⟩
  for (path, node) in before.nodes do
    if node ≠ .directory && (after.node? path).isNone then
      IO.FS.removeFile (Text.toString path)

def put (stream : IO.FS.Stream) (text : Text) : IO Unit := do
  stream.write ⟨text.toArray⟩
  stream.flush

def withoutEnd (line : Text) : Text := (line.withoutTail "\n").withoutTail "\r"

/-- Takes lines until the shell is left; the entered lines come with it, latest
first. -/
partial def converse (start : ShellStart) (onTerminal : Bool) (shell : Shell)
    (entered : List Text) : IO (Shell × List Text) := do
  let output ← IO.getStdout
  if onTerminal then put output (shell.prompt start.prompt)
  let line ← (← IO.getStdin).getLine
  if line.isEmpty then return (shell, entered)
  let text := withoutEnd (Text.ofString line)
  let (reply, shell) := shell.handle text
  put output reply.out
  put (← IO.getStderr) reply.err
  if reply.leaves then return (shell, text :: entered)
  converse start onTerminal shell (text :: entered)

def follow (words : List Text) : IO UInt32 := do
  let tree ← reachable words
  let onTerminal ← (← IO.getStdin).isTty
  let result ←
    match CommandLine.start tree onTerminal words with
    | .finished result => pure result
    | .shell start => do
        put (← IO.getStdout) start.banner
        let (shell, entered) ← converse start onTerminal start.shell []
        pure (CommandLine.finishShell start shell entered.reverse)
  put (← IO.getStdout) result.out
  put (← IO.getStderr) result.err
  save tree result.tree
  return result.status.toUInt32

end FragmentCompiler.Program

def main (arguments : List String) : IO UInt32 :=
  FragmentCompiler.Program.follow (arguments.map FragmentCompiler.Text.ofString)
