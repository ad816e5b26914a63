import FragmentCompiler.CommandLine.Command

/-!
# Help

The help of a command lists what it is for, how it is written, the commands below
it and its flags.
-/

namespace FragmentCompiler.Command

open FragmentCompiler

def valueWord : FlagKind → Text
  | .toggle => []
  | .word => " string"
  | .number => " int"
  | .words => " strings"
  | .duration => " duration"

def flagColumn (flag : Flag) : Text :=
  let letter : Text := match flag.letter with
    | some letter => "  -" ++ [letter] ++ ", "
    | none => Text.spaces 6
  letter ++ "--" ++ flag.name ++ valueWord flag.kind

def flagNote (flag : Flag) : Text :=
  if flag.initial.isEmpty then flag.usage
  else if flag.kind = .word then flag.usage ++ " (default " ++ flag.initial.quote ++ ")"
  else flag.usage ++ " (default " ++ flag.initial ++ ")"

def flagTable (flags : List Flag) : Text :=
  let sorted := flags.mergeSort fun left right => !Text.before right.name left.name
  let width := (sorted.map fun flag => (flagColumn flag).length).foldl max 0
  Text.join "\n" (sorted.map fun flag =>
    flagColumn flag ++ Text.spaces (width - (flagColumn flag).length + 3) ++ flagNote flag)

def completionShells : List Text := ["bash", "fish", "powershell", "zsh"]

def continuations (command : Command) : List (Text × Text) :=
  if command = .completion then
    completionShells.map fun shell => (shell, "Generate the autocompletion script for " ++ shell)
  else
    let sorted := Text.sort (command.children.map name)
    sorted.flatMap fun word =>
      (command.children.filter fun child => child.name = word).map fun child =>
        (word, child.summary)

/-- The part of the help that only a command with others below it has. -/
def continuationTable (command : Command) : Text :=
  let line (entry : Text × Text) : Text :=
    "\n  " ++ Utf8.fill 11 entry.1 ++ " " ++ entry.2
  "\n\nAvailable Commands:" ++ command.continuations.flatMap line

def usageWith (command : Command) (own : List Flag) : Text :=
  let isParent := !command.continuations.isEmpty
  let parts : List Text := [
    "Usage:",
    if command.isRunnable then "\n  " ++ command.path ++ command.operands ++ " [flags]" else [],
    if isParent then "\n  " ++ command.path ++ " [command]" ++ command.continuationTable else [],
    "\n\nFlags:\n",
    if command = .tool then flagTable (sharedFlags ++ own)
    else flagTable own ++ "\n\nGlobal Flags:\n" ++ flagTable sharedFlags,
    if isParent then
      "\n\nUse \"" ++ command.path ++ " [command] --help\" for more information about a command."
    else [],
    "\n"]
  parts.flatten

def helpText (command : Command) : Text :=
  command.description ++ "\n\n" ++
    command.usageWith (command.ownFlags ++ command.helpFlags)

end FragmentCompiler.Command
