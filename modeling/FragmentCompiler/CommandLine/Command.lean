import FragmentCompiler.CommandLine.Flag

/-!
# Commands

The commands of the tool with their flags, and how the words of a command line
choose one of them.
-/

namespace FragmentCompiler

inductive Command where
  /-- Without a command the shell is started. -/
  | tool
  | repl
  | run
  | decls
  | snapshot
  | build
  | inspect
  | version
  | help
  | completion
  deriving DecidableEq, Repr, Inhabited

inductive ArgumentRule where
  | nothing
  | anything
  | exactly (count : Nat)
  | atLeast (count : Nat)
  deriving DecidableEq, Repr, Inhabited

namespace Command

def name : Command → Text
  | .tool => "kiln"
  | .repl => "repl"
  | .run => "run"
  | .decls => "decls"
  | .snapshot => "snapshot"
  | .build => "build"
  | .inspect => "inspect"
  | .version => "version"
  | .help => "help"
  | .completion => "completion"

def lead : Command → Text
  | .tool => []
  | .build | .inspect => "kiln snapshot "
  | _ => "kiln "

def path (command : Command) : Text := command.lead ++ command.name

def operands : Command → Text
  | .run => " <file>..."
  | .decls => " <file>"
  | .build => " <path> [file]..."
  | .inspect => " <path>"
  | .help => " [command]"
  | _ => []

def summary : Command → Text
  | .tool => "Incremental compiler and interactive shell"
  | .repl => "Start the interactive shell"
  | .run => "Compile and run script files in one session"
  | .decls => "Parse a file into declarations without running it"
  | .snapshot => "Build and inspect startup snapshots"
  | .build => "Compile the runtime and the given files, then save the session"
  | .inspect => "List the declarations stored in a snapshot"
  | .version => "Show kiln build information"
  | .help => "Help about any command"
  | .completion => "Generate the autocompletion script for the specified shell"

def description : Command → Text
  | .tool => "kiln compiles source fragments one at a time against a growing session.
Without a subcommand it starts the interactive shell."
  | .run => "run loads the files in parallel and compiles them in the given order
into a single session, so later files see the declarations of earlier ones."
  | .decls => "decls parses and analyzes the file as one fragment with code generation
disabled and prints every dispatched declaration group."
  | .help => "Help provides help for any command in the application.
Simply type kiln help [path to command] for full details."
  | .completion => "Generate the autocompletion script for kiln for the specified shell.
See each sub-command's help for details on how to use the generated script."
  | command => command.summary

def children : Command → List Command
  | .tool => [.repl, .run, .decls, .snapshot, .version, .help, .completion]
  | .snapshot => [.build, .inspect]
  | _ => []

def isRunnable (command : Command) : Bool :=
  command ≠ .snapshot && command ≠ .completion

def rule : Command → ArgumentRule
  | .repl => .nothing
  | .run | .build => .atLeast 1
  | .decls | .inspect => .exactly 1
  | _ => .anything

def sharedFlags : List Flag := [
  { name := "color", kind := .word, initial := "auto"
    usage := "colorize output (auto|on|off)" },
  { name := "timings", usage := "show timing information" },
  { name := "max-diagnostics", kind := .number
    usage := "maximum number of diagnostics per compile call (0 uses kiln.toml or the default)" },
  { name := "diag-format", kind := .word, initial := "pretty"
    usage := "diagnostics format (pretty|short|json)" },
  { name := "path-mode", kind := .word, initial := "auto"
    usage := "how to print file paths (auto|absolute|relative|basename)" },
  { name := "config", kind := .word
    usage := "path to kiln.toml (default: search upwards from the working directory)" },
  { name := "snapshot", kind := .word
    usage := "startup snapshot to load, or to build when it does not exist" },
  { name := "dynamic-lookup", usage := "resolve unknown names at run time" },
  { name := "include", letter := some 73, kind := .words
    usage := "additional include directories" },
  { name := "no-runtime", usage := "do not include the runtime at startup" },
  { name := "trace", kind := .word, usage := "write trace events to a file (- for stderr)" },
  { name := "trace-level", kind := .word, initial := "off"
    usage := "trace level (off|error|phase|detail|debug)" },
  { name := "trace-mode", kind := .word, initial := "stream"
    usage := "trace mode (stream|ring|both)" },
  { name := "trace-format", kind := .word, initial := "auto"
    usage := "trace output format (auto|text|ndjson|chrome)" },
  { name := "trace-ring-size", kind := .number, initial := "4096"
    usage := "ring buffer capacity for ring mode" },
  { name := "trace-heartbeat", kind := .duration
    usage := "emit heartbeat events at this interval (0 disables)" },
  { name := "cpu-profile", kind := .word, usage := "write a CPU profile to this file" },
  { name := "mem-profile", kind := .word, usage := "write a heap profile to this file on exit" },
  { name := "runtime-trace", kind := .word
    usage := "write a Go runtime trace to this file" }]

def ownFlags : Command → List Flag
  | .run => [
      { name := "ui", kind := .word, initial := "auto", usage := "progress UI (auto|on|off)" },
      { name := "jobs", kind := .number, usage := "max parallel file loads (0=auto)" },
      { name := "keep-going", usage := "continue with the next file after a failure" }]
  | .build => [{ name := "force", usage := "overwrite an existing snapshot" }]
  | .inspect => [{ name := "source", usage := "print the source of every declaration" }]
  | .version => [
      { name := "hash", usage := "include git commit hash" },
      { name := "date", usage := "include build timestamp" },
      { name := "full", usage := "show all recorded build metadata" },
      { name := "format", kind := .word, initial := "pretty"
        usage := "output format (pretty|json)" }]
  | _ => []

def helpFlags (command : Command) : List Flag :=
  let help : Flag := { name := "help", letter := some 104, usage := "help for " ++ command.name }
  if command = .tool then
    [help, { name := "version", letter := some 118, usage := "version for kiln" }]
  else [help]

def flags (command : Command) : List Flag :=
  sharedFlags ++ command.ownFlags ++ command.helpFlags

/-- Whether the word after a written flag is its value, as far as is known before
a command is chosen: a flag that is not known is taken to need one. -/
def takesNext (command : Command) (written : Text) : Bool :=
  let known := sharedFlags ++ command.ownFlags
  let isToggle (flag : Option Flag) : Bool := flag.any fun flag => flag.kind = .toggle
  !written.contains 61 &&
    ((written.startsWith "--" && !isToggle (known.find? fun flag => flag.name = written.drop 2)) ||
      (written.startsWith "-" && written.length = 2 &&
        !isToggle (known.find? fun flag => flag.letter = written.getLast?)))

def bareWords (command : Command) : List Text → List Text
  | [] => []
  | word :: rest =>
    if word = "--" then []
    else if command.takesNext word then
      match rest with
      | _ :: next :: more => bareWords command (next :: more)
      | _ => []
    else if word.isEmpty || word.startsWith "-" then bareWords command rest
    else word :: bareWords command rest

def withoutWord (command : Command) (chosen : Text) : List Text → List Text
  | [] => []
  | word :: rest =>
    if word = "--" then word :: rest
    else if command.takesNext word then
      match rest with
      | value :: more => word :: value :: withoutWord command chosen more
      | [] => [word]
    else if word = chosen then rest
    else word :: withoutWord command chosen rest

def choose : Nat → Command → List Text → Command × List Text
  | 0, command, words => (command, words)
  | fuel + 1, command, words =>
    match command.bareWords words with
    | [] => (command, words)
    | word :: _ =>
      match command.children.find? fun child => child.name = word with
      | some child => choose fuel child (command.withoutWord word words)
      | none => (command, words)

/-- The number of single-byte changes that turn one text into another, given the
costs for the beginnings of the first text. -/
def editCosts (source : Text) : Text → List Nat → List Nat
  | [], costs => costs
  | byte :: rest, costs =>
    let step (state : Nat × Nat × List Nat) (entry : UInt8 × Nat) : Nat × Nat × List Nat :=
      let (diagonal, left, row) := state
      let (other, above) := entry
      let cost := min (min (above + 1) (left + 1)) (diagonal + if other = byte then 0 else 1)
      (above, cost, row ++ [cost])
    match costs with
    | [] => []
    | first :: others =>
      let (_, _, row) := (source.zip others).foldl step (first, first + 1, [first + 1])
      editCosts source rest row

/-- The number of single-byte changes that turn one text into another. -/
def editDistance (source target : Text) : Nat :=
  (editCosts source target (List.range (source.length + 1))).getLast?.getD 0

def suggestions (word : Text) : List Text :=
  (([.repl, .run, .decls, .snapshot, .version, .completion] : List Command).map name).filter
    fun name => editDistance word.lower name ≤ 2 || name.startsWith word.lower

end Command

end FragmentCompiler
