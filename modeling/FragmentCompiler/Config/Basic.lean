import FragmentCompiler.Source.FileTree
import FragmentCompiler.Text.Blank
import FragmentCompiler.Text.Quoted
import FragmentCompiler.Toml.Reader

/-!
# Project settings

Settings come from a file of a fixed name that is looked for from a directory
towards the root.  Without one the defaults hold.
-/

namespace FragmentCompiler

structure Config where
  snapshot : Text := []
  dynamicLookup : Bool := false
  maxDiagnostics : Int := 100
  timings : Bool := false
  prompt : Text := "kiln> "
  history : Text := []
  includePaths : List Text := []
  deriving DecidableEq, Repr, Inhabited

inductive ConfigError where
  | search (candidate : Text) (fault : FileFault)
  | unreadable (path : Text) (cause : FileError)
  /-- The text is no document, or a setting has a value of another type. -/
  | malformed (path : Text)
  | unknownKeys (path : Text) (keys : List Toml.Key)
  | limitNotPositive (path : Text)
  | emptyPrompt (path : Text)
  deriving DecidableEq, Repr

def ConfigError.message : ConfigError → Text
  | .search candidate fault =>
    "failed to stat " ++ candidate.quote ++ ": stat " ++ candidate ++ ": " ++ fault.message
  | .unreadable path cause => path ++ ": failed to parse TOML: " ++ cause.message
  | .malformed path => path ++ ": failed to parse TOML: toml: invalid document"
  | .unknownKeys path keys =>
    path ++ ": unknown keys: " ++ Text.join ", " (keys.map Toml.Key.render)
  | .limitNotPositive path => path ++ ": [session].max_diagnostics must be positive"
  | .emptyPrompt path => path ++ ": [repl].prompt must not be empty"

namespace Config

def fileName : Text := "kiln.toml"

/-- A code point of a name without regard to case, for the letters names of settings
use and the code points beyond ASCII that fold to one of them. -/
def foldedRune (rune : Rune) : Text :=
  if 0x41 ≤ rune.code && rune.code ≤ 0x5A then [(rune.code + 32).toUInt8]
  else if rune.code = 0x17F then [115]
  else if rune.code = 0x212A then [107]
  else rune.bytes

/-- The form in which names of settings are compared: without regard to case. -/
def folded (name : Text) : Text := (Utf8.runes name).flatMap foldedRune

inductive Setting where
  | snapshot
  | dynamicLookup
  | maxDiagnostics
  | timings
  | prompt
  | history
  | includePaths
  deriving DecidableEq, Repr

def Setting.all : List (Setting × Text × Text) := [
  (.snapshot, "session", "snapshot"),
  (.dynamicLookup, "session", "dynamic_lookup"),
  (.maxDiagnostics, "session", "max_diagnostics"),
  (.timings, "session", "timings"),
  (.prompt, "repl", "prompt"),
  (.history, "repl", "history"),
  (.includePaths, "include", "paths")]

def isSection (name : Text) : Bool :=
  Setting.all.any fun (_, group, _) => folded name == group

def setting? (group name : Text) : Option Setting :=
  (Setting.all.find? fun (_, itsGroup, itsName) =>
    folded group == itsGroup && folded name == itsName).map (·.1)

def strings? : List Toml.Value → Option (List Text)
  | [] => some []
  | .string value :: rest => (strings? rest).map (value :: ·)
  | _ :: _ => none

/-- Gives a setting the value it has in a document; none if it is of another type. -/
def set? (config : Config) : Setting → Toml.Value → Option Config
  | .snapshot, .string snapshot => some { config with snapshot }
  | .dynamicLookup, .scalar (.boolean dynamicLookup) => some { config with dynamicLookup }
  | .maxDiagnostics, .scalar (.integer maxDiagnostics) => some { config with maxDiagnostics }
  | .timings, .scalar (.boolean timings) => some { config with timings }
  | .prompt, .string prompt => some { config with prompt }
  | .history, .string history => some { config with history }
  | .includePaths, .array items =>
    (strings? items).map fun includePaths => { config with includePaths }
  | _, _ => none

def takeSection? (group : Text) (config : Config) : Toml.Table → Option Config
  | [] => some config
  | (name, value) :: rest =>
    match setting? group name with
    | none => takeSection? group config rest
    | some setting =>
      (config.set? setting value).bind fun config => takeSection? group config rest

/-- Takes the settings of a document; names of no setting are left out. -/
def takeAll? (config : Config) : Toml.Table → Option Config
  | [] => some config
  | (name, value) :: rest =>
    if isSection name then
      match value with
      | .table entries =>
        (takeSection? name config entries).bind fun config => takeAll? config rest
      | _ => none
    else takeAll? config rest

def isKnown : Toml.Key → Bool
  | [group] => isSection group
  | [group, name] => (setting? group name).isSome
  | _ => false

def resolve (root path : Text) : Text :=
  let path := path.trim
  if path.isEmpty || Path.isAbsolute path then path else Path.joinAll [root, path]

def ofDocument (path : Text) (document : Toml.Document) : Except ConfigError Config :=
  match takeAll? {} document.root with
  | none => .error (.malformed path)
  | some config =>
    let unknown := document.keys.filter fun key => !isKnown key
    if !unknown.isEmpty then .error (.unknownKeys path unknown)
    else if document.defines ["session", "max_diagnostics"] && config.maxDiagnostics ≤ 0 then
      .error (.limitNotPositive path)
    else if document.defines ["repl", "prompt"] && config.prompt.isEmpty then
      .error (.emptyPrompt path)
    else
      let root := Path.directory path
      .ok { config with
        snapshot := resolve root config.snapshot
        history := resolve root config.history
        includePaths := config.includePaths.map (resolve root) }

def read (tree : FileTree) (path : Text) : Except ConfigError Config :=
  match tree.read path with
  | .error cause => .error (.unreadable path cause)
  | .ok text =>
    match Toml.Document.ofText? text with
    | none => .error (.malformed path)
    | some document => ofDocument path document

def ancestors : Nat → Text → List Text
  | 0, directory => [directory]
  | fuel + 1, directory =>
    if Path.directory directory = directory then [directory]
    else directory :: ancestors fuel (Path.directory directory)

def findIn (tree : FileTree) : List Text → Except ConfigError (Option Text)
  | [] => .ok none
  | directory :: rest =>
    let candidate := Path.joinAll [directory, fileName]
    match tree.status candidate with
    | .ok _ => .ok (some candidate)
    | .error .notFound => findIn tree rest
    | .error fault => .error (.search candidate fault)

def find (tree : FileTree) (start : Text) : Except ConfigError (Option Text) :=
  let directory := Path.absolute tree.workingDirectory start
  findIn tree (ancestors directory.length directory)

/-- The settings that hold for a directory, with the file they come from. -/
def load (tree : FileTree) (start : Text) : Except ConfigError (Option Text × Config) :=
  match find tree start with
  | .error error => .error error
  | .ok none => .ok (none, {})
  | .ok (some path) => (read tree path).map fun config => (some path, config)

end Config

end FragmentCompiler
