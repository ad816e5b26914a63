import FragmentCompiler.CommandLine.Flag
import FragmentCompiler.Config.Basic
import FragmentCompiler.Diagnostic.Output
import FragmentCompiler.Session.Basic

/-!
# Settings of a command

The settings of a project together with the flags of a command line, which win
over them.
-/

namespace FragmentCompiler

inductive Choice where
  | auto
  | on
  | off
  deriving DecidableEq, Repr, Inhabited

namespace Choice

def name : Choice → Text
  | .auto => "auto"
  | .on => "on"
  | .off => "off"

/-- The choice of a word in lower case; no word leaves it to the tool. -/
def ofWord? (word : Text) : Option Choice :=
  if word.isEmpty then some .auto
  else [Choice.auto, .on, .off].find? fun choice => choice.name = word

def ofProgressWord? (word : Text) : Option Choice := ofWord? word.lower.trim

/-- Whether a choice about progress shows it; the tool shows it only on a terminal
and for several scripts. -/
def showsProgress (choice : Choice) (onTerminal : Bool) (scripts : Nat) : Bool :=
  match choice with
  | .on => true
  | .off => false
  | .auto => onTerminal && 1 < scripts

end Choice

inductive SettingsError where
  | config (cause : ConfigError)
  | colour (word : Text)
  | format (word : Text)
  | progress (word : Text)
  deriving DecidableEq, Repr

def SettingsError.message : SettingsError → Text
  | .config cause => cause.message
  | .colour word => "invalid --color value " ++ word.quote ++ " (expected auto|on|off)"
  | .format word => "invalid --diag-format value " ++ word.quote ++ " (expected pretty|short|json)"
  | .progress word => "invalid --ui value " ++ word.quote ++ " (expected auto|on|off)"

structure Settings where
  config : Config := {}
  style : OutputStyle := {}
  directory : Text := []
  noBootstrap : Bool := false
  deriving DecidableEq, Repr, Inhabited

namespace Settings

def readConfig (tree : FileTree) (reading : FlagReading) : Except SettingsError Config :=
  let path := reading.word "config" []
  let config :=
    if path.isEmpty then (Config.load tree tree.workingDirectory).map (·.2)
    else Config.read tree path
  config.mapError .config

def overlay (config : Config) (reading : FlagReading) : Config :=
  let most := reading.number "max-diagnostics" 0
  { config with
    snapshot := reading.word "snapshot" config.snapshot
    dynamicLookup :=
      if reading.has "dynamic-lookup" then reading.isOn "dynamic-lookup" else config.dynamicLookup
    timings := if reading.has "timings" then reading.isOn "timings" else config.timings
    maxDiagnostics := if 0 < most then most else config.maxDiagnostics
    includePaths := config.includePaths ++ reading.words "include" }

/-- The look of diagnostics; the tool colours them on a terminal. -/
def readStyle (onTerminal : Bool) (reading : FlagReading) : Except SettingsError OutputStyle :=
  let colour := reading.word "color" "auto"
  let format := reading.word "diag-format" "pretty"
  match Choice.ofWord? colour.lower, OutputFormat.ofText? format with
  | none, _ => .error (.colour colour)
  | some _, none => .error (.format format)
  | some choice, some format =>
    .ok
      { format
        coloured := choice = .on || (choice = .auto && onTerminal)
        paths := .ofWord (reading.word "path-mode" "auto") }

def load (tree : FileTree) (onTerminal : Bool) (reading : FlagReading) :
    Except SettingsError Settings := do
  let config ← readConfig tree reading
  let style ← readStyle onTerminal reading
  return { config := overlay config reading
           style
           directory := tree.workingDirectory
           noBootstrap := reading.isOn "no-runtime" }

def sessionOptions (settings : Settings) (traceLevel : TraceLevel) : SessionOptions :=
  { front := some
      { maxDiagnostics := settings.config.maxDiagnostics
        includePaths := settings.config.includePaths
        baseDirectory := settings.directory }
    snapshotPath := settings.config.snapshot
    dynamicLookup := settings.config.dynamicLookup
    timings := settings.config.timings
    noBootstrap := settings.noBootstrap
    traceLevel }

end Settings

end FragmentCompiler
