import FragmentCompiler.Shell.Basic

/-!
# Commands of the shell

Commands begin with a dot and are read word by word.
-/

namespace FragmentCompiler

namespace Toggle

def parse (word : Text) : Option Bool :=
  let lowered := word.lower
  if lowered = "on" || lowered = "true" || lowered = "1" then some true
  else if lowered = "off" || lowered = "false" || lowered = "0" then some false
  else none

def render (on : Bool) : Text := if on then "on" else "off"

end Toggle

namespace Shell

def helpText : Text := "Commands:
  .help                 show this help
  .quit, .exit          leave the shell
  .dynamic [on|off]     show or toggle dynamic name lookup
  .dump on|off          print every dispatched declaration
  .stages               list pipeline stages
  .stage <name> on|off  toggle one stage
  .txn                  show the transaction log
  .decls <code>         parse declarations without running them
  .snapshot [write]     show the startup snapshot or write the one being built

Input:
  Statements and expressions run immediately; a trailing expression
  without ';' prints its value. Lines starting with '#' are directives.
  Unbalanced braces continue on the next line.
"

def sayResult (shell : Shell) (result : Option SessionError × Session) (fine : Text) :
    ShellReply × Shell :=
  match result with
  | (some error, session) => shell.reply session ("error: " ++ error.message ++ "\n") []
  | (none, session) => shell.reply session fine []

def dynamicCommand (shell : Shell) (arguments : List Text) : ShellReply × Shell :=
  match arguments with
  | [] =>
    shell.say ("dynamic lookup: " ++ Toggle.render shell.session.journal.dynamicLookup ++ "\n")
  | word :: _ =>
    match Toggle.parse word with
    | none => shell.say "usage: .dynamic on|off\n"
    | some on => shell.sayResult (shell.session.enableLookup on) []

/-- The session with a stage enabled or disabled; none if it is not registered. -/
def switchStage (session : Session) (id : StageId) (on : Bool) : Option Session :=
  match session.pipeline.set id on with
  | (some _, pipeline) => some { session with pipeline }
  | (none, _) => none

def dumpCommand (shell : Shell) (arguments : List Text) : ShellReply × Shell :=
  match arguments with
  | [word] =>
    match Toggle.parse word with
    | none => shell.say "usage: .dump on|off\n"
    | some on =>
      shell.reply ((switchStage shell.session .dumper on).getD shell.session) [] []
  | _ => shell.say "usage: .dump on|off\n"

def stagesCommand (shell : Shell) : ShellReply × Shell :=
  let line (entry : StageEntry StageStore) : Text :=
    "  " ++ Utf8.fill 18 entry.id.name ++ " " ++ Toggle.render entry.enabled ++ "\n"
  shell.say (shell.session.pipeline.entries.flatMap line)

def stageCommand (shell : Shell) (arguments : List Text) : ShellReply × Shell :=
  match arguments with
  | [name, word] =>
    match StageId.ofText? name, Toggle.parse word with
    | none, _ => shell.say ("unknown stage " ++ name.quote ++ "\n")
    | some _, none => shell.say "usage: .stage <name> on|off\n"
    | some id, some on =>
      match switchStage shell.session id on with
      | some session => shell.reply session [] []
      | none => shell.say ("stage " ++ id.name ++ " is not registered\n")
  | _ => shell.say "usage: .stage <name> on|off\n"

def transactionLine (transaction : Transaction) : Text :=
  let fragment : Text := if transaction.fragment.isEmpty then "-" else transaction.fragment
  "  #" ++ Utf8.fill 3 (Text.decimal transaction.id) ++ " " ++ Utf8.fill 16 fragment ++ " " ++
    Utf8.fill 9 transaction.state.name ++ " groups=" ++ Text.decimal transaction.groups ++
    " decls=" ++ Text.decimal transaction.decls.length ++ "\n"

def declarationsCommand (shell : Shell) (code : Text) : ShellReply × Shell :=
  if code.isEmpty then shell.say "usage: .decls <code>\n"
  else
    let (groups, outcome, session) := shell.session.parseDeclarations code
    shell.reply session (groups.flatMap session.analysis.decls.renderGroup)
      (report shell.style session outcome)

def snapshotCommand (shell : Shell) (arguments : List Text) : ShellReply × Shell :=
  if arguments = [("write" : Text)] then
    shell.sayResult shell.session.writeSnapshot "snapshot written\n"
  else
    match shell.session.snapshot, shell.session.journal.buildingSnapshot with
    | some snapshot, _ =>
      shell.say ("using " ++ snapshot.path ++ " (" ++ Text.decimal snapshot.entries.length ++
        " declarations, " ++ snapshot.tool ++ ")\n")
    | none, true => shell.say "building; .snapshot write saves the session\n"
    | none, false => shell.say "no startup snapshot\n"

def command (shell : Shell) (line : Text) : ShellReply × Shell :=
  match line.words with
  | [] => shell.say []
  | name :: arguments =>
    if name = ".quit" || name = ".exit" then ({ leaves := true }, shell)
    else if name = ".help" then shell.say helpText
    else if name = ".dynamic" then shell.dynamicCommand arguments
    else if name = ".dump" then shell.dumpCommand arguments
    else if name = ".stages" then shell.stagesCommand
    else if name = ".stage" then shell.stageCommand arguments
    else if name = ".txn" then shell.say (shell.session.journal.log.flatMap transactionLine)
    else if name = ".decls" then shell.declarationsCommand (line.withoutLead ".decls").trim
    else if name = ".snapshot" then shell.snapshotCommand arguments
    else shell.say ("unknown command " ++ name ++ " (try .help)\n")

def handle (shell : Shell) (line : Text) : ShellReply × Shell :=
  let trimmed := line.trim
  if !shell.isPending && trimmed.isEmpty then ({}, shell)
  else if !shell.isPending && trimmed.startsWith "." then shell.command trimmed
  else
    let buffer := if shell.isPending then shell.buffer ++ "\n" ++ line else line
    let balance := shell.balance.add line
    if balance.isOpen then ({}, { shell with buffer, balance })
    else shell.discard.submit buffer

inductive Input where
  | line (text : Text)
  | interrupt
  deriving DecidableEq, Repr

def feed (shell : Shell) : Input → ShellReply × Shell
  | .line text => shell.handle text
  | .interrupt => ({}, shell.discard)

/-- Takes inputs up to the one that leaves the shell; every reply comes with the
shell after it. -/
def feedAll (shell : Shell) : List Input → List (ShellReply × Shell)
  | [] => []
  | input :: rest =>
    let (reply, shell) := shell.feed input
    (reply, shell) :: if reply.leaves then [] else feedAll shell rest

end Shell

end FragmentCompiler
