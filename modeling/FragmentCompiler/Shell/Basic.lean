import FragmentCompiler.Diagnostic.Output
import FragmentCompiler.Session.Startup
import FragmentCompiler.Shell.Balance

/-!
# The interactive shell

The shell collects lines until braces and comments are closed, runs commands that
begin with a dot, and hands everything else to a session.
-/

namespace FragmentCompiler

structure Shell where
  session : Session
  style : OutputStyle := {}
  buffer : Text := []
  balance : Balance := {}

structure ShellReply where
  leaves : Bool := false
  out : Text := []
  err : Text := []
  deriving DecidableEq, Repr, Inhabited

namespace Shell

def continuationPrompt : Text := "   ...> "

def isPending (shell : Shell) : Bool := !shell.buffer.isEmpty

def discard (shell : Shell) : Shell := { shell with buffer := [], balance := {} }

def prompt (shell : Shell) (primary : Text) : Text :=
  if shell.isPending then continuationPrompt else primary

def banner (session : Session) : Text :=
  let snapshot : Text := match session.snapshot with
    | some snapshot =>
      "snapshot " ++ snapshot.path ++ " (" ++ Text.decimal snapshot.entries.length ++
        " declarations)\n"
    | none => []
  session.version.tool ++ "\n" ++ snapshot ++ "type .help for commands\n"

def report (style : OutputStyle) (session : Session) (outcome : Outcome) : Text :=
  let refusal : Text := match outcome.error with
    | some error => "kiln: " ++ error.message ++ "\n"
    | none => []
  refusal ++ style.render session.files outcome.diagnostics.items

/-- Ends a line: takes what the session wrote and adds what the shell says. -/
def reply (shell : Shell) (session : Session) (out err : Text) : ShellReply × Shell :=
  let (written, session) := session.takeOutput
  ({ out := written.flatMap OutputPart.text ++ out, err }, { shell with session })

def say (shell : Shell) (out : Text) : ShellReply × Shell := shell.reply shell.session out []

def submit (shell : Shell) (text : Text) : ShellReply × Shell :=
  let (outcome, session) :=
    if text.trimLeft.startsWith "#" then shell.session.compile text .asIs
    else shell.session.compileLine text
  shell.reply session [] (report shell.style session outcome)

end Shell

end FragmentCompiler
