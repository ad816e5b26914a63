import FragmentCompiler.Script.Event
import FragmentCompiler.Text.Width

/-!
# The progress of a run

A view with a row per script, the script being compiled and a summary.
-/

namespace FragmentCompiler

inductive RowState where
  | queued
  | loading
  | loaded
  | compiling
  | done
  | error
  deriving DecidableEq, Repr, Inhabited

namespace RowState

def label : RowState → Text
  | .queued => "queued"
  | .loading => "loading"
  | .loaded => "loaded"
  | .compiling => "compiling"
  | .done => "done"
  | .error => "error"

/-- The state a status in a stage stands for; an unknown stage can be queued or
finished, but not worked on. -/
def of? (stage : Option ScriptStage) (status : Option ScriptStatus) : Option RowState :=
  match status, stage with
  | some .queued, some .compile => some .loaded
  | some .queued, _ => some .queued
  | some .working, some .load => some .loading
  | some .working, some .compile => some .compiling
  | some .working, none => none
  | some .done, _ => some .done
  | some .error, _ => some .error
  | none, _ => none

def isFinished (state : RowState) : Bool := state = .done || state = .error

end RowState

structure ProgressRow where
  name : Text
  state : RowState := .queued
  milliseconds : Int := 0
  failure : Text := []
  deriving DecidableEq, Repr, Inhabited

structure ProgressView where
  title : Text
  rows : List ProgressRow
  phase : Option RowState := none
  current : Text := []
  width : Nat := 80
  frame : Nat := 0
  closed : Bool := false
  deriving DecidableEq, Repr, Inhabited

inductive ProgressInput where
  | resize (width : Int)
  | tick
  | change (file : Text) (state : Option RowState) (failure : Option Text) (milliseconds : Int)
  | close
  deriving DecidableEq, Repr

namespace ProgressView

def ofScripts (title : Text) (names : List Text) : ProgressView :=
  { title, rows := names.map fun name => { name := name } }

def frames : List Text := ["⣾ ", "⣽ ", "⣻ ", "⢿ ", "⡿ ", "⣟ ", "⣯ ", "⣷ "]

/-- The index of the row for a name; of equal names the last one counts. -/
def rowOf? (view : ProgressView) (name : Text) : Option Nat :=
  (view.rows.zipIdx.filter fun entry => entry.1.name = name).getLast?.map (·.2)

def change (view : ProgressView) (file : Text) (state : RowState) (failure : Option Text)
    (milliseconds : Int) : ProgressView :=
  if file.isEmpty then { view with phase := some state }
  else
    match view.rowOf? file with
    | none => view
    | some index =>
      let rows := view.rows.modify index fun row =>
        { row with
          state
          milliseconds := row.milliseconds + milliseconds
          failure := failure.getD row.failure }
      let current :=
        if state = .compiling then file
        else if state.isFinished && view.current = file then []
        else view.current
      { view with rows, current }

def update (view : ProgressView) : ProgressInput → ProgressView
  | .resize width => if 0 < width then { view with width := width.toNat } else view
  | .tick => if view.closed then view else { view with frame := (view.frame + 1) % frames.length }
  | .change _ none _ _ => view
  | .change file (some state) failure milliseconds =>
    view.change file state failure milliseconds
  | .close => { view with closed := true, current := [] }

def renderDuration (milliseconds : Nat) : Text :=
  if milliseconds < 1000 then Text.decimal milliseconds ++ "ms"
  else
    let seconds := milliseconds / 1000
    let fraction : Text := (Text.zeros (3 - (Text.decimal (milliseconds % 1000)).length) ++
      Text.decimal (milliseconds % 1000)).reverse.dropWhile (· == 48) |>.reverse
    let tail : Text := (if fraction.isEmpty then [] else "." ++ fraction : Text) ++ "s"
    let minutes := seconds / 60
    let low : Text := Text.decimal (seconds % 60) ++ tail
    if minutes = 0 then low
    else if minutes < 60 then Text.decimal minutes ++ "m" ++ low
    else Text.decimal (minutes / 60) ++ "h" ++ Text.decimal (minutes % 60) ++ "m" ++ low

def clip (width : Nat) (value : Text) : Text :=
  if Width.ofText value ≤ width then value
  else Width.truncate value (width - 3) "..."

def plain : Text → Text
  | [] => []
  | 9 :: rest => Text.spaces 4 ++ plain rest
  | 13 :: 10 :: rest => 10 :: plain rest
  | byte :: rest => byte :: plain rest

/-- A block of text: all lines are as wide as the widest one. -/
def block (value : Text) : Text :=
  let lines := Text.split 10 (plain value)
  let width := lines.foldl (fun most line => max most (Width.ofText line)) 0
  Text.join "\n" (lines.map fun line => line ++ Text.spaces (width - Width.ofText line))

def nameWidth (view : ProgressView) : Nat := max (view.width - 24) 20

def header (view : ProgressView) : Text :=
  let phase : Text := match view.phase with
    | some phase => " (" ++ phase.label ++ ")"
    | none => []
  let lead : Text := if view.closed then "done: " else frames.getD view.frame [] ++ " "
  block (lead ++ view.title ++ phase)

def row (view : ProgressView) (entry : ProgressRow) : Text :=
  let elapsed : Text :=
    if entry.state.isFinished && 0 < entry.milliseconds then
      " " ++ renderDuration entry.milliseconds.toNat
    else []
  let failure : Text :=
    if entry.failure.isEmpty then []
    else Text.spaces 13 ++ block (clip view.nameWidth entry.failure) ++ "\n"
  "  " ++ Text.padLeft 10 entry.state.label ++ " " ++ clip view.nameWidth entry.name ++ elapsed ++
    "\n" ++ failure

def summary (view : ProgressView) : Text :=
  let done := view.rows.countP fun entry => entry.state = .done
  let failed := view.rows.countP fun entry => entry.state = .error
  Text.decimal done ++ " done, " ++ Text.decimal failed ++ " failed, " ++
    Text.decimal (view.rows.length - done - failed) ++ " pending"

def bar (view : ProgressView) : Text :=
  let cells := view.width - 9
  if view.closed then Text.times cells "█" ++ " 100%" else Text.times cells "░" ++ "   0%"

/-- The view as text; nothing is shown for no scripts. -/
def render (view : ProgressView) : Text :=
  if view.rows.isEmpty then []
  else
    let current : Text :=
      if view.current.isEmpty then []
      else "compiling " ++ clip view.nameWidth view.current ++ "\n"
    view.header ++ "\n\n" ++ view.rows.flatMap view.row ++ "\n" ++ current ++ view.summary ++
      "\n" ++ view.bar ++ "\n"

end ProgressView

end FragmentCompiler
