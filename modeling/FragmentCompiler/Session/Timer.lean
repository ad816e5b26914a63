import FragmentCompiler.Number.Decimal
import FragmentCompiler.Text.JsonText

/-!
# Phases of a call

A timer lists the phases of a compile call in the order they begin.
-/

namespace FragmentCompiler

structure Phase where
  name : Text
  milliseconds : Float := 0
  note : Text := []
  deriving Repr, Inhabited

/-- The phases of a call; an absent timer records nothing. -/
structure Timer where
  phases : List Phase := []
  deriving Repr, Inhabited

namespace Timer

def begin (timer : Timer) (name : Text) : Nat × Timer :=
  (timer.phases.length, ⟨timer.phases ++ [{ name := name }]⟩)

/-- Ends the phase of an index with a note; an index of no phase is ignored. -/
def finish (timer : Timer) (index : Int) (note : Text) : Timer :=
  if index < 0 then timer
  else ⟨timer.phases.modify index.toNat fun phase => { phase with note }⟩

/-- Begins a phase if there is a timer; without one the index is that of no phase. -/
def beginIn (timer : Option Timer) (name : Text) : Int × Option Timer :=
  match timer with
  | some timer => let (index, timer) := timer.begin name; (index, some timer)
  | none => (-1, none)

def total (timer : Timer) : Float :=
  timer.phases.foldl (fun sum phase => sum + phase.milliseconds) 0

def renderDuration (milliseconds : Float) : Text :=
  Text.padLeft 7 (Decimal.fixed 2 milliseconds) ++ " ms"

def summary (timer : Timer) : Text :=
  let row (phase : Phase) : Text :=
    let note : Text := if phase.note.isEmpty then [] else "  // " ++ phase.note
    "  " ++ Utf8.fill 20 phase.name ++ " " ++ renderDuration phase.milliseconds ++ note ++ "\n"
  "timings:\n" ++ timer.phases.flatMap row ++ "  " ++ Utf8.fill 20 "total" ++ " " ++
    renderDuration timer.total ++ "\n"

def phaseRecord (phase : Phase) : JsonText :=
  .ofParts [
    [("name", .string phase.name), ("duration_ms", .number (Decimal.render phase.milliseconds))],
    JsonText.optionalField "note" phase.note]

def record (timer : Timer) (fragment : Text) : JsonText :=
  .ofParts [
    [("kind", .string "compile")],
    JsonText.optionalField "fragment" fragment,
    [("total_ms", .number (Decimal.render timer.total)),
      ("phases", .array (timer.phases.map phaseRecord))]]

end Timer

end FragmentCompiler
