import FragmentCompiler.Number.Decimal

/-!
# How long the stages of a run took
-/

namespace FragmentCompiler

/-- The microseconds each stage took; a stage that was not reached has none. -/
structure StageTimings where
  load : Option Nat := none
  compile : Option Nat := none
  deriving DecidableEq, Repr, Inhabited

namespace StageTimings

def total (timings : StageTimings) : Nat := timings.load.getD 0 + timings.compile.getD 0

def line (label : Text) (microseconds : Nat) : Text :=
  label ++ " " ++ Decimal.fixed 1 (microseconds.toFloat / 1000) ++ " ms\n"

def render (timings : StageTimings) : Text :=
  timings.load.elim [] (line "loaded") ++ timings.compile.elim [] (line "compiled") ++
    line "total" timings.total

end StageTimings

end FragmentCompiler
