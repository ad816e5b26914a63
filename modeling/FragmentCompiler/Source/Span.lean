import FragmentCompiler.Text.Basic

/-!
# Spans

A span is a part of a buffer given by byte offsets, the end excluded.  Offsets
are 32-bit words: lengths and columns computed from them wrap.
-/

namespace FragmentCompiler

abbrev FileId := Nat

structure Span where
  file : FileId
  start : Nat
  stop : Nat
  deriving DecidableEq, Repr, Inhabited, Hashable

def wordSize : Nat := 4294967296

namespace Span

def none : Span := ⟨0, 0, 0⟩

def isNone (span : Span) : Bool := span.start = 0 && span.stop = 0

def isEmpty (span : Span) : Bool := span.start = span.stop

def length (span : Span) : Nat := (span.stop + wordSize - span.start) % wordSize

/-- The least span of the same buffer that holds both; a span of another buffer
adds nothing. -/
def cover (span other : Span) : Span :=
  if span.file = other.file then
    { span with start := min span.start other.start, stop := max span.stop other.stop }
  else span

def render (span : Span) : Text :=
  Text.decimal span.file ++ ":" ++ Text.decimal span.start ++ "-" ++ Text.decimal span.stop

end Span

end FragmentCompiler
