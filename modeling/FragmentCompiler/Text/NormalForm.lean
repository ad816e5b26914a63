import FragmentCompiler.Text.NormalData

/-!
# Canonical composition

Texts that mean the same characters are brought to one spelling: every code
point is decomposed, marks are put in the order of their combining classes, and
what composes is composed again.  Bytes that are no UTF-8 stay as they are and
compose with nothing.

A run of more than thirty marks is interrupted by a combining grapheme joiner,
which bounds the work on any one run.
-/

namespace FragmentCompiler.NormalForm

/-- Searches a table sorted by the given key, halving the interval in every step. -/
def lookup {α : Type} (table : Array α) (place : α → Ordering) : Nat → Nat → Nat → Option α
  | 0, _, _ => none
  | steps + 1, low, high =>
    if low < high then
      let middle := (low + high) / 2
      match table[middle]? with
      | none => none
      | some entry =>
        match place entry with
        | .lt => lookup table place steps low middle
        | .gt => lookup table place steps (middle + 1) high
        | .eq => some entry
    else none

/-- Finds an entry; `place` says where the sought key lies from an entry. -/
def find {α : Type} (table : Array α) (place : α → Ordering) : Option α :=
  lookup table place (table.size.log2 + 2) 0 table.size

def combiningClass (code : Nat) : Nat :=
  if code < 0x300 then 0
  else
    let place := fun ((first, last, _) : Nat × Nat × Nat) =>
      if code < first then Ordering.lt else if last < code then .gt else .eq
    match find combiningClasses place with
    | some (_, _, value) => value
    | none => 0

/-- The one-step decomposition of a code point; Hangul syllables decompose by
arithmetic. -/
def decomposeOnce (code : Nat) : Option (List Nat) :=
  if 0xAC00 ≤ code && code ≤ 0xD7A3 then
    let index := code - 0xAC00
    let lead := 0x1100 + index / 588
    let vowel := 0x1161 + index % 588 / 28
    let tail := index % 28
    some (if tail = 0 then [lead, vowel] else [lead, vowel, 0x11A7 + tail])
  else
    match find splittings fun entry => compare code entry.1 with
    | some (_, first, second) => some [first, second]
    | none => (find renamings fun entry => compare code entry.1).map fun entry => [entry.2]

/-- The full decomposition.  No decomposition is nested deeper than four. -/
def decomposeWithin : Nat → Nat → List Nat
  | 0, code => [code]
  | depth + 1, code =>
    if code < 0xC0 then [code]
    else
      match decomposeOnce code with
      | none => [code]
      | some parts => parts.flatMap (decomposeWithin depth)

def decompose (code : Nat) : List Nat := decomposeWithin 4 code

def compose (first second : Nat) : Option Nat :=
  if 0x1100 ≤ first && first ≤ 0x1112 && 0x1161 ≤ second && second ≤ 0x1175 then
    some (0xAC00 + ((first - 0x1100) * 21 + (second - 0x1161)) * 28)
  else if 0xAC00 ≤ first && first ≤ 0xD7A3 && (first - 0xAC00) % 28 = 0 &&
      0x11A8 ≤ second && second ≤ 0x11C2 then
    some (first + (second - 0x11A7))
  else
    let place := fun ((left, right, _) : Nat × Nat × Nat) =>
      (compare first left).then (compare second right)
    (find composites place).map fun entry => entry.2.2

/-- A unit of a text in the course of normalization: a code point with its
combining class, or bytes that are kept. -/
structure Piece where
  code : Nat
  rank : Nat
  kept : Option Text

def Piece.ofCode (code : Nat) : Piece := ⟨code, combiningClass code, none⟩

def Piece.bytes (piece : Piece) : Text := piece.kept.getD (Utf8.encode piece.code)

def longestRun : Nat := 30

def leadingMarks (parts : List Piece) : Nat := (parts.takeWhile (·.rank != 0)).length

/-- Decomposes in order, putting a joiner where a run of marks grows too long.
`marks` counts the marks of the run so far. -/
def spread (marks : Nat) : List Rune → List Piece
  | [] => []
  | rune :: rest =>
    if rune.isIllFormed then ⟨0, 0, some rune.bytes⟩ :: spread 0 rest
    else
      let parts := (decompose rune.code).map Piece.ofCode
      let leading := leadingMarks parts
      let trailing := leadingMarks parts.reverse
      if marks + leading > longestRun then
        Piece.ofCode 0x34F :: (parts ++ spread trailing rest)
      else if leading = 0 then parts ++ spread trailing rest
      else parts ++ spread (marks + leading) rest

/-- Inserts a mark into a run sorted by combining class, after its equals. -/
def insertMark (mark : Piece) : List Piece → List Piece
  | [] => [mark]
  | first :: rest =>
    if mark.rank < first.rank then mark :: first :: rest
    else first :: insertMark mark rest

/-- Sorts every run of marks; `run` holds the sorted marks read so far. -/
def reorder (run : List Piece) : List Piece → List Piece
  | [] => run
  | piece :: rest =>
    if piece.rank = 0 then run ++ piece :: reorder [] rest
    else reorder (insertMark piece run) rest

/-- Composes onto the starter.  `skipped` holds, newest first, what stands between
the starter and the next piece. -/
def recompose (starter : Option Piece) (skipped : List Piece) : List Piece → List Piece
  | [] => starter.toList ++ skipped.reverse
  | piece :: rest =>
    let emit := starter.toList ++ skipped.reverse
    match starter with
    | none =>
      if piece.rank = 0 then emit ++ recompose (some piece) [] rest
      else recompose none (piece :: skipped) rest
    | some base =>
      let blocked := match skipped with
        | [] => false
        | last :: _ => last.rank = 0 || piece.rank ≤ last.rank
      let composite :=
        if blocked || base.kept.isSome || piece.kept.isSome then none
        else compose base.code piece.code
      match composite with
      | some code => recompose (some (Piece.ofCode code)) skipped rest
      | none =>
        if piece.rank = 0 then emit ++ recompose (some piece) [] rest
        else recompose starter (piece :: skipped) rest

def normalize (value : Text) : Text :=
  if value.all (· < 0x80) then value
  else (recompose none [] (reorder [] (spread 0 (Utf8.runes value)))).flatMap Piece.bytes

end FragmentCompiler.NormalForm
