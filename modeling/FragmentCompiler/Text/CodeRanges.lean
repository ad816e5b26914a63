import FragmentCompiler.Text.Utf8

/-!
# Sets of code points

A set of code points is a sorted array of disjoint inclusive ranges, searched by
halving.  It is written down as the distances between the ends of its ranges.
-/

namespace FragmentCompiler.CodeRanges

/-- Numbers one after another, each a count of 36s in small letters, to base 26, and then
what is left as a digit or a capital letter. -/
def numbers (text : String) : List Nat :=
  let digit (char : Char) : Nat := if char.isDigit then char.toNat - 48 else char.toNat - 55
  let read := text.toList.foldl
    (fun (count, earlier) char =>
      if char.isLower then (26 * count + (char.toNat - 97), earlier)
      else (0, (36 * count + digit char) :: earlier))
    (0, [])
  read.2.reverse

/-- Ranges after a code point: for each its distance from what is before it, and the
distance from its first to its last code point. -/
def rangesAfter (before : Nat) : List Nat → List (Nat × Nat)
  | distance :: width :: rest =>
    let first := before + distance
    (first, first + width) :: rangesAfter (first + width) rest
  | _ => []

def ofSteps (lines : List String) : Array (Nat × Nat) :=
  (rangesAfter 0 (lines.flatMap numbers)).toArray

/-- Searches the ranges with indices from `low` up to and excluding `high`.  The
interval at least halves in every step, so `steps` above its binary length is
enough. -/
def search (table : Array (Nat × Nat)) (code : Nat) : Nat → Nat → Nat → Bool
  | 0, _, _ => false
  | steps + 1, low, high =>
    if low < high then
      let middle := (low + high) / 2
      match table[middle]? with
      | none => false
      | some (first, last) =>
        if code < first then search table code steps low middle
        else if last < code then search table code steps (middle + 1) high
        else true
    else false

def contains (table : Array (Nat × Nat)) (code : Nat) : Bool :=
  search table code (table.size.log2 + 2) 0 table.size

end FragmentCompiler.CodeRanges
