import FragmentCompiler.Text.WidthData

/-!
# Display width

The number of terminal columns a text takes.  A text is cut into grapheme
clusters; the width of a cluster is that of its first code point that takes any
column.
-/

namespace FragmentCompiler.Width

open FragmentCompiler

def ofCode (code : Nat) : Nat :=
  if code < 0x20 then 0
  else if (0x7F ≤ code && code ≤ 0x9F) || code = 0xAD then 0
  else if code < 0x300 then 1
  else if CodeRanges.contains CodeRanges.invisible code then 0
  else if CodeRanges.contains CodeRanges.combining code then 0
  else if CodeRanges.contains CodeRanges.wide code then 2
  else 1

inductive Role where
  | carriageReturn | lineFeed | control | extend | joiner | regional | prepend | spacing
  | hangulLead | hangulVowel | hangulTail | hangulOpen | hangulClosed | pictograph | other
  deriving DecidableEq, Repr, Inhabited

def role (code : Nat) : Role :=
  if code = 13 then .carriageReturn
  else if code = 10 then .lineFeed
  else if code < 0x20 then .control
  else if code < 0x7F then .other
  else if code = 0x200D then .joiner
  else if CodeRanges.contains CodeRanges.clusterControl code then .control
  else if CodeRanges.contains CodeRanges.clusterExtend code then .extend
  else if 0x1F1E6 ≤ code && code ≤ 0x1F1FF then .regional
  else if CodeRanges.contains CodeRanges.clusterPrepend code then .prepend
  else if CodeRanges.contains CodeRanges.clusterSpacing code then .spacing
  else if (0x1100 ≤ code && code ≤ 0x115F) || (0xA960 ≤ code && code ≤ 0xA97C) then .hangulLead
  else if (0x1160 ≤ code && code ≤ 0x11A7) || (0xD7B0 ≤ code && code ≤ 0xD7C6) then .hangulVowel
  else if (0x11A8 ≤ code && code ≤ 0x11FF) || (0xD7CB ≤ code && code ≤ 0xD7FB) then .hangulTail
  else if 0xAC00 ≤ code && code ≤ 0xD7A3 then
    if (code - 0xAC00) % 28 = 0 then .hangulOpen else .hangulClosed
  else if CodeRanges.contains CodeRanges.pictographic code then .pictograph
  else .other

/-- What the rules need to know about the cluster read so far. -/
structure Before where
  last : Role
  pictograph : Bool
  joined : Bool
  /-- The cluster ends in an unpaired regional indicator. -/
  regional : Bool

def Before.first (next : Role) : Before :=
  ⟨next, next = .pictograph, false, next = .regional⟩

def Before.after (before : Before) (next : Role) : Before :=
  { last := next
    pictograph := next = .pictograph || (next = .extend && before.pictograph)
    joined := next = .joiner && before.pictograph
    regional := next = .regional && !before.regional }

def Before.joins (before : Before) (next : Role) : Bool :=
  match before.last, next with
  | .carriageReturn, .lineFeed => true
  | .carriageReturn, _ | .lineFeed, _ | .control, _ => false
  | _, .carriageReturn | _, .lineFeed | _, .control => false
  | .hangulLead, .hangulLead | .hangulLead, .hangulVowel
  | .hangulLead, .hangulOpen | .hangulLead, .hangulClosed => true
  | .hangulOpen, .hangulVowel | .hangulOpen, .hangulTail
  | .hangulVowel, .hangulVowel | .hangulVowel, .hangulTail => true
  | .hangulClosed, .hangulTail | .hangulTail, .hangulTail => true
  | _, .extend | _, .joiner | _, .spacing => true
  | .prepend, _ => true
  | .joiner, .pictograph => before.joined
  | .regional, .regional => before.regional
  | _, _ => false

def clustersFrom (before : Before) (cluster : List Rune) : List Rune → List (List Rune)
  | [] => [cluster.reverse]
  | rune :: rest =>
    let next := role rune.code
    if before.joins next then clustersFrom (before.after next) (rune :: cluster) rest
    else cluster.reverse :: clustersFrom (Before.first next) [rune] rest

def clusters (value : Text) : List (List Rune) :=
  match Utf8.runes value with
  | [] => []
  | rune :: rest => clustersFrom (Before.first (role rune.code)) [rune] rest

/-- The columns a cluster takes: those of its first visible code point. -/
def ofCluster (cluster : List Rune) : Nat :=
  ((cluster.map fun rune => ofCode rune.code).find? (· != 0)).getD 0

def ofText (value : Text) : Nat :=
  (clusters value).foldl (fun total cluster => total + ofCluster cluster) 0

def fitting (columns : Int) : List (List Rune) → Text
  | [] => []
  | cluster :: rest =>
    let width := ofCluster cluster
    if (width : Int) > columns then []
    else Utf8.flatten cluster ++ fitting (columns - width) rest

/-- The text cut to the given columns; a cut text ends in `tail`. -/
def truncate (value : Text) (columns : Nat) (tail : Text) : Text :=
  if ofText value ≤ columns then value
  else fitting ((columns : Int) - ofText tail) (clusters value) ++ tail

end FragmentCompiler.Width
