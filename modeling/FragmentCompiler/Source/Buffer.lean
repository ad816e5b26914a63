import FragmentCompiler.Source.Path
import FragmentCompiler.Source.Span
import FragmentCompiler.Text.NormalForm

/-!
# Buffers

A buffer is a named text that fragments are read from, together with the offsets
of its line ends.  Positions count lines and byte columns from one.
-/

namespace FragmentCompiler

structure BufferFlags where
  virtual : Bool := false
  hadMark : Bool := false
  hadLongLineEnds : Bool := false
  fragment : Bool := false
  deriving DecidableEq, Repr, Inhabited

def BufferFlags.bits (flags : BufferFlags) : Nat :=
  flags.virtual.toNat + 2 * flags.hadMark.toNat + 4 * flags.hadLongLineEnds.toNat +
    8 * flags.fragment.toNat

structure Position where
  line : Nat
  column : Nat
  deriving DecidableEq, Repr, Inhabited

def Position.render (position : Position) : Text :=
  Text.decimal position.line ++ ":" ++ Text.decimal position.column

/-- The offsets of line ends; `offset` is that of the first byte. -/
def lineEndsFrom (offset : Nat) : Text → List Nat
  | [] => []
  | byte :: rest =>
    if byte = 10 then offset :: lineEndsFrom (offset + 1) rest
    else lineEndsFrom (offset + 1) rest

def lineEnds (content : Text) : List Nat := lineEndsFrom 0 content

/-- The line ends of a text, as the words that a buffer keeps. -/
def lineIndex (content : Text) : Array UInt32 :=
  ((lineEnds content).map UInt32.ofNat).toArray

/-- The number of line ends before an offset, by halving: the ends below `low` stand before
the offset, those from `high` on do not. -/
def endsBefore (ends : Array UInt32) (offset : UInt32) (low high : Nat)
    (within : high ≤ ends.size) : Nat :=
  if unsettled : low < high then
    let middle := (low + high) / 2
    if ends[middle] < offset then endsBefore ends offset (middle + 1) high within
    else endsBefore ends offset low middle (by omega)
  else low
  termination_by high - low

/-- The position of an offset: one line more than there are line ends before it. -/
def positionIn (ends : Array UInt32) (offset : UInt32) : Position :=
  if ends.isEmpty then ⟨1, (offset + 1).toNat⟩
  else
    match endsBefore ends offset 0 ends.size (Nat.le_refl _) with
    | 0 => ⟨1, (offset + 1).toNat⟩
    | last + 1 =>
      let start := ends.getD last 0 + 1
      ⟨(UInt32.ofNat (last + 2)).toNat, (offset - start + 1).toNat⟩

inductive PathStyle where
  | absolute
  | relative
  | basename
  | auto
  | plain
  deriving DecidableEq, Repr, Inhabited

/-- The style of a given name; other names mean the path as it is. -/
def PathStyle.ofName (name : Text) : PathStyle :=
  if name = "absolute" then .absolute
  else if name = "relative" then .relative
  else if name = "basename" then .basename
  else if name = "auto" then .auto
  else .plain

/-- The style of a word a user gave; an unknown word means an automatic choice. -/
def PathStyle.ofWord (word : Text) : PathStyle :=
  match ofName word with
  | .plain => .auto
  | style => style

def PathStyle.word : PathStyle → Text
  | .absolute => "absolute"
  | .relative => "relative"
  | .basename => "basename"
  | .auto | .plain => "auto"

structure Buffer where
  path : Text
  content : Text
  ends : Array UInt32
  flags : BufferFlags
  deriving Repr, Inhabited

namespace Buffer

def runtimeName : Text := "<runtime>"

def position (buffer : Buffer) (offset : Nat) : Position :=
  positionIn buffer.ends (.ofNat offset)

def slice (content : Text) (start stop : Nat) : Text := (content.drop start).take (stop - start)

/-- The text of a line without its line end; lines that do not exist are empty, and so is
one that starts where the content stops. -/
def line (buffer : Buffer) (number : UInt32) : Text :=
  let length := UInt32.ofNat buffer.content.length
  let start? : Option UInt32 :=
    if number = 0 then none
    else if number = 1 then some 0
    else buffer.ends[(number - 2).toNat]?.map (· + 1)
  match start? with
  | none => []
  | some start =>
    let stop := buffer.ends[(number - 1).toNat]?.getD length
    if length ≤ start then [] else slice buffer.content start.toNat stop.toNat

/-- The path in a style.  Virtual buffers always show their name. -/
def shownPath (buffer : Buffer) (style : PathStyle) (workingDirectory baseDirectory : Text) :
    Text :=
  if buffer.flags.virtual then buffer.path
  else
    match style with
    | .absolute => Path.absolute workingDirectory buffer.path
    | .relative =>
      let directory := if baseDirectory.isEmpty then workingDirectory else baseDirectory
      Path.seenFrom workingDirectory directory buffer.path
    | .basename => Path.base buffer.path
    | .auto =>
      if buffer.path.length < 40 || !Path.isAbsolute buffer.path then buffer.path
      else Path.base buffer.path
    | .plain => buffer.path

end Buffer

/-! ## Bringing content to one form -/

def shortLineEnds : Text → Text
  | 13 :: 10 :: rest => 10 :: shortLineEnds rest
  | byte :: rest => byte :: shortLineEnds rest
  | [] => []

def tidyContent (content : Text) : Text × BufferFlags :=
  let mark : Text := [0xEF, 0xBB, 0xBF]
  let hadMark := content.startsWith mark
  let body := content.withoutLead mark
  let short := shortLineEnds body
  (short, { hadMark, hadLongLineEnds := short.length != body.length })

end FragmentCompiler
