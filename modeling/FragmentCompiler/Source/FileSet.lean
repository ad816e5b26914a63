import FragmentCompiler.Digest.Sha256
import FragmentCompiler.Source.Buffer
import FragmentCompiler.Source.FileTree

/-!
# The set of buffers

All buffers a session has seen, numbered from zero in the order they came.  A
name may come several times; each time is a new buffer.
-/

namespace FragmentCompiler

structure FileSet where
  buffers : Array Buffer := #[]
  baseDirectory : Text := []
  workingDirectory : Text := "/"
  deriving Repr, Inhabited

namespace FileSet

def base (files : FileSet) : Text :=
  if files.baseDirectory.isEmpty then files.workingDirectory else files.baseDirectory

def add (files : FileSet) (path content : Text) (flags : BufferFlags) : FileId × FileSet :=
  let buffer : Buffer :=
    { path := Path.clean path, content, ends := lineIndex content, flags }
  (files.buffers.size, { files with buffers := files.buffers.push buffer })

def addVirtual (files : FileSet) (name content : Text) : FileId × FileSet :=
  let (body, flags) := tidyContent content
  files.add name body { flags with virtual := true }

def addFragment (files : FileSet) (name content : Text) : FileId × FileSet :=
  let (body, flags) := tidyContent (NormalForm.normalize content)
  files.add name body { flags with virtual := true, fragment := true }

def load (files : FileSet) (tree : FileTree) (path : Text) : Except FileError (FileId × FileSet) :=
  match tree.read path with
  | .error error => .error error
  | .ok content =>
    let (body, flags) := tidyContent content
    .ok (files.add path body flags)

def get? (files : FileSet) (id : FileId) : Option Buffer := files.buffers[id]?

def latest? (files : FileSet) (path : Text) : Option FileId :=
  let wanted := Path.clean path
  (List.range files.buffers.size).reverse.find? fun id =>
    match files.buffers[id]? with
    | some buffer => buffer.path == wanted
    | none => false

/-- The positions of the two ends of a span; an unknown buffer has only the first. -/
def resolve (files : FileSet) (span : Span) : Position × Position :=
  match files.get? span.file with
  | none => (⟨1, 1⟩, ⟨1, 1⟩)
  | some buffer => (buffer.position span.start, buffer.position span.stop)

def place? (files : FileSet) (span : Span) : Option Text :=
  (files.get? span.file).map fun buffer =>
    let (start, stop) := files.resolve span
    buffer.path ++ ":" ++ start.render ++ "-" ++ stop.render

/-- The text under a span; empty when the span lies outside its buffer. -/
def text (files : FileSet) (span : Span) : Text :=
  match files.get? span.file with
  | none => []
  | some buffer =>
    if span.stop > buffer.content.length || span.start > span.stop then []
    else Buffer.slice buffer.content span.start span.stop

def shownPath (files : FileSet) (buffer : Buffer) (style : PathStyle) : Text :=
  buffer.shownPath style files.workingDirectory files.base

def contentHash (buffer : Buffer) : Text := Sha256.hash buffer.content

end FileSet

end FragmentCompiler
