import FragmentCompiler.Snapshot.Wire
import FragmentCompiler.Version

/-!
# Snapshots

The declarations of a session, stored so that a later session can use them
without compiling them.  A digest over all entries guards against damage.
-/

namespace FragmentCompiler

inductive SnapshotDamage where
  | unreadable
  | digestMismatch
  | namelessEntry
  | duplicateEntry (name : Text)
  deriving DecidableEq, Repr, Inhabited

def SnapshotDamage.message : SnapshotDamage → Text
  | .unreadable => "unreadable payload"
  | .digestMismatch => "digest mismatch"
  | .namelessEntry => "entry without a name"
  | .duplicateEntry name => "duplicate entry " ++ name.quote

inductive SnapshotError where
  | schema (path : Text) (found : Nat)
  | damaged (path : Text) (damage : SnapshotDamage)
  | alreadyWritten
  | file (error : FileError)
  | sink (error : FileError)
  | write (path : Text) (error : FileError)
  deriving DecidableEq, Repr, Inhabited

namespace Snapshot

def schemaVersion : Nat := 1

def framed (value : Text) : Text := Text.decimal value.length ++ ":" ++ value

def framedEntry (entry : ArchivedDecl) : Text :=
  framed entry.kind ++ framed entry.name ++ framed entry.source

def digest (entries : List ArchivedDecl) : Text := Sha256.hash (entries.flatMap framedEntry)

end Snapshot

def SnapshotError.message : SnapshotError → Text
  | .schema path found =>
    "snapshot: unsupported schema: " ++ path ++ " has schema " ++ Text.decimal found ++
      ", want " ++ Text.decimal Snapshot.schemaVersion
  | .damaged path damage => "snapshot: corrupt payload: " ++ path ++ ": " ++ damage.message
  | .alreadyWritten => "snapshot: already written"
  | .file error => error.message
  | .sink error => "snapshot: open sink: " ++ error.message
  | .write path error => "snapshot: write " ++ path ++ ": " ++ error.message

structure Snapshot where
  path : Text
  tool : Text
  entries : List ArchivedDecl
  deriving DecidableEq, Repr, Inhabited

namespace Snapshot

def nameProblem (seen : List Text) : List ArchivedDecl → Option SnapshotDamage
  | [] => none
  | entry :: rest =>
    if entry.name.isEmpty then some .namelessEntry
    else if seen.contains entry.name then some (.duplicateEntry entry.name)
    else nameProblem (entry.name :: seen) rest

/-- Reads a snapshot from bytes; the path is only remembered. -/
def decode (path content : Text) : Except SnapshotError Snapshot :=
  match Wire.decode content with
  | none => .error (.damaged path .unreadable)
  | some payload =>
    if payload.schema ≠ schemaVersion then .error (.schema path payload.schema)
    else if digest payload.decls ≠ payload.digest then .error (.damaged path .digestMismatch)
    else
      match nameProblem [] payload.decls with
      | some damage => .error (.damaged path damage)
      | none => .ok { path, tool := payload.tool, entries := payload.decls }

def load (tree : FileTree) (path : Text) : Except SnapshotError Snapshot :=
  match tree.read path with
  | .ok content => decode path content
  | .error error =>
    if error.fault = .isDirectory then .error (.damaged path .unreadable)
    else .error (.file error)

def encode (version : Version) (entries : List ArchivedDecl) : Text :=
  Wire.encode
    { schema := schemaVersion, tool := version.tool, decls := entries, digest := digest entries }

def archive (snapshot : Snapshot) : Archive :=
  ⟨snapshot.entries.map fun entry => (entry.name, entry)⟩

def names (snapshot : Snapshot) : List Text := Text.sort (snapshot.entries.map (·.name))

end Snapshot

/-- A snapshot being built.  It is written beside its place and then moved there, so
nobody sees half of it. -/
structure SnapshotWriter where
  path : Text
  temporary : Text
  written : Bool := false
  closed : Bool := false
  deriving DecidableEq, Repr, Inhabited

namespace SnapshotWriter

def create (tree : FileTree) (path : Text) : Except SnapshotError (SnapshotWriter × FileTree) :=
  let directory := Path.directory path
  match tree.makeDirectories directory with
  | .error error => .error (.file error)
  | .ok tree =>
    match tree.createTemporary directory (Path.base path ++ ".tmp-") with
    | .error error => .error (.sink error)
    | .ok (temporary, tree) => .ok ({ path, temporary }, tree)

/-- Writes the snapshot; that is possible once. -/
def write (writer : SnapshotWriter) (tree : FileTree) (version : Version)
    (entries : List ArchivedDecl) : Option SnapshotError × SnapshotWriter × FileTree :=
  if writer.written || writer.closed then (some .alreadyWritten, writer, tree)
  else
    let done := { writer with written := true, closed := true }
    let moved := do
      let filled ←
        if tree.isFile writer.temporary then
          tree.write writer.temporary (Snapshot.encode version entries)
        else .ok tree
      filled.rename writer.temporary writer.path
    match moved with
    | .ok tree => (none, done, tree)
    | .error error => (some (.write writer.path error), done, tree.remove writer.temporary)

def close (writer : SnapshotWriter) (tree : FileTree) :
    Option SnapshotError × SnapshotWriter × FileTree :=
  if writer.closed then (none, writer, tree)
  else
    match tree.removeFile writer.temporary with
    | .ok tree => (none, { writer with closed := true }, tree)
    | .error error => (some (.file error), { writer with closed := true }, tree)

end SnapshotWriter

end FragmentCompiler
