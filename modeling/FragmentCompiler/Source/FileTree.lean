import FragmentCompiler.Source.Path

/-!
# Files and directories

The files a session can reach are a value: a table from absolute paths to files
and directories, with a working directory.  Every operation answers like the
operating system would, with the operation, the path and the fault in its error.
-/

namespace FragmentCompiler

inductive FileNode where
  | file (content : Text)
  | directory
  deriving DecidableEq, Repr, Inhabited

inductive FileFault where
  | notFound
  | notDirectory
  | isDirectory
  | exists
  | notEmpty
  | nameTooLong
  | separatorInPattern
  deriving DecidableEq, Repr, Inhabited

def FileFault.message : FileFault → Text
  | .notFound => "no such file or directory"
  | .notDirectory => "not a directory"
  | .isDirectory => "is a directory"
  | .exists => "file exists"
  | .notEmpty => "directory not empty"
  | .nameTooLong => "file name too long"
  | .separatorInPattern => "pattern contains path separator"

structure FileError where
  operation : Text
  path : Text
  fault : FileFault
  deriving DecidableEq, Repr, Inhabited

def FileError.message (error : FileError) : Text :=
  error.operation ++ " " ++ error.path ++ ": " ++ error.fault.message

structure FileTree where
  workingDirectory : Text
  nodes : List (Text × FileNode)
  deriving Repr, Inhabited

namespace FileTree

def longestPath : Nat := 4095

def longestName : Nat := 255

/-- What stands at an absolute clean path; the root is always a directory. -/
def node? (tree : FileTree) (place : Text) : Option FileNode :=
  if place = "/" then some .directory
  else (tree.nodes.find? fun entry => entry.1 == place).map (·.2)

def put (tree : FileTree) (place : Text) (node : FileNode) : FileTree :=
  { tree with nodes := (tree.nodes.filter fun entry => entry.1 != place) ++ [(place, node)] }

/-- Follows components from a place.  Only a directory can be left. -/
def follow (tree : FileTree) (place : Text) : List Text → Except FileFault Text
  | [] => .ok place
  | part :: rest =>
    match tree.node? place with
    | none => .error .notFound
    | some (.file _) => .error .notDirectory
    | some .directory =>
      if part.isEmpty || part = "." then follow tree place rest
      else if part = ".." then follow tree (Path.directory place) rest
      else if longestName < part.length then .error .nameTooLong
      else
        let next := Path.joinAll [place, part]
        match tree.node? next with
        | none => .error .notFound
        | some _ => follow tree next rest

def locate (tree : FileTree) (path : Text) : Except FileFault Text :=
  if path.isEmpty then .error .notFound
  else if longestPath < path.length then .error .nameTooLong
  else if Path.isAbsolute path then tree.follow "/" (path.split 47)
  else tree.follow tree.workingDirectory (path.split 47)

def status (tree : FileTree) (path : Text) : Except FileFault FileNode :=
  match tree.locate path with
  | .error fault => .error fault
  | .ok place =>
    match tree.node? place with
    | some node => .ok node
    | none => .error .notFound

def isFile (tree : FileTree) (path : Text) : Bool :=
  match tree.status path with
  | .ok (.file _) => true
  | _ => false

def read (tree : FileTree) (path : Text) : Except FileError Text :=
  match tree.status path with
  | .ok (.file content) => .ok content
  | .ok .directory => .error ⟨"read", path, .isDirectory⟩
  | .error fault => .error ⟨"open", path, fault⟩

/-- The absolute place a path would have once created: its directory must exist. -/
def vacancy (tree : FileTree) (path : Text) : Except FileFault Text :=
  let parts := path.split 47
  let start : Text := if Path.isAbsolute path then "/" else tree.workingDirectory
  if longestPath < path.length then .error .nameTooLong
  else
    match tree.follow start parts.dropLast with
    | .error fault => .error fault
    | .ok parent =>
      match tree.node? parent with
      | some .directory =>
        let name := parts.getLast?.getD []
        if name.isEmpty || name = "." || name = ".." then .error .isDirectory
        else if longestName < name.length then .error .nameTooLong
        else .ok (Path.joinAll [parent, name])
      | some (.file _) => .error .notDirectory
      | none => .error .notFound

def write (tree : FileTree) (path content : Text) : Except FileError FileTree :=
  match tree.vacancy path with
  | .error fault => .error ⟨"open", path, fault⟩
  | .ok place =>
    match tree.node? place with
    | some .directory => .error ⟨"open", path, .isDirectory⟩
    | _ => .ok (tree.put place (.file content))

/-- Removes a path and everything below it; a missing path is no fault. -/
def remove (tree : FileTree) (path : Text) : FileTree :=
  match tree.locate path with
  | .error _ => tree
  | .ok place =>
    { tree with nodes := tree.nodes.filter fun entry =>
        entry.1 != place && !entry.1.startsWith (place ++ "/") }

/-- Removes a file or an empty directory; a missing one is a fault. -/
def removeFile (tree : FileTree) (path : Text) : Except FileError FileTree :=
  match tree.locate path with
  | .error fault => .error ⟨"remove", path, fault⟩
  | .ok place =>
    if tree.nodes.any fun entry => entry.1.startsWith (place ++ "/") then
      .error ⟨"remove", path, .notEmpty⟩
    else .ok (tree.remove path)

/-- The path up to its last component, the slash before it kept; nothing is left of a
single component. -/
def parentOf (path : Text) : Text :=
  ((path.reverse.dropWhile (· == 47)).dropWhile (· != 47)).reverse

/-- Creates a directory; the one above it must exist. -/
def makeDirectory (tree : FileTree) (path : Text) : Except FileError FileTree :=
  match tree.vacancy (path.reverse.dropWhile (· == 47)).reverse with
  | .error fault => .error ⟨"mkdir", path, fault⟩
  | .ok place =>
    if (tree.node? place).isSome then .error ⟨"mkdir", path, .exists⟩
    else .ok (tree.put place .directory)

/-- Creates a directory and the missing ones above it.  A path has at most as many
components above it as it has bytes. -/
def makeDirectoriesWithin : Nat → FileTree → Text → Except FileError FileTree
  | 0, tree, _ => .ok tree
  | fuel + 1, tree, path =>
    match tree.status path with
    | .ok .directory => .ok tree
    | .ok (.file _) => .error ⟨"mkdir", path, .notDirectory⟩
    | .error _ =>
      let parent := parentOf path
      let prepared :=
        if parent.isEmpty then .ok tree else makeDirectoriesWithin fuel tree parent
      match prepared with
      | .error error => .error error
      | .ok tree => tree.makeDirectory path

def makeDirectories (tree : FileTree) (path : Text) : Except FileError FileTree :=
  makeDirectoriesWithin (path.length + 1) tree path

/-- Creates an empty file in a directory under a fresh name that begins with
`stem`; gives the path of the file. -/
def createTemporary (tree : FileTree) (directory stem : Text) :
    Except FileError (Text × FileTree) :=
  if stem.contains 47 then .error ⟨"createtemp", stem ++ "*", .separatorInPattern⟩
  else
    let path := if directory.endsWith "/" then directory ++ stem ++ "*"
      else directory ++ "/" ++ stem ++ "*"
    match tree.write path [] with
    | .error error => .error error
    | .ok tree => .ok (path, tree)

def rename (tree : FileTree) (source target : Text) : Except FileError FileTree :=
  let refuse (fault : FileFault) : FileError := ⟨"rename", source ++ " " ++ target, fault⟩
  match tree.read source with
  | .error error => .error (refuse error.fault)
  | .ok content =>
    match tree.status target with
    | .ok .directory => .error (refuse .exists)
    | _ =>
      match (tree.remove source).write target content with
      | .error error => .error (refuse error.fault)
      | .ok moved => .ok moved

def listing (tree : FileTree) : List Text :=
  let lead := tree.workingDirectory ++ "/"
  Text.sort (tree.nodes.filterMap fun entry =>
    match entry.2 with
    | .file _ => if entry.1.startsWith lead then some (entry.1.withoutLead lead) else none
    | .directory => none)

def chain (place : Text) : List Text :=
  let parts := Path.components place
  (List.range parts.length).map fun count => "/" ++ Text.join "/" (parts.take (count + 1))

def empty (workingDirectory : Text) : FileTree :=
  { workingDirectory
    nodes := (chain workingDirectory).map fun place => (place, .directory) }

/-- Puts a file, or a directory when the path ends in a slash, together with the
directories above it. -/
def populate (tree : FileTree) (path content : Text) : FileTree :=
  let place := Path.absolute tree.workingDirectory path
  let isFolder := path.endsWith "/"
  let above := (chain place).filter fun folder => isFolder || folder != place
  let prepared := above.foldl (fun current folder =>
    if (current.node? folder).isSome then current else current.put folder .directory) tree
  if isFolder then prepared else prepared.put place (.file content)

end FileTree

end FragmentCompiler
