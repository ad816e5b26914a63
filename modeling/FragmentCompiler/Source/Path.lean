import FragmentCompiler.Text.Basic

/-!
# File paths

Paths are texts with components between slashes.  All operations here are
lexical: they look at no file.
-/

namespace FragmentCompiler.Path

def isAbsolute : Text → Bool
  | 47 :: _ => true
  | _ => false

def components (path : Text) : List Text :=
  (path.split 47).filter fun part => !part.isEmpty && part != "."

/-- Adds a component to a reversed list of components, resolving `..`. -/
def climb (rooted : Bool) (stack : List Text) (part : Text) : List Text :=
  if part = ".." then
    match stack with
    | [] => if rooted then [] else [part]
    | top :: below => if top = ".." then part :: stack else below
  else part :: stack

def resolved (rooted : Bool) (parts : List Text) : List Text :=
  (parts.foldl (climb rooted) []).reverse

def clean (path : Text) : Text :=
  let rooted := isAbsolute path
  let body := Text.join "/" (resolved rooted (components path))
  if rooted then "/" ++ body else if body.isEmpty then "." else body

/-- The elements joined by slashes and cleaned; empty elements are left out. -/
def joinAll (parts : List Text) : Text :=
  match parts.filter (!·.isEmpty) with
  | [] => []
  | present => clean (Text.join "/" present)

def absolute (directory path : Text) : Text :=
  if isAbsolute path then clean path else joinAll [directory, path]

/-- The last component; `.` for the empty path and `/` for the root. -/
def base (path : Text) : Text :=
  if path.isEmpty then "."
  else
    let trimmed := (path.reverse.dropWhile (· == 47)).reverse
    if trimmed.isEmpty then "/" else (trimmed.reverse.takeWhile (· != 47)).reverse

def directory (path : Text) : Text :=
  clean ((path.reverse.dropWhile (· != 47)).reverse)

def withoutCommon : List Text → List Text → List Text × List Text
  | left :: leftRest, right :: rightRest =>
    if left = right then withoutCommon leftRest rightRest
    else (left :: leftRest, right :: rightRest)
  | left, right => (left, right)

def relative (start target : Text) : Text :=
  let (up, down) := withoutCommon (resolved true (components start))
    (resolved true (components target))
  match up.map (fun _ => Text.ofString "..") ++ down with
  | [] => "."
  | parts => Text.join "/" parts

def leaves (path : Text) : Bool := path = ".." || path.startsWith "../"

/-- A path seen from a directory; one outside of it stays absolute. -/
def seenFrom (workingDirectory directory path : Text) : Text :=
  let target := absolute workingDirectory path
  let shown := relative (absolute workingDirectory directory) target
  if leaves shown then clean target else clean shown

end FragmentCompiler.Path
