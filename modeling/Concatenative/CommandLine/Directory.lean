/-
A directory with files in it, as a value.

File names are paths that are followed from the directory, component by
component, so that the same file has many names and a name can fail in several
ways. Writing a file makes the directories that its path goes through, also those
that it leaves again. What lies outside the directory is unknown: it can be passed
through on the way and is otherwise empty.
-/
import Concatenative.CommandLine.Source

set_option autoImplicit false

namespace Concatenative.CommandLine

/-! ## Places -/

/-- The bytes that a component of a path may have at most. -/
def longestComponent : Nat :=
  255

/-- The bytes that a path may have at most. -/
def longestPath : Nat :=
  4095

/-- Somewhere a path can lead. -/
inductive Place where
  /-- A place in or below the directory, by the names that lead to it. -/
  | inside (names : List String)
  /-- Above the directory, or beside it. -/
  | outside

/-- What lies in a directory, by the names that lead there from it. -/
structure Directory where
  folders : List (List String)
  /-- The files with their contents, the one written last first. -/
  files : List (List String × ByteArray)

/-- The components of a path. -/
def pathComponents (path : String) : List String :=
  (path.toList.splitOn '/').map String.ofList

namespace Directory

/-! ## Reading -/

/-- The file at a place below the directory. -/
def file? (d : Directory) (names : List String) : Option ByteArray :=
  d.files.lookup names

/-- Whether there is a directory at a place. -/
def hasFolder (d : Directory) (names : List String) : Bool :=
  names = [] || d.folders.contains names

/-- Follows one component of a path. It takes a directory to go on from. -/
def enter (d : Directory) (place : Place) (component : String) : Except ReadError Place :=
  match place with
  | .outside =>
    if component = "" ∨ component = "." ∨ component = ".." then .ok .outside
    else if longestComponent < component.utf8ByteSize then .error .nameTooLong
    else .error .notFound
  | .inside names =>
    if d.hasFolder names then
      if component = "" ∨ component = "." then .ok place
      else if component = ".." then
        .ok (if names = [] then .outside else .inside names.dropLast)
      else if longestComponent < component.utf8ByteSize then .error .nameTooLong
      else .ok (.inside (names ++ [component]))
    else if (d.file? names).isSome then .error .notDirectory
    else .error .notFound

/-- Where a path leads. An empty first component means that the path starts at the
root of all directories. -/
def follow (d : Directory) (path : String) : Except ReadError Place :=
  if longestPath < path.utf8ByteSize then .error .nameTooLong
  else
    let origin : Place := if path.startsWith "/" then .outside else .inside []
    (pathComponents path).foldlM d.enter origin

/-- The contents of the file that a path leads to. -/
def read (d : Directory) (path : String) : Except ReadError ByteArray := do
  match ← d.follow path with
  | .outside => .error .isDirectory
  | .inside names =>
    match d.file? names with
    | some contents => .ok contents
    | none => .error (if d.hasFolder names then .isDirectory else .notFound)

/-! ## Writing -/

/-- A directory with nothing in it. -/
def empty : Directory :=
  ⟨[], []⟩

/-- Follows one component of a path, and makes the directory it names. -/
def makeFolder (d : Directory) (place : Place) (component : String) : Directory × Place :=
  match place with
  | .outside => (d, .outside)
  | .inside names =>
    if component = "" ∨ component = "." then (d, place)
    else if component = ".." then (d, if names = [] then .outside else .inside names.dropLast)
    else ({ d with folders := (names ++ [component]) :: d.folders }, .inside (names ++ [component]))

/-- The directory after a file has been written under a path. A file that was
there before is replaced, and one that would lie outside is not kept. -/
def write (d : Directory) (path : String) (contents : ByteArray) : Directory :=
  let components := pathComponents path
  let (d, place) := components.dropLast.foldl (fun (d, place) => d.makeFolder place) (d, .inside [])
  match place, components.getLast? with
  | .inside names, some name => { d with files := (names ++ [name], contents) :: d.files }
  | _, _ => d

/-- The directory in which files have been written, in order. -/
def ofFiles (files : List (String × ByteArray)) : Directory :=
  files.foldl (fun d file => d.write file.1 file.2) empty

end Directory

end Concatenative.CommandLine
