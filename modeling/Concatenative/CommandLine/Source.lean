/-
Where the program takes its source text from: the files it is told to read, in
order, or standard input if there are none.

All of it is read before any of it is evaluated. One source that cannot be read
is therefore enough to prevent evaluation altogether.
-/
import Concatenative.Text.Lines

set_option autoImplicit false

namespace Concatenative.CommandLine

/-! ## Faults -/

/-- Why a source cannot be read. -/
inductive ReadError where
  | notFound
  /-- A file stands where the name needs a directory. -/
  | notDirectory
  | isDirectory
  /-- The name, or a component of it, is longer than the system admits. -/
  | nameTooLong
  /-- The bytes are not UTF-8. -/
  | notText
  /-- Any other obstacle, in the words of the system. -/
  | other (description : String)
  deriving DecidableEq

/-- The wording of an obstacle. -/
def ReadError.message : ReadError → String
  | notFound => "No such file or directory (os error 2)"
  | notDirectory => "Not a directory (os error 20)"
  | isDirectory => "Is a directory (os error 21)"
  | nameTooLong => "File name too long (os error 36)"
  | notText => "stream did not contain valid UTF-8"
  | other description => description

/-- A source that cannot be read, by name, and why. -/
structure UnreadableSource where
  name : String
  cause : ReadError
  deriving DecidableEq

/-- The wording of an unreadable source: what was being done, and below it the
cause. -/
def UnreadableSource.message (u : UnreadableSource) : String :=
  "Error: reading " ++ u.name ++ "\n\nCaused by:\n    " ++ u.cause.message ++ "\n"

/-! ## Reading -/

/-- The lines of a source with the given contents. -/
def sourceLines (name : String) (contents : Except ReadError ByteArray) :
    Except UnreadableSource (List String) :=
  match contents with
  | .error cause => .error ⟨name, cause⟩
  | .ok bytes =>
    match String.fromUTF8? bytes with
    | some text => .ok (Text.textLines text)
    | none => .error ⟨name, .notText⟩

/-- The lines of all sources in order, or the first source that cannot be read. -/
def linesOf (files : List String) (read : String → Except ReadError ByteArray)
    (stdin : ByteArray) : Except UnreadableSource (List String) :=
  match files with
  | [] => sourceLines "stdin" (.ok stdin)
  | files => return (← files.mapM fun name => sourceLines name (read name)).flatten

end Concatenative.CommandLine
