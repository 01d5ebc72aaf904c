/-
The program under its two names: its arguments, its files and its streams.

Called `repl` it holds a dialogue and looks at no arguments. Called anything else
it answers its arguments. Nothing is decided here: files and standard input are
read, the answer is asked for, and the two streams and the exit code are handed to
the system.
-/
import Concatenative.CommandLine.Report
import Concatenative.Interactive

set_option autoImplicit false

namespace Concatenative.CommandLine

/-- What the system said, as an obstacle to reading. Of a file and a directory in
each other's place, the latter has a code of its own. The code of a name that is
too long is negative if opening the file failed. -/
def ReadError.ofSystem : IO.Error → ReadError
  | .noFileOrDirectory .. => .notFound
  | .inappropriateType _ 21 _ => .isDirectory
  | .inappropriateType .. => .notDirectory
  | .invalidArgument name code details =>
    if code = 36 ∨ code = -36 then .nameTooLong
    else .other (toString (IO.Error.invalidArgument name code details))
  | obstacle => .other (toString obstacle)

/-- The contents of a file, or why there are none. -/
def readFile (name : String) : IO (Except ReadError ByteArray) := do
  try
    return .ok (← IO.FS.readBinFile name)
  catch obstacle =>
    return .error (.ofSystem obstacle)

/-- All bytes of a stream. -/
partial def readAll (stream : IO.FS.Stream) (sofar : ByteArray) : IO ByteArray := do
  let chunk ← stream.read 65536
  if chunk.isEmpty then return sofar else readAll stream (sofar ++ chunk)

/-- Reads what an invocation needs read and answers it. -/
def report (arguments : List String) : IO (Option Report) := do
  match Invocation.ofArguments arguments with
  | .ok (.evaluation request) =>
    let files ← request.files.mapM fun name => return (name, ← readFile name)
    let stdin ← if request.files.isEmpty then readAll (← IO.getStdin) .empty else pure .empty
    let read := fun name => (files.lookup name).getD (.error .notFound)
    return Report.ofRequest endless request read stdin
  | _ => return respond endless arguments (fun _ => .error .notFound) .empty

/-- Answers the arguments and ends with the exit code of the answer. -/
def answer (arguments : List String) : IO Nat := do
  match ← report arguments with
  | some answer =>
    IO.eprint answer.stderr
    IO.print answer.stdout
    return answer.code
  | none => return 1

end Concatenative.CommandLine

/-- Does what the program is called for. -/
def main (arguments : List String) : IO UInt32 := do
  let code ← if (← IO.appPath).fileName = some "repl" then Concatenative.Dialogue.interact
    else Concatenative.CommandLine.answer arguments
  return code.toUInt32
