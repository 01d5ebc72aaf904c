/-
What the program answers: an exit code and the text on its two output streams.

A source that evaluates leaves its values on the output stream. Everything else
is told on the error stream: first the log, then what went wrong. The exit code
tells a source that is wrong from arguments that are. The error stream is complete
but for arguments that are wrong, and the times of the records are not part of it.
-/
import Concatenative.CommandLine.Arguments
import Concatenative.CommandLine.Source
import Concatenative.Evaluation

set_option autoImplicit false

namespace Concatenative.CommandLine

/-- The answer to an invocation. -/
structure Report where
  code : Nat
  stdout : String
  stderr : String

/-- A record as a line of the log. The name of the level is filled up to the
width of the longest one. -/
def logLine (record : Record Cell) : String :=
  let level := record.level.name
  "[" ++ level.pushn ' ' (5 - level.length) ++ " stackword] " ++ record.text ++ "\n"

/-- How the program is used. -/
def helpText : String :=
  "Evaluate stackword source and print the final stack\n" ++
  "\n" ++
  "Usage: stackword [OPTIONS] [FILES]...\n" ++
  "\n" ++
  "Arguments:\n" ++
  "  [FILES]...  Source files, evaluated in order as one session; stdin if none\n" ++
  "\n" ++
  "Options:\n" ++
  "      --max-expansions <MAX_EXPANSIONS>  Give up after this many word expansions per token\n" ++
  "      --log-level <LOG_LEVEL>            Log level [default: warn]\n" ++
  "  -h, --help                             Print help\n"

namespace Report

/-- The answer to arguments that make no sense. Of the message it has the first line
only, which says what is wrong, and where this quotes an argument of several lines it
stops with the first of them. The lines behind it are left out: a tip, how the program
is used and where to find help. -/
def ofUsageError (e : UsageError) : Report :=
  ⟨2, "", (Text.textLines ("error: " ++ e.message)).headD "" ++ "\n"⟩

/-- The answer to a source that cannot be read. -/
def ofUnreadable (u : UnreadableSource) : Report :=
  ⟨1, "", u.message⟩

/-- The answer to a source that was evaluated. -/
def ofOutcome (o : Outcome Cell) : Report :=
  let log := String.join (o.records.map logLine)
  -- The log tells what was done before the verdict, so it comes first.
  match o.verdict with
  | .ok values => ⟨0, values ++ "\n", log⟩
  | .error cause => ⟨1, "", log ++ "error: " ++ cause.message ++ "\n"⟩

/-- The answer to a request, given a way to read files and the bytes of standard
input. -/
def ofRequest (patience : Nat) (request : Request) (read : String → Except ReadError ByteArray)
    (stdin : ByteArray) : Option Report :=
  match linesOf request.files read stdin with
  | .error unreadable => some (ofUnreadable unreadable)
  | .ok lines =>
    ((Session.new request.settings).evalLines patience lines).map ofOutcome

end Report

/-- The answer of the program to its arguments. -/
def respond (patience : Nat) (arguments : List String)
    (read : String → Except ReadError ByteArray) (stdin : ByteArray) : Option Report :=
  match Invocation.ofArguments arguments with
  | .error e => some (.ofUsageError e)
  | .ok .help => some ⟨0, helpText, ""⟩
  | .ok (.evaluation request) => Report.ofRequest patience request read stdin

end Concatenative.CommandLine
