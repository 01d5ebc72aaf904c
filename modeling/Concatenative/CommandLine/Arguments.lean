/-
The arguments of the program: two options that take a value, a request for help,
and the names of the files to evaluate.

The value of an option stands behind an equals sign or in the next argument.
Arguments are read from left to right, but what has been read is checked late: an
option with its value, or a run of file names, is held until the next thing of a
different kind turns up, and only then found good or bad. An argument that cannot
be read at all is reported on the spot, and so it is reported in preference to a
fault in what is being held.
-/
import Concatenative.Session
import Concatenative.Text.ControlSequence

set_option autoImplicit false

namespace Concatenative.CommandLine

/-! ## Options -/

/-- The options that take a value. -/
inductive Setting where
  | maxExpansions
  | logLevel
  deriving DecidableEq

namespace Setting

/-- The name of an option as it is typed, without the dashes. -/
def name : Setting → String
  | maxExpansions => "max-expansions"
  | logLevel => "log-level"

/-- The option and the place of its value, as messages quote them. -/
def usage : Setting → String
  | maxExpansions => "--max-expansions <MAX_EXPANSIONS>"
  | logLevel => "--log-level <LOG_LEVEL>"

/-- The option with a given name. Names are not abbreviated. -/
def ofName? (given : String) : Option Setting :=
  [maxExpansions, logLevel].find? fun s => s.name = given

end Setting

/-! ## Counts -/

/-- Why a text is no count. -/
inductive CountError where
  | empty
  | notDigit
  | tooLarge
  deriving DecidableEq

/-- The wording of a bad count. -/
def CountError.message : CountError → String
  | .empty => "cannot parse integer from empty string"
  | .notDigit => "invalid digit found in string"
  | .tooLarge => "number too large to fit in target type"

/-- Reads the digits that follow a number read so far. Of two faults the one that
comes first in the text is found. -/
def countAfter : Nat → List Char → Except CountError Nat
  | n, [] => .ok n
  | n, c :: rest =>
    if c.isDigit then
      let next := 10 * n + (c.toNat - '0'.toNat)
      if next < 2 ^ 64 then countAfter next rest else .error .tooLarge
    else .error .notDigit

/-- The number below 2⁶⁴ that a text denotes. A plus sign may stand in front. -/
def readCount : List Char → Except CountError Nat
  | [] => .error .empty
  | '+' :: c :: rest => countAfter 0 (c :: rest)
  | text => countAfter 0 text

/-! ## Requests -/

/-- What the arguments ask to be evaluated, and how. -/
structure Request where
  maxExpansions : Option Nat
  logLevel : Option String
  files : List String

/-- The request of an empty list of arguments. -/
def Request.empty : Request :=
  ⟨none, none, []⟩

/-- The records to be kept. Warnings are kept if nothing else is said.

Only a bare level is read. Left out are the longer directives: the name of a part of
the program (`stackword` alone keeps everything), a level for such a part, a list of
them and a pattern behind a slash. Here they keep nothing, like any name that is no
level. Left out as well is the variable of the environment that goes before the
option. -/
def Request.verbosity (request : Request) : Verbosity :=
  match request.logLevel with
  | none => some .warn
  | some name => (Verbosity.ofName? (String.ofList (Text.trim name.toList))).getD none

/-- The settings of the session that evaluates a request. -/
def Request.settings (request : Request) : Settings :=
  ⟨request.maxExpansions, request.verbosity⟩

/-- What the arguments ask for. -/
inductive Invocation where
  | help
  | evaluation (request : Request)

/-! ## Faults -/

/-- What is wrong with the arguments. -/
inductive UsageError where
  /-- There is no such option. -/
  | unexpectedArgument (argument : String)
  /-- The request for help was given a value. -/
  | unexpectedValue (value : String)
  | missingValue (setting : Setting)
  | emptyFileName
  | repeated (setting : Setting)
  | invalidCount (value : String) (reason : CountError)
  deriving DecidableEq

/-- An argument as messages quote it: what a terminal would show of it. -/
def quoted (argument : String) : String :=
  "'" ++ String.ofList (Text.shown argument.toList) ++ "'"

/-- The wording of a fault. -/
def UsageError.message : UsageError → String
  | unexpectedArgument argument => "unexpected argument " ++ quoted argument ++ " found"
  | unexpectedValue value =>
    "unexpected value " ++ quoted value ++ " for '--help' found; no more were expected"
  | missingValue setting =>
    "a value is required for '" ++ setting.usage ++ "' but none was supplied"
  | emptyFileName => "a value is required for '[FILES]...' but none was supplied"
  | repeated setting => "the argument '" ++ setting.usage ++ "' cannot be used multiple times"
  | invalidCount value reason =>
    "invalid value " ++ quoted value ++ " for '" ++ Setting.maxExpansions.usage ++ "': "
      ++ reason.message

/-! ## Reading -/

/-- What has been read and not been checked. -/
inductive Held where
  | nothing
  | setting (setting : Setting) (value : Option String)
  | files (names : List String)

/-- The request with an option set. An option can be set once. -/
def Request.assign (request : Request) (setting : Setting) (value : String) :
    Except UsageError Request :=
  match setting with
  | .maxExpansions =>
    match request.maxExpansions, readCount value.toList with
    | some _, _ => .error (.repeated setting)
    | none, .ok count => .ok { request with maxExpansions := some count }
    | none, .error reason => .error (.invalidCount value reason)
  | .logLevel =>
    match request.logLevel with
    | some _ => .error (.repeated setting)
    | none => .ok { request with logLevel := some value }

/-- The request with what was held, if that is good. -/
def Request.settle (request : Request) : Held → Except UsageError Request
  | .nothing => .ok request
  | .setting setting none => .error (.missingValue setting)
  | .setting setting (some value) => request.assign setting value
  | .files names =>
    if "" ∈ names then .error .emptyFileName
    else .ok { request with files := request.files ++ names }

/-- What an argument looks like. -/
inductive Shape where
  /-- Two dashes: whatever follows is a file name. -/
  | separator
  /-- Two dashes and a name, perhaps with a value behind an equals sign. -/
  | long (name : String) (value : Option String)
  /-- One dash and letters, of which the first one decides. -/
  | short (letter : Char)
  /-- Anything else. One dash alone is an ordinary name. -/
  | plain

/-- The shape of an argument. -/
def Shape.ofArgument (argument : String) : Shape :=
  match argument.toList with
  | ['-', '-'] => separator
  | '-' :: '-' :: body =>
    match body.dropWhile (· ≠ '=') with
    | [] => long (String.ofList body) none
    | _ :: value => long (String.ofList (body.takeWhile (· ≠ '='))) (some (String.ofList value))
  | '-' :: letter :: _ => short letter
  | _ => plain

/-- Reads arguments that are all file names. -/
def readFiles (request : Request) (held : Held) (names : List String) :
    Except UsageError Request :=
  match held with
  | .files before => request.settle (.files (before ++ names))
  | held => do (← request.settle held).settle (.files names)

/-- Reads arguments, where `held` comes from those before. -/
def readArguments (request : Request) (held : Held) : List String → Except UsageError Invocation
  | [] => return .evaluation (← request.settle held)
  | argument :: rest =>
    match Shape.ofArgument argument with
    | .separator => return .evaluation (← readFiles request held rest)
    | .long name value =>
      match Setting.ofName? name, value with
      | some setting, some value => do
        let request ← request.settle held
        readArguments (← request.assign setting value) .nothing rest
      | some setting, none => do
        readArguments (← request.settle held) (.setting setting none) rest
      | none, some value =>
        -- What is held is not settled: an argument that cannot be read comes first.
        if name = "help" then .error (.unexpectedValue value)
        else .error (.unexpectedArgument ("--" ++ name))
      | none, none =>
        if name = "help" then do
          let _ ← request.settle held
          return .help
        else .error (.unexpectedArgument ("--" ++ name))
    | .short letter =>
      if letter = 'h' then do
        let _ ← request.settle held
        return .help
      else .error (.unexpectedArgument ("-" ++ letter.toString))
    | .plain =>
      match held with
      -- An option that lacks its value takes any argument that is plain.
      | .setting setting none => readArguments request (.setting setting (some argument)) rest
      | .files names => readArguments request (.files (names ++ [argument])) rest
      | held => do
        readArguments (← request.settle held) (.files [argument]) rest

/-- What a list of arguments asks for. -/
def Invocation.ofArguments (arguments : List String) : Except UsageError Invocation :=
  readArguments .empty .nothing arguments

end Concatenative.CommandLine
