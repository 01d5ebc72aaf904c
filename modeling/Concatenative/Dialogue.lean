/-
A session held line by line: a prompt, a line, an answer.

Three lines are addressed to the dialogue and not to the session. They are
recognised whatever the session is doing, also in the middle of a definition, and
are compared without the white space around them and with regard to case. Any
other line is evaluated as it stands. What counts as the line is what was meant by
what was typed, with the backspaces carried out.

The setting is a terminal that takes no orders (a dumb one), whether lines are typed
there or come through a pipe: every prompt is written and is a part of what is shown,
and a line is read as it comes and mended afterwards. On other terminals a line is
edited while it is typed, and a pipe gets no prompts. Lines are not kept for a later
dialogue, so nothing is said here about a history that could not be saved.
-/
import Concatenative.Evaluation
import Concatenative.Text.Backspace
import Concatenative.Text.Lines

set_option autoImplicit false

namespace Concatenative.Dialogue

/-! ## Lines -/

/-- The lines that are addressed to the dialogue. -/
inductive Command where
  /-- End the dialogue. -/
  | quit
  /-- Begin a new session. -/
  | clear
  /-- List the user's words. -/
  | words
  deriving DecidableEq

/-- The command that a line consists of. -/
def Command.ofLine? (line : String) : Option Command :=
  match String.ofList (Text.trim line.toList) with
  | ".quit" => some quit
  | ".clear" => some clear
  | ".words" => some words
  | _ => none

/-- The session that a dialogue begins with. -/
def fresh : Session Cell :=
  Session.new .plain

/-- What is shown before a line is read: an open definition is repeated as far as
it goes. -/
def prompt (s : Session Cell) : String :=
  match s.mode with
  | .interpreting => "> "
  | mode => mode.text ++ " ... "

/-- The answer to a line that was evaluated. The values are shown unless a
definition is open. -/
def answer (o : Outcome Cell) : String :=
  match o.error, o.session.mode with
  | some cause, _ => cause.message ++ "\n"
  | none, .interpreting => o.session.render ++ "\n"
  | none, _ => ""

/-- The user's words, one definition to a line. -/
def listing (d : Dictionary) : String :=
  String.join (d.definitionLines.map (· ++ "\n"))

/-- What becomes of a dialogue when a line has been read. -/
inductive Reply where
  | farewell
  | answered (text : String) (session : Session Cell)

/-- The reply to a line. -/
def reply (patience : Nat) (s : Session Cell) (line : String) : Option Reply :=
  match Command.ofLine? line with
  | some .quit => some .farewell
  | some .clear => some (.answered "" fresh)
  | some .words => some (.answered (listing s.dictionary) s)
  | none => (s.evalLine patience line).map fun o => .answered (answer o) o.session

/-! ## Whole dialogues -/

/-- What comes of reading a line. -/
inductive Heard where
  | line (text : String)
  /-- The bytes of the line are not UTF-8. -/
  | undecodable
  /-- It cannot be told what the line was meant to be. -/
  | unmendable

/-- What comes of reading the bytes of a line. -/
def Heard.ofBytes (bytes : ByteArray) : Heard :=
  match String.fromUTF8? bytes with
  | none => undecodable
  | some typed =>
    match Text.mended? typed.toList with
    | none => unmendable
    | some text => line (String.ofList text)

/-- What is said about a line that is not UTF-8. It ends the dialogue. -/
def undecodableMessage : String :=
  "stream did not contain valid UTF-8\n"

/-- The exit code of a dialogue that broke down. -/
def breakdownCode : Nat :=
  101

/-- What was shown in a dialogue, and the exit code it ended with. -/
structure Transcript where
  code : Nat
  shown : String

/-- A transcript with something shown before it. -/
def Transcript.after (earlier : String) (t : Transcript) : Transcript :=
  { t with shown := earlier ++ t.shown }

/-- The transcript of a dialogue from a session on, for the lines still to come. A
line that cannot be mended breaks the dialogue off without a word. -/
def converse (patience : Nat) (s : Session Cell) : List Heard → Option Transcript
  | [] => some ⟨0, prompt s⟩
  | .undecodable :: _ => some ⟨0, prompt s ++ undecodableMessage⟩
  | .unmendable :: _ => some ⟨breakdownCode, prompt s⟩
  | .line text :: rest =>
    match reply patience s text with
    | none => none
    | some .farewell => some ⟨0, prompt s⟩
    | some (.answered answer next) =>
      (converse patience next rest).map (·.after (prompt s ++ answer))

/-- The transcript of a dialogue whose input is a sequence of bytes. -/
def transcript (patience : Nat) (input : ByteArray) : Option Transcript :=
  converse patience fresh ((Text.byteLines input).map Heard.ofBytes)

end Concatenative.Dialogue
