/-
The dialogue where it is held: on a terminal, with a person at the other end.

A line is read when its prompt has been shown and not before. So this is a loop and no function of
the whole input, and the only thing it knows of the world is a terminal that hands it the next line
and takes what is to be shown. It is written for any monad: on the standard streams it is the
program, and on a recording it can be compared with the transcript of an input.
-/
import Concatenative.Dialogue

set_option autoImplicit false

namespace Concatenative

/-- More steps than any machine will take. -/
def endless : Nat :=
  1 <<< 62

namespace Dialogue

/-! ## The loop -/

/-- Where a dialogue is held. -/
structure Terminal (m : Type → Type) where
  /-- Waits for the bytes of the next line with its ending. There are none at the end of input. -/
  nextLine : m ByteArray
  put : String → m Unit

/-- Holds a dialogue from a session on, until it is left, breaks down or the input ends. The result
is the exit code, if the turns were enough and every line could be replied to. -/
def hold {m : Type → Type} [Monad m] (t : Terminal m) (patience : Nat) :
    Nat → Session Cell → m (Option Nat)
  | 0, _ => return none
  | turns + 1, s => do
    t.put (prompt s)
    match (Text.byteLines (← t.nextLine)).map Heard.ofBytes with
    | [] => return some 0
    | .undecodable :: _ => do
      t.put undecodableMessage
      return some 0
    | .unmendable :: _ => return some breakdownCode
    | .line text :: _ =>
      match reply patience s text with
      | none => return none
      | some .farewell => return some 0
      | some (.answered answer next) => do
        t.put answer
        hold t patience turns next

/-! ## The standard streams -/

/-- The bytes of the next line with its ending, behind those read so far. -/
partial def readLine (stream : IO.FS.Stream) (sofar : ByteArray) : IO ByteArray := do
  let byte ← stream.read 1
  if byte.isEmpty then return sofar
  else if byte.data = #[0x0A] then return sofar ++ byte
  else readLine stream (sofar ++ byte)

/-- The terminal on the standard streams. -/
def console : Terminal IO where
  nextLine := do readLine (← IO.getStdin) .empty
  put text := do
    let out ← IO.getStdout
    out.putStr text
    out.flush

/-- Holds a dialogue in a new session. The result is the exit code. -/
def interact : IO Nat := do
  return (← hold console endless endless fresh).getD 0

end Dialogue

end Concatenative
