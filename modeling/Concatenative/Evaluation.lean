/-
Sessions at work: the evaluation of tokens, lines and whole sources.

A session that sets no limit may work for ever, so the caller says how many steps
it has patience for, and gets `none` if they were not enough. Under an expansion
limit the number of steps can be computed beforehand, and the caller's patience
plays no part.
-/
import Concatenative.Run

set_option autoImplicit false

namespace Concatenative

namespace Session

variable {α : Type}

/-- How many steps the evaluation of one token is given. Under a limit of `m`
expansions every expansion adds at most the longest body to what is pending, so
that `m` times that length, one step for the token itself and one to notice the
end are enough. -/
def steps (s : Session α) (patience : Nat) : Nat :=
  match s.settings.maxExpansions with
  | some limit => limit * s.dictionary.longestBody + 2
  | none => patience

section

variable [Arithmetic α]

/-- Evaluates one token. -/
def evalToken (patience : Nat) (s : Session α) (token : Token) : Option (Outcome α) :=
  (Run.start s token).complete (s.steps patience)

/-- Evaluates tokens one after the other until one fails. -/
def feed (patience : Nat) (s : Session α) (tokens : List Token) : Option (Outcome α) :=
  Outcome.sequence (evalToken patience) s tokens

/-- Evaluates the tokens of a line until one fails. -/
def evalLine (patience : Nat) (s : Session α) (line : String) : Option (Outcome α) :=
  s.feed patience (tokenize line)

/-- Evaluates lines one after the other until one fails. -/
def evalLines (patience : Nat) (s : Session α) (lines : List String) : Option (Outcome α) :=
  Outcome.sequence (evalLine patience) s lines

end

end Session

/-- Evaluates the lines of a source in a new session. -/
def evaluate (patience : Nat) (settings : Settings) (lines : List String) :
    Option (Except EvalError String) :=
  (Session.evalLines patience (Session.new settings) lines).map Outcome.verdict

end Concatenative
