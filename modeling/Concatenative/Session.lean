/-
A session, and what one token does to it.

Dispatching a token has one of three results: the session has dealt with it, or
the token is a user word whose body has to be evaluated in its place, or it
cannot be carried out. Dispatching never evaluates a body itself, so it always
ends, and it is the only place where tokens are told apart.
-/
import Concatenative.Dictionary
import Concatenative.Keyword
import Concatenative.Log
import Concatenative.Mode

set_option autoImplicit false

namespace Concatenative

/-! ## Sessions -/

/-- What is fixed when a session begins. -/
structure Settings where
  /-- How many words may be expanded for one token; `none` sets no limit. -/
  maxExpansions : Option Nat
  /-- Which records of the log are kept. -/
  verbosity : Verbosity

/-- No limit and no log. -/
def Settings.plain : Settings :=
  ⟨none, none⟩

/-- The state of a session on values of type `α`. -/
structure Session (α : Type) where
  dictionary : Dictionary
  /-- The values, top first. -/
  stack : List α
  mode : Mode
  settings : Settings

namespace Session

variable {α : Type}

/-- A session in which nothing has happened yet. -/
def new (settings : Settings) : Session α :=
  ⟨.empty, [], .interpreting, settings⟩

/-- The session after a failure: the values and any open definition are lost, and
the dictionary is kept. -/
def cleared (s : Session α) : Session α :=
  { s with stack := [], mode := .interpreting }

/-- The session after a definition of `name` was closed. -/
def define (s : Session α) (name : Token) (body : List Token) : Session α :=
  { s with dictionary := s.dictionary.insert name body, mode := .interpreting }

/-- The values from bottom to top. -/
def render (s : Session Cell) : String :=
  showStack " " s.stack

/-- What is wrong if the source ends here. -/
def unclosed? (s : Session α) : Option EvalError :=
  s.mode.unclosed?.map .malformedDefinition

end Session

/-! ## Dispatch -/

/-- What becomes of a token. -/
inductive Step (α : Type) where
  /-- It has been dealt with, which may have been worth some records. -/
  | settled (session : Session α) (news : List (Record α))
  /-- It is a user word, and this is its body. -/
  | expansion (body : List Token)
  /-- It cannot be carried out. -/
  | failure (cause : EvalError)

namespace Session

variable {α : Type}

/-- The records of a definition that is being closed. -/
def definitionNews (s : Session α) (name : Token) (body : List Token) : List (Record α) :=
  .defining name body :: (s.dictionary.get? name).toList.map .redefined

section

variable [Arithmetic α]

/-- Replaces the two topmost values by the result of an operator. The topmost one
is the right operand. -/
def calculate (s : Session α) (op : Operator) : Step α :=
  match s.stack with
  | right :: left :: rest =>
    -- Only now that both operands are there can the operator itself fail.
    match Arithmetic.calculate op left right with
    | .ok value => .settled { s with stack := value :: rest } []
    | .error cause => .failure (.arithmetic cause)
  | _ => .failure .stackUnderflow

/-- Carries out a keyword. -/
def execute (s : Session α) : Keyword → Step α
  | .operator op => s.calculate op
  | .shuffle move =>
    match move.apply s.stack with
    | some stack => .settled { s with stack := stack } []
    | none => .failure .stackUnderflow
  | .openDefinition => .settled { s with mode := .naming } []
  | .closeDefinition => .failure (.malformedDefinition .unopened)

/-- Carries out a token: a user word before a number before a keyword. -/
def interpret (s : Session α) (token : Token) : Step α :=
  match s.dictionary.get? token with
  | some body => .expansion body
  | none =>
    match Cell.ofLiteral? token with
    | some value => .settled { s with stack := Arithmetic.ofCell value :: s.stack } []
    | none =>
      match Keyword.ofToken? token with
      | some keyword => s.execute keyword
      | none => .failure (.unknownToken token)

/-- What a token does in the mode at hand. While a definition is open nothing is
looked up: any token can be a name, and any token but the closing one can be part
of a body. -/
def dispatch (s : Session α) (token : Token) : Step α :=
  match s.mode with
  | .interpreting => s.interpret token
  | .naming => .settled { s with mode := .compiling token [] } []
  | .compiling name body =>
    if token = Keyword.closeDefinition.text then
      .settled (s.define name body) (s.definitionNews name body)
    else
      .settled { s with mode := .compiling name (body ++ [token]) } []

end

end Session

end Concatenative
