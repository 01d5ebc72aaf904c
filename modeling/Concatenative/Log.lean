/-
The log: what evaluation tells about its course, how important each piece of news
is, and which of it is kept.
-/
import Concatenative.Error

set_option autoImplicit false

namespace Concatenative

/-! ## Levels -/

/-- The importance of a record. -/
inductive Level where
  | error
  | warn
  | info
  | debug
  | trace
  deriving DecidableEq

namespace Level

/-- Position in the order from the most to the least important. -/
def rank : Level → Nat
  | error => 0
  | warn => 1
  | info => 2
  | debug => 3
  | trace => 4

/-- The name of a level as it is printed. -/
def name : Level → String
  | error => "ERROR"
  | warn => "WARN"
  | info => "INFO"
  | debug => "DEBUG"
  | trace => "TRACE"

end Level

/-- The least important level that is still kept, or `none` to keep nothing. -/
abbrev Verbosity := Option Level

/-- Whether records of a level are kept. -/
def Verbosity.admits (verbosity : Verbosity) (level : Level) : Bool :=
  match verbosity with
  | none => false
  | some least => level.rank ≤ least.rank

/-- The verbosity with a given name, in any mixture of cases. -/
def Verbosity.ofName? (name : String) : Option Verbosity :=
  match name.toLower with
  | "off" => some none
  | "error" => some (some .error)
  | "warn" => some (some .warn)
  | "info" => some (some .info)
  | "debug" => some (some .debug)
  | "trace" => some (some .trace)
  | _ => none

/-! ## Records -/

/-- One piece of news from a session on values of type `α`. -/
inductive Record (α : Type) where
  /-- A token is about to be dispatched; the stack before it, top first. -/
  | dispatched (stack : List α) (token : Token)
  /-- A user word is about to be replaced by its body. -/
  | expanding (word : Token) (body : List Token)
  /-- A definition is complete. -/
  | defining (name : Token) (body : List Token)
  /-- The definition took the place of an older one with this body. -/
  | redefined (oldBody : List Token)
  /-- Evaluation of a token failed. -/
  | failed (cause : EvalError)
  deriving DecidableEq

namespace Record

/-- The importance of a record. -/
def level {α : Type} : Record α → Level
  | dispatched .. => .trace
  | expanding .. => .debug
  | defining .. => .debug
  | redefined .. => .warn
  | failed .. => .debug

/-- The wording of a record. -/
def text : Record Cell → String
  | dispatched stack token => "[" ++ showStack ", " stack ++ "] <- " ++ token
  | expanding word body => "expanding " ++ word ++ " into " ++ spelled body
  | defining name body => "defining " ++ name ++ " as " ++ spelled body
  | redefined oldBody => "redefined a word, dropping old body " ++ spelled oldBody
  | failed cause => "evaluation failed: " ++ cause.message

end Record

end Concatenative
