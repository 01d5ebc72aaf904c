/-
Where a session stands with respect to definitions: between them, before the
name of one, or in its body.
-/
import Concatenative.Error

set_option autoImplicit false

namespace Concatenative

/-- What the next token will be used for. -/
inductive Mode where
  /-- It is carried out. -/
  | interpreting
  /-- It becomes the name of a new word. -/
  | naming
  /-- It becomes part of the body of `name`, which is `body` so far, unless it
  closes the definition. -/
  | compiling (name : Token) (body : List Token)
  deriving DecidableEq

namespace Mode

/-- The open definition as it would have to be typed to get this far. -/
def text : Mode → String
  | interpreting => ""
  | naming => ":"
  | compiling name [] => ": " ++ name
  | compiling name body => ": " ++ name ++ " " ++ spelled body

/-- What is wrong if the source ends here. -/
def unclosed? : Mode → Option DefinitionError
  | interpreting => none
  | naming => some (.unclosed none)
  | compiling name _ => some (.unclosed (some name))

end Mode

end Concatenative
