/-
What can go wrong in evaluation, as causes, and how each cause is worded.
-/
import Concatenative.Arithmetic
import Concatenative.Token

set_option autoImplicit false

namespace Concatenative

/-- A definition whose two ends do not match. -/
inductive DefinitionError where
  /-- The closing token came without a definition to close. -/
  | unopened
  /-- The source ended inside a definition, whose name may be known by then. -/
  | unclosed (name : Option Token)
  deriving DecidableEq

/-- The wording of an ill-formed definition. -/
def DefinitionError.message : DefinitionError → String
  | .unopened => "; outside of a definition"
  | .unclosed (some name) => "definition of " ++ name ++ " is missing ;"
  | .unclosed none => "definition is missing a name"

/-- The wording of an operator that has no result. -/
def ArithmeticError.message : ArithmeticError → String
  | .divisionByZero => "divided by zero"
  | .overflow => "integer overflow"

/-- Why evaluation failed. -/
inductive EvalError where
  /-- A word needed more values than the stack held. -/
  | stackUnderflow
  | arithmetic (cause : ArithmeticError)
  /-- A token that is no user word, no number and no keyword. -/
  | unknownToken (token : Token)
  | malformedDefinition (cause : DefinitionError)
  /-- One token led to more than `limit` word expansions. -/
  | expansionLimit (limit : Nat)
  deriving DecidableEq

/-- The wording of a failure. -/
def EvalError.message : EvalError → String
  | .stackUnderflow => "stack underflow"
  | .arithmetic cause => cause.message
  | .unknownToken token => "can't understand " ++ token
  | .malformedDefinition cause => "malformed definition: " ++ cause.message
  | .expansionLimit limit => "more than " ++ limit.repr ++ " expansions"

end Concatenative
