/-
Tokens, and how a source text is cut into them.

A token is a word of the text in lower case. Since a line break is white space
like any other, the lines of a source give the same tokens as the source itself;
lines matter only to those who read or report line by line.
-/
import Concatenative.Text.LowerCase
import Concatenative.Text.WhiteSpace

set_option autoImplicit false

namespace Concatenative

/-- The unit of evaluation. Tokens are compared as they stand: a session that is
fed a token directly neither lower-cases nor splits it. -/
abbrev Token := String

/-- The tokens of a text, in order. -/
def tokenize (text : String) : List Token :=
  (Text.words text.toList).map fun word => String.ofList (Text.lowerWord word)

/-- The tokens of a list of lines, in order. -/
def tokenizeLines (lines : List String) : List Token :=
  lines.flatMap tokenize

/-- Pieces of text in one row, with `separator` between neighbours. -/
def joined (separator : String) (pieces : List String) : String :=
  separator.intercalate pieces

/-- Tokens as they are shown to a reader. -/
def spelled (tokens : List Token) : String :=
  joined " " tokens

end Concatenative
