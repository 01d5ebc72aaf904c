/-
Lower-casing a word.

Every character has a lower-case image that does not depend on its place, with
one exception: a capital sigma becomes the final form at the end of a word and
the medial form elsewhere. "At the end of a word" is read off the neighbours:
going left from the sigma and passing over case-ignorable characters, the first
other character is cased; going right in the same way, there is no other
character or the first one is not cased.
-/
import Concatenative.Text.CaseTable

set_option autoImplicit false

namespace Concatenative.Text

/-! ## Single characters -/

/-- The lower-case image of a character on its own. -/
def lowerChar (c : Char) : List Char :=
  if c.toNat < 0x80 then [c.toLower]
  else if c = 'İ' then ['i', '\u0307']
  else match caseRuns.find? (·.covers c.toNat) with
    | some run => [Char.ofNat (run.image + (c.toNat - run.first))]
    | none => [c]

/-! ## Sigma -/

/-- Whether a character has the property Cased. -/
def isCased (c : Char) : Bool :=
  inRanges casedRanges c

/-- Whether a character has the property Case_Ignorable. -/
def isCaseIgnorable (c : Char) : Bool :=
  inRanges caseIgnorableRanges c

/-- Whether the first character that is not case-ignorable exists and is cased. -/
def meetsCased (cs : List Char) : Bool :=
  match cs.dropWhile isCaseIgnorable with
  | [] => false
  | c :: _ => isCased c

/-- The lower-case form of a capital sigma between `before`, nearest character
first, and `after`. -/
def lowerSigma (before after : List Char) : Char :=
  if meetsCased before && !meetsCased after then 'ς' else 'σ'

/-! ## Words -/

/-- The lower-case image of the characters `after` when `before` precedes them in
the word, nearest character first. -/
def lowerAfter (before : List Char) : List Char → List Char
  | [] => []
  | c :: after =>
    -- The context is that of the word as it was written, not as it comes out.
    (if c = 'Σ' then [lowerSigma before after] else lowerChar c) ++ lowerAfter (c :: before) after

/-- The lower-case image of a word. -/
def lowerWord (word : List Char) : List Char :=
  lowerAfter [] word

end Concatenative.Text
