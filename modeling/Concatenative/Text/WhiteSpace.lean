/-
White space and the words between it.

A word is a maximal run of characters that are not white space. Cutting at every
white-space character and dropping the empty pieces gives exactly those runs,
however many separators stand between two words or at either end.
-/
import Concatenative.Text.CodeRange

set_option autoImplicit false

namespace Concatenative.Text

/-! ## The property -/

/-- The code points with the Unicode property White_Space. Zero-width spaces and
the byte order mark are not among them. -/
def whiteSpaceRanges : List CodeRange :=
  [⟨0x0009, 0x000D⟩, ⟨0x0020, 0x0020⟩, ⟨0x0085, 0x0085⟩, ⟨0x00A0, 0x00A0⟩, ⟨0x1680, 0x1680⟩,
   ⟨0x2000, 0x200A⟩, ⟨0x2028, 0x2029⟩, ⟨0x202F, 0x202F⟩, ⟨0x205F, 0x205F⟩, ⟨0x3000, 0x3000⟩]

/-- Whether a character is white space. -/
def isWhiteSpace (c : Char) : Bool :=
  inRanges whiteSpaceRanges c

/-! ## Words -/

/-- The words of a text, in order. -/
def words (text : List Char) : List (List Char) :=
  (text.splitOnP isWhiteSpace).filter (· ≠ [])

@[simp] theorem words_nil : words [] = [] := rfl

/-- A white-space character separates: the words on its two sides do not know of
each other. -/
theorem words_append_cons (a b : List Char) (c : Char) (h : isWhiteSpace c = true) :
    words (a ++ c :: b) = words a ++ words b := by
  simp [words, List.splitOnP_append_cons a b h]

/-- A word on its own is its only word. -/
theorem words_eq_singleton {w : List Char} (hne : w ≠ [])
    (h : ∀ c ∈ w, isWhiteSpace c = false) : words w = [w] := by
  have hsplit : w.splitOnP isWhiteSpace = [w] := List.splitOnP_eq_singleton (by simpa using h)
  simp [words, hsplit, hne]

/-! ## Ends -/

/-- A text without the white space at its two ends. -/
def trim (text : List Char) : List Char :=
  ((text.dropWhile isWhiteSpace).reverse.dropWhile isWhiteSpace).reverse

end Concatenative.Text
