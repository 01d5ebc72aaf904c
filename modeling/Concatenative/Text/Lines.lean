/-
The lines of a text.

A line ends at a line feed, and one carriage return directly before that line
feed belongs to the ending. What follows the last line feed is a line of its own
unless nothing follows; it has no ending, so it keeps a final carriage return.

The cut is written for any kind of unit, because it is made both in decoded text
and in bytes that are yet to be decoded.
-/
set_option autoImplicit false

namespace Concatenative.Text

variable {α : Type} [DecidableEq α]

/-- A piece without the carriage return `ret` that it may end in. -/
def withoutReturn (ret : α) (piece : List α) : List α :=
  if piece.getLast? = some ret then piece.dropLast else piece

/-- The lines of a text, where `feed` is the line feed and `ret` the carriage
return. -/
def lines (feed ret : α) (text : List α) : List (List α) :=
  let pieces := text.splitOn feed
  -- A line feed stands behind every piece but the last.
  pieces.dropLast.map (withoutReturn ret) ++ (pieces.getLast?.toList.filter (· ≠ []))

/-- A piece of text that a line feed ends is a line, and the rest is cut on its
own. -/
theorem lines_append_cons (feed ret : α) (piece rest : List α) (h : feed ∉ piece) :
    lines feed ret (piece ++ feed :: rest) = withoutReturn ret piece :: lines feed ret rest := by
  have hsplit : (piece ++ feed :: rest).splitOn feed = piece :: rest.splitOn feed :=
    List.splitOn_append_cons_self_of_not_mem h rest
  have hne : rest.splitOn feed ≠ [] := List.splitOn_ne_nil feed rest
  simp only [lines, hsplit]
  rw [List.dropLast_cons_of_ne_nil hne, List.getLast?_cons_of_ne_nil hne]
  simp

@[simp] theorem lines_nil (feed ret : α) : lines feed ret [] = [] := by
  simp [lines]

/-- The lines of a decoded text. -/
def textLines (text : String) : List String :=
  (lines '\n' '\r' text.toList).map String.ofList

/-- The lines of a sequence of bytes, each as it stood, decoded or not. -/
def byteLines (bytes : ByteArray) : List ByteArray :=
  (lines 0x0A 0x0D bytes.data.toList).map fun line => ⟨line.toArray⟩

end Concatenative.Text
