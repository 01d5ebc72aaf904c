/-
A line as it was typed, and the line that was meant.

A backspace takes back the last cluster that has not been taken back, as a reader
would expect of one key. What is kept of a cluster for that purpose is its size,
and of the size the part that fits a byte. So a cluster of 256 bytes or more is
taken back only in part, and where that part ends inside a character the line
cannot be mended at all.
-/
import Concatenative.Text.Cluster

set_option autoImplicit false

namespace Concatenative.Text

/-! ## Sizes -/

/-- The backspace. -/
def backspace : Char := '\x08'

/-- The number of bytes that a text takes. -/
def byteSize (text : List Char) : Nat :=
  text.foldl (fun size c => size + c.utf8Size) 0

/-- A text, last character first, without its last `size` bytes. There is no such
text if that would split a character. -/
def withoutBytes (size : Nat) (text : List Char) : Option (List Char) :=
  match size, text with
  | 0, text => some text
  | _ + 1, [] => some []
  | size + 1, c :: rest =>
    if c.utf8Size ≤ size + 1 then withoutBytes (size + 1 - c.utf8Size) rest else none

/-! ## Typing -/

/-- A line in the course of being typed. -/
structure TypedLine where
  /-- What stands on the line, last character first. -/
  kept : List Char
  /-- The sizes of its clusters, last one first. -/
  sizes : List Nat

/-- The line that nothing has been typed on. -/
def TypedLine.empty : TypedLine :=
  ⟨[], []⟩

/-- The line after one more cluster. A backspace on an empty line does nothing. -/
def TypedLine.type (line : TypedLine) (cluster : List Char) : Option TypedLine :=
  if cluster = [backspace] then
    match line.sizes with
    | [] => some line
    | size :: sizes => (withoutBytes size line.kept).map (⟨·, sizes⟩)
  else some ⟨cluster.reverse ++ line.kept, byteSize cluster % 256 :: line.sizes⟩

/-- The line that was meant by what was typed, if it can be told. -/
def mended? (typed : List Char) : Option (List Char) :=
  ((clusters typed).foldlM TypedLine.type .empty).map (·.kept.reverse)

/-! ## Lines without a backspace -/

theorem foldlM_type {typed : List (List Char)} (h : [backspace] ∉ typed) (line : TypedLine) :
    (typed.foldlM TypedLine.type line).map TypedLine.kept
      = some (typed.flatten.reverse ++ line.kept) := by
  induction typed generalizing line with
  | nil => simp
  | cons cluster rest ih =>
    have hcluster : cluster ≠ [backspace] := fun e => h (by simp [e])
    have hrest : [backspace] ∉ rest := fun e => h (by simp [e])
    rw [List.foldlM_cons, TypedLine.type, if_neg hcluster]
    simp only [Option.bind_eq_bind, Option.bind_some, ih hrest]
    simp

/-- A line without a backspace is meant as it was typed. -/
theorem mended?_eq_self {typed : List Char} (h : backspace ∉ typed) : mended? typed = some typed := by
  have hmem : [backspace] ∉ clusters typed := by
    intro hin
    have : backspace ∈ (clusters typed).flatten := List.mem_flatten.2 ⟨_, hin, by simp⟩
    rw [flatten_clusters] at this
    exact h this
  have hkept := foldlM_type hmem .empty
  rw [flatten_clusters] at hkept
  unfold mended?
  cases hline : (clusters typed).foldlM TypedLine.type .empty with
  | none => simp [hline] at hkept
  | some line =>
    rw [hline] at hkept
    simp only [Option.map_some, TypedLine.empty, List.append_nil, Option.some.injEq] at hkept
    simp [hkept]

end Concatenative.Text
