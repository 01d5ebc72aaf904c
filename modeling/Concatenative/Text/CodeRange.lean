/-
Sets of characters given by ranges of code points. Every character property of
the language (white space, cased, case-ignorable) is such a set, and keeping one
membership test for all of them keeps the tables plain data.
-/
set_option autoImplicit false

namespace Concatenative.Text

/-- The code points from `first` to `last`, both included. -/
structure CodeRange where
  first : Nat
  last : Nat

/-- Whether the code point `n` lies in the range. -/
def CodeRange.covers (r : CodeRange) (n : Nat) : Bool :=
  r.first ≤ n && n ≤ r.last

/-- Whether a character lies in one of the ranges. -/
def inRanges (ranges : List CodeRange) (c : Char) : Bool :=
  ranges.any (·.covers c.toNat)

theorem inRanges_iff (ranges : List CodeRange) (c : Char) :
    inRanges ranges c = true ↔ ∃ r ∈ ranges, r.first ≤ c.toNat ∧ c.toNat ≤ r.last := by
  simp [inRanges, CodeRange.covers]

end Concatenative.Text
