/-
The values on the stack: signed 32-bit integers.

A cell is an integer together with the two bounds, rather than a machine word.
Arithmetic is then arithmetic of integers followed by one question, whether the
result is a cell, and nothing can wrap around unnoticed.
-/
import Concatenative.Text.Decimal

set_option autoImplicit false

namespace Concatenative

/-- An integer from -2³¹ to 2³¹ - 1. -/
@[ext]
structure Cell where
  val : Int
  lower : -2147483648 ≤ val
  upper : val ≤ 2147483647
  deriving DecidableEq

namespace Cell

/-- The cell with a given value, if the value is in range. -/
def ofInt? (value : Int) : Option Cell :=
  if h : -2147483648 ≤ value ∧ value ≤ 2147483647 then some ⟨value, h.1, h.2⟩ else none

theorem ofInt?_eq_some_iff {value : Int} {c : Cell} : ofInt? value = some c ↔ c.val = value := by
  constructor
  · intro h
    unfold ofInt? at h
    split at h
    · injection h with h
      rw [← h]
    · cases h
  · intro h
    subst h
    simp [ofInt?, c.lower, c.upper]

theorem ofInt?_eq_none_iff {value : Int} :
    ofInt? value = none ↔ value < -2147483648 ∨ 2147483647 < value := by
  unfold ofInt?
  split <;> simp <;> omega

/-- The decimal text of a cell. -/
def text (c : Cell) : String :=
  Text.decimal c.val

/-- The cell that a token denotes by being a number. A number out of range
denotes nothing: it is not cut down to size. -/
def ofLiteral? (token : String) : Option Cell :=
  (Text.integer? token.toList).bind ofInt?

/-- The decimal text of a cell denotes the cell. -/
theorem ofLiteral?_text (c : Cell) : ofLiteral? c.text = some c := by
  rw [ofLiteral?, text, Text.integer?_decimal, Option.bind_some]
  exact ofInt?_eq_some_iff.2 rfl

end Cell

/-- A row of cells, bottom of the stack first, with `separator` between
neighbours. The stack itself is given top first. -/
def showStack (separator : String) (stack : List Cell) : String :=
  separator.intercalate (stack.reverse.map Cell.text)

end Concatenative
