/-
The four operators, and what a kind of number has to offer to be calculated with.

Sessions are written for any such kind. The language itself calculates with
cells, where a result may be out of range; the integers are the second instance,
with the same four operators and no range to leave, and serve as the measure of
what cells do.
-/
import Concatenative.Cell

set_option autoImplicit false

namespace Concatenative

/-- The arithmetic operators. -/
inductive Operator where
  | add
  | sub
  | mul
  | div
  deriving DecidableEq

/-- Why an operator has no result although both operands are there. -/
inductive ArithmeticError where
  | divisionByZero
  | overflow
  deriving DecidableEq

/-- The exact result of an operator. Quotients are rounded toward zero, and a
divisor of zero is the only obstacle. -/
def Operator.exact (op : Operator) (left right : Int) : Except ArithmeticError Int :=
  match op with
  | .add => .ok (left + right)
  | .sub => .ok (left - right)
  | .mul => .ok (left * right)
  | .div => if right = 0 then .error .divisionByZero else .ok (left.tdiv right)

/-- A kind of number that a stack can hold. -/
class Arithmetic (α : Type) where
  /-- The number that a literal puts on the stack. -/
  ofCell : Cell → α
  /-- The result of an operator on its left and right operand. -/
  calculate : Operator → α → α → Except ArithmeticError α

/-- The result of an operator on cells: the exact result if it is a cell. -/
def Cell.calculate (op : Operator) (left right : Cell) : Except ArithmeticError Cell :=
  match op.exact left.val right.val with
  | .error e => .error e
  | .ok value =>
    match Cell.ofInt? value with
    | some c => .ok c
    | none => .error .overflow

/-- The arithmetic of the language. -/
instance : Arithmetic Cell where
  ofCell := id
  calculate := Cell.calculate

/-- Arithmetic without bounds. -/
instance : Arithmetic Int where
  ofCell := Cell.val
  calculate := Operator.exact

end Concatenative
