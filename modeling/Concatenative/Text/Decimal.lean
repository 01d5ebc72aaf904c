/-
Integers in decimal: how they are written and which texts are read as one.

Reading is stricter than writing needs: a text is a number if it has one sign at
most and then ASCII digits only, at least one of them. Leading zeros are allowed
and change nothing, so several texts may be read as the same number.
-/
set_option autoImplicit false

namespace Concatenative.Text

/-! ## Writing -/

/-- The decimal text of an integer: no leading zeros, and a sign only below
zero. -/
def decimal : Int → String
  | .ofNat n => n.repr
  | .negSucc n => "-" ++ (n + 1).repr

/-! ## Reading -/

/-- The number that a text of one or more digits stands for. -/
def natural? (digits : List Char) : Option Nat :=
  if digits ≠ [] ∧ digits.all Char.isDigit then some (Nat.ofDigitChars 10 digits 0) else none

/-- The integer that a text of digits with at most one sign in front stands for. -/
def integer? : List Char → Option Int
  | '+' :: digits => (natural? digits).map fun n => (n : Int)
  | '-' :: digits => (natural? digits).map fun n => -(n : Int)
  | digits => (natural? digits).map fun n => (n : Int)

/-! ## Reading what was written -/

/-- The decimal digits of a number are read as that number. -/
theorem natural?_toDigits (n : Nat) : natural? (Nat.toDigits 10 n) = some n := by
  have hdigits : (Nat.toDigits 10 n).all Char.isDigit = true := by
    rw [List.all_eq_true]
    intro c hc
    exact Nat.isDigit_of_mem_toDigits (by decide) (by decide) hc
  rw [natural?, if_pos ⟨Nat.toDigits_ne_nil, hdigits⟩, Nat.ofDigitChars_ten_toDigits]

/-- A text that starts with a digit is read without regard to signs. -/
theorem integer?_of_isDigit {c : Char} {cs : List Char} (h : c.isDigit = true) :
    integer? (c :: cs) = (natural? (c :: cs)).map fun n => (n : Int) := by
  unfold integer?
  split
  · rename_i heq
    rw [(List.cons.inj heq).1] at h
    exact absurd h (by decide)
  · rename_i heq
    rw [(List.cons.inj heq).1] at h
    exact absurd h (by decide)
  · rfl

/-- An integer is read back from its decimal text. -/
theorem integer?_decimal (i : Int) : integer? (decimal i).toList = some i := by
  match i with
  | .ofNat n =>
    rw [decimal, Nat.toList_repr]
    obtain ⟨c, cs, hcs⟩ := List.exists_cons_of_ne_nil (Nat.toDigits_ne_nil (n := n) (b := 10))
    have hc : c.isDigit = true :=
      Nat.isDigit_of_mem_toDigits (b := 10) (n := n) (by decide) (by decide)
        (hcs ▸ List.mem_cons_self)
    rw [hcs, integer?_of_isDigit hc, ← hcs, natural?_toDigits]
    rfl
  | .negSucc n =>
    rw [decimal, String.toList_append, Nat.toList_repr]
    show (natural? (Nat.toDigits 10 (n + 1))).map (fun m => -(m : Int)) = some (.negSucc n)
    rw [natural?_toDigits]
    rfl

end Concatenative.Text
