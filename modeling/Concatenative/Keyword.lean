/-
The reserved tokens: four operators, four words that rearrange the stack, and the
two that open and close a definition. They are reserved only in so far as no user
word has taken their name, since user words are looked up first.

Stacks are lists with the top first.
-/
import Concatenative.Arithmetic
import Concatenative.Token

set_option autoImplicit false

namespace Concatenative

/-! ## Rearranging the stack -/

/-- The words that move values and calculate nothing. -/
inductive Shuffle where
  | dup
  | drop
  | swap
  | over
  deriving DecidableEq

/-- The stack after a rearrangement, or `none` if it holds too few values. -/
def Shuffle.apply {α : Type} : Shuffle → List α → Option (List α)
  | .dup, a :: rest => some (a :: a :: rest)
  | .drop, _ :: rest => some rest
  | .swap, b :: a :: rest => some (a :: b :: rest)
  | .over, b :: a :: rest => some (a :: b :: a :: rest)
  | _, _ => none

/-! ## Keywords -/

/-- The reserved tokens by what they do. -/
inductive Keyword where
  | operator (op : Operator)
  | shuffle (move : Shuffle)
  | openDefinition
  | closeDefinition
  deriving DecidableEq

namespace Keyword

/-- The token that stands for a keyword. -/
def text : Keyword → Token
  | operator .add => "+"
  | operator .sub => "-"
  | operator .mul => "*"
  | operator .div => "/"
  | shuffle .dup => "dup"
  | shuffle .drop => "drop"
  | shuffle .swap => "swap"
  | shuffle .over => "over"
  | openDefinition => ":"
  | closeDefinition => ";"

/-- The keyword that a token stands for. -/
def ofToken? : Token → Option Keyword
  | "+" => some (operator .add)
  | "-" => some (operator .sub)
  | "*" => some (operator .mul)
  | "/" => some (operator .div)
  | "dup" => some (shuffle .dup)
  | "drop" => some (shuffle .drop)
  | "swap" => some (shuffle .swap)
  | "over" => some (shuffle .over)
  | ":" => some openDefinition
  | ";" => some closeDefinition
  | _ => none

/-- Every keyword has one token and no two keywords share it. -/
theorem ofToken?_eq_some_iff {token : Token} {k : Keyword} :
    ofToken? token = some k ↔ token = k.text := by
  constructor
  · intro h
    unfold ofToken? at h
    split at h <;> first | (cases h; rfl) | cases h
  · intro h
    subst h
    match k with
    | operator op => cases op <;> rfl
    | shuffle move => cases move <;> rfl
    | openDefinition => rfl
    | closeDefinition => rfl

/-- No keyword is a number: a sign alone is not enough. -/
theorem ofLiteral?_text (k : Keyword) : Cell.ofLiteral? k.text = none := by
  match k with
  | operator op => cases op <;> rfl
  | shuffle move => cases move <;> rfl
  | openDefinition => rfl
  | closeDefinition => rfl

end Keyword

end Concatenative
