/-
Which tokens are numbers.

A numeral is said here as one would say it: digits, at least one, with a sign in front or
without, and the integer that the digits stand for by their places (`Text.IsNumeral`). Reading a
token goes through its characters from the left instead and keeps what it has read so far, and
the one fact that ties the two is that both ways of counting come to the same number
(`Text.ofDigitChars_eq_placeValue`). Nothing is cut off on the way, however long the token is: an
integer that is no cell makes of the token something that is no number.

The rest is an order of three questions: is the token a user word, a number, a keyword? The
second and the third exclude each other, as a sign alone is no numeral. The thing to check before
the statement is trusted is the third answer. It covers whatever is left, and it says which token
is reported.
-/
import Concatenative.Proofs.Exactness
import Mathlib.Data.Nat.Digits.Defs

set_option autoImplicit false

namespace Concatenative

/-! ## Numerals -/

namespace Text

/-- The number that digits stand for by their places: the last one counts ones, the one before it
tens, and so on. -/
def placeValue (digits : List Char) : Nat :=
  Nat.ofDigits 10 (digits.map fun c => c.toNat - '0'.toNat).reverse

/-- The text is made of ASCII digits, at least one. -/
structure IsDigits (text : List Char) : Prop where
  ne_nil : text ≠ []
  isDigit : ∀ c ∈ text, c.isDigit = true

/-- The text is a numeral with at most one sign in front, and stands for the integer. -/
inductive IsNumeral : List Char → Int → Prop
  | unsigned {digits : List Char} (h : IsDigits digits) : IsNumeral digits (placeValue digits)
  | positive {digits : List Char} (h : IsDigits digits) :
      IsNumeral ('+' :: digits) (placeValue digits)
  | negative {digits : List Char} (h : IsDigits digits) :
      IsNumeral ('-' :: digits) (-(placeValue digits : Int))

/-- Reading digits from the left and adding up their places come to the same number. -/
theorem ofDigitChars_eq_placeValue (digits : List Char) :
    Nat.ofDigitChars 10 digits 0 = placeValue digits := by
  induction digits with
  | nil => rfl
  | cons c rest ih =>
    -- The first digit has as many places behind it as there are digits left.
    have hfirst : placeValue (c :: rest)
        = placeValue rest + 10 ^ rest.length * (c.toNat - '0'.toNat) := by
      unfold placeValue
      rw [List.map_cons, Nat.ofDigits_reverse_cons, List.length_map]
    rw [Nat.ofDigitChars_cons, Nat.ofDigitChars_eq_ofDigitChars_zero, ih, hfirst, Nat.mul_zero,
      Nat.zero_add, Nat.add_comm]

theorem natural?_eq_some_iff {text : List Char} {n : Nat} :
    natural? text = some n ↔ IsDigits text ∧ placeValue text = n := by
  unfold natural?
  rw [ofDigitChars_eq_placeValue]
  by_cases h : text ≠ [] ∧ text.all Char.isDigit
  · have hdigits : IsDigits text := ⟨h.1, List.all_eq_true.1 h.2⟩
    rw [if_pos h]
    simp [hdigits]
  · have hdigits : ¬ IsDigits text := fun hd => h ⟨hd.ne_nil, List.all_eq_true.2 hd.isDigit⟩
    rw [if_neg h]
    simp [hdigits]

/-- Reading digits and giving them a sign. -/
theorem signed_eq_some_iff {sign : Int → Int} {text : List Char} {i : Int} :
    (Option.map sign do
      let n ← natural? text
      pure (n : Int)) = some i ↔ IsDigits text ∧ sign (placeValue text) = i := by
  simp only [Option.map_eq_some_iff, Option.bind_eq_bind, Option.bind_eq_some_iff,
    natural?_eq_some_iff]
  constructor
  · rintro ⟨_, ⟨n, ⟨hdigits, rfl⟩, ⟨⟩⟩, rfl⟩
    exact ⟨hdigits, rfl⟩
  · rintro ⟨hdigits, rfl⟩
    exact ⟨_, ⟨_, ⟨hdigits, rfl⟩, rfl⟩, rfl⟩

/-- **A text is read as an integer if it is a numeral that stands for it.** -/
theorem integer?_eq_some_iff {text : List Char} {i : Int} :
    integer? text = some i ↔ IsNumeral text i := by
  constructor
  · intro h
    unfold integer? at h
    split at h
    all_goals obtain ⟨hdigits, rfl⟩ := signed_eq_some_iff.1 h
    · exact .positive hdigits
    · exact .negative hdigits
    · exact .unsigned hdigits
  · intro h
    cases h with
    | unsigned hdigits =>
      -- Digits do not begin with a sign, so they are not taken for a signed numeral.
      obtain ⟨c, rest, rfl⟩ := List.exists_cons_of_ne_nil hdigits.ne_nil
      rw [integer?_of_isDigit (hdigits.isDigit c List.mem_cons_self)]
      exact signed_eq_some_iff.2 ⟨hdigits, rfl⟩
    | positive hdigits => exact signed_eq_some_iff.2 ⟨hdigits, rfl⟩
    | negative hdigits => exact signed_eq_some_iff.2 ⟨hdigits, rfl⟩

end Text

namespace Cell

theorem ofLiteral?_eq_some_iff {token : Token} {c : Cell} :
    ofLiteral? token = some c ↔ Text.IsNumeral token.toList c.val := by
  unfold ofLiteral?
  rw [Option.bind_eq_some_iff]
  constructor
  · rintro ⟨i, hi, hc⟩
    rw [ofInt?_eq_some_iff.1 hc]
    exact Text.integer?_eq_some_iff.1 hi
  · intro h
    exact ⟨c.val, Text.integer?_eq_some_iff.2 h, ofInt?_eq_some_iff.2 rfl⟩

/-- What is no number is no numeral, or one that stands for no cell. -/
theorem ofLiteral?_eq_none_iff {token : Token} :
    ofLiteral? token = none ↔ ∀ i, Text.IsNumeral token.toList i → OutOfRange i := by
  unfold ofLiteral?
  rw [Option.bind_eq_none_iff]
  refine forall_congr' fun i => ?_
  rw [Text.integer?_eq_some_iff, ofInt?_eq_none_iff, OutOfRange]

end Cell

/-- No keyword is a numeral, of whatever size. -/
theorem Keyword.not_isNumeral (k : Keyword) (i : Int) : ¬ Text.IsNumeral k.text.toList i := by
  rw [← Text.integer?_eq_some_iff]
  have hnone : Text.integer? k.text.toList = none := by
    match k with
    | operator op => cases op <;> rfl
    | shuffle move => cases move <;> rfl
    | openDefinition => rfl
    | closeDefinition => rfl
  rw [hnone]
  exact fun h => nomatch h

/-! ## Evaluating one token -/

namespace Session

variable {α : Type} [Arithmetic α]

/-- Evaluating the token leads to what the step says, and nothing is expanded. -/
def Yields (s : Session α) (token : Token) : Step α → Prop
  | .settled s' _ => ∀ patience, ∃ log, s.evalToken (patience + 2) token = some ⟨s', none, 0, log⟩
  | .failure cause =>
    ∀ patience, ∃ log, s.evalToken (patience + 2) token = some ⟨s.cleared, some cause, 0, log⟩
  | .expansion _ => False

theorem yields_of_dispatch {s : Session α} {token : Token} {step : Step α}
    (h : s.dispatch token = step) (hstep : ∀ body, step ≠ .expansion body) :
    s.Yields token step := by
  cases step with
  | settled s' news => exact fun patience => ⟨_, evalToken_settled h patience⟩
  | failure cause => exact fun patience => ⟨_, evalToken_failure h (patience + 1)⟩
  | expansion body => exact hstep body rfl

/-- What is yielded is the outcome, however much patience there is. -/
theorem Yields.stack_eq {s s' : Session α} {token : Token} {news : List (Record α)}
    (h : s.Yields token (.settled s' news)) {patience : Nat} {o : Outcome α}
    (ho : s.evalToken patience token = some o) : o.session.stack = s'.stack := by
  obtain ⟨log, hlog⟩ := h patience
  have hmore : s.evalToken (patience + 2) token = some o := evalToken_mono ho (by omega)
  rw [← Option.some.inj (hlog.symm.trans hmore)]

theorem Yields.stack_eq_nil {s : Session α} {token : Token} {cause : EvalError}
    (h : s.Yields token (.failure cause)) {patience : Nat} {o : Outcome α}
    (ho : s.evalToken patience token = some o) : o.session.stack = [] := by
  obtain ⟨log, hlog⟩ := h patience
  have hmore : s.evalToken (patience + 2) token = some o := evalToken_mono ho (by omega)
  rw [← Option.some.inj (hlog.symm.trans hmore)]
  rfl

theorem execute_ne_expansion (s : Session α) (k : Keyword) (body : List Token) :
    s.execute k ≠ .expansion body := by
  intro h
  match k with
  | .operator op =>
    rcases s.calculate_cases op with ⟨stack, hstep⟩ | ⟨cause, hstep, -⟩
    · cases hstep.symm.trans h
    · cases hstep.symm.trans h
  | .shuffle move =>
    rw [execute] at h
    split at h <;> cases h
  | .openDefinition => cases h
  | .closeDefinition => cases h

/-- On an empty stack no keyword finds anything to work on. -/
theorem stack_of_execute_nil {s s' : Session α} {k : Keyword} {news : List (Record α)}
    (hs : s.stack = []) (h : s.execute k = .settled s' news) : s'.stack = [] := by
  match k with
  | .operator op =>
    simp only [execute, calculate, hs] at h
    cases h
  | .shuffle move =>
    have hnone : move.apply s.stack = none := by
      rw [hs]
      cases move <;> rfl
    simp only [execute, hnone] at h
    cases h
  | .openDefinition =>
    cases h
    exact hs
  | .closeDefinition => cases h

/-! The three things a token that is no user word can be. -/

theorem yields_literal {s : Session Cell} (hmode : s.mode = .interpreting) {token : Token}
    (hfree : s.dictionary.get? token = none) {c : Cell} (hlit : Cell.ofLiteral? token = some c) :
    s.Yields token (.settled { s with stack := c :: s.stack } []) :=
  yields_of_dispatch (dispatch_literal hmode hfree hlit) fun _ h => nomatch h

theorem yields_keyword {s : Session α} (hmode : s.mode = .interpreting) {k : Keyword}
    (hfree : s.dictionary.get? k.text = none) : s.Yields k.text (s.execute k) :=
  yields_of_dispatch (dispatch_keyword hmode k hfree) (s.execute_ne_expansion k)

theorem yields_unknown {s : Session α} (hmode : s.mode = .interpreting) {token : Token}
    (hfree : s.dictionary.get? token = none) (hlit : Cell.ofLiteral? token = none)
    (hkey : Keyword.ofToken? token = none) : s.Yields token (.failure (.unknownToken token)) :=
  yields_of_dispatch (dispatch_unknown hmode hfree hlit hkey) fun _ h => nomatch h

/-- Only a number puts something on an empty stack: a token that is none is a keyword or unknown,
and either leaves the stack empty. -/
theorem stack_of_evalToken_nil {s : Session α} (hmode : s.mode = .interpreting) {token : Token}
    (hfree : s.dictionary.get? token = none) (hlit : Cell.ofLiteral? token = none)
    (hs : s.stack = []) {patience : Nat} {o : Outcome α}
    (ho : s.evalToken patience token = some o) : o.session.stack = [] := by
  cases hkey : Keyword.ofToken? token with
  | none => exact (yields_unknown hmode hfree hlit hkey).stack_eq_nil ho
  | some k =>
    obtain rfl : token = k.text := Keyword.ofToken?_eq_some_iff.1 hkey
    have hyields := yields_keyword hmode hfree
    cases hstep : s.execute k with
    | settled s' news =>
      rw [hstep] at hyields
      rw [hyields.stack_eq ho]
      exact stack_of_execute_nil hs hstep
    | failure cause =>
      rw [hstep] at hyields
      exact hyields.stack_eq_nil ho
    | expansion body => exact absurd hstep (s.execute_ne_expansion k body)

end Session

/-- **A token is a number, a keyword or nothing at all.** Of a token that is no user word, in a
session in which no definition is open, whatever the settings: if it is a numeral that stands for
a cell, the cell is put on the stack and nothing else changes. If it is a keyword, it is no
numeral of any size, and it is carried out as the keyword. In all other cases, a numeral that
stands for no cell among them, evaluation fails and reports the token as it stands. So from an
empty stack a token leads to a stack with one cell if and only if it is a numeral that stands for
this cell; and the decimal text of a cell is one, whichever the cell. -/
theorem numbers_recognized {s : Session Cell} (hmode : s.mode = .interpreting) {token : Token}
    (hfree : s.dictionary.get? token = none) :
    (∀ c : Cell, Text.IsNumeral token.toList c.val → ∀ patience, ∃ log,
      s.evalToken (patience + 2) token = some ⟨{ s with stack := c :: s.stack }, none, 0, log⟩)
    ∧ (∀ k : Keyword, token = k.text →
      (∀ i, ¬ Text.IsNumeral token.toList i) ∧ s.Yields token (s.execute k))
    ∧ ((∀ i, Text.IsNumeral token.toList i → OutOfRange i) → (∀ k : Keyword, token ≠ k.text) →
      ∀ patience, ∃ log, s.evalToken (patience + 2) token
        = some ⟨s.cleared, some (.unknownToken token), 0, log⟩)
    ∧ (s.stack = [] → ∀ c : Cell,
      (∃ patience o, s.evalToken patience token = some o ∧ o.session.stack = [c])
        ↔ Text.IsNumeral token.toList c.val)
    ∧ ∀ c : Cell, token = c.text → Text.IsNumeral token.toList c.val ∧ ∀ patience, ∃ log,
      s.evalToken (patience + 2) token = some ⟨{ s with stack := c :: s.stack }, none, 0, log⟩ := by
  have hnumber : ∀ c : Cell, Text.IsNumeral token.toList c.val →
      s.Yields token (.settled { s with stack := c :: s.stack } []) :=
    fun c hc => Session.yields_literal hmode hfree (Cell.ofLiteral?_eq_some_iff.2 hc)
  refine ⟨hnumber, ?keyword, ?unknown, ?empty, ?decimal⟩
  case keyword =>
    rintro k rfl
    exact ⟨k.not_isNumeral, Session.yields_keyword hmode hfree⟩
  case unknown =>
    intro hrange hnone
    have hkey : Keyword.ofToken? token = none := by
      rw [Option.eq_none_iff_forall_ne_some]
      exact fun k hk => hnone k (Keyword.ofToken?_eq_some_iff.1 hk)
    exact Session.yields_unknown hmode hfree (Cell.ofLiteral?_eq_none_iff.2 hrange) hkey
  case empty =>
    intro hs c
    constructor
    · rintro ⟨patience, o, ho, hstack⟩
      cases hlit : Cell.ofLiteral? token with
      | some c' =>
        have hc' := Cell.ofLiteral?_eq_some_iff.1 hlit
        have hone : [c] = c' :: s.stack := hstack.symm.trans ((hnumber c' hc').stack_eq ho)
        rwa [(List.cons.inj hone).1]
      | none =>
        rw [Session.stack_of_evalToken_nil hmode hfree hlit hs ho] at hstack
        cases hstack
    · intro hc
      obtain ⟨log, hlog⟩ := hnumber c hc 0
      exact ⟨2, _, hlog, by rw [hs]⟩
  case decimal =>
    rintro c rfl
    have hc := Cell.ofLiteral?_eq_some_iff.1 (Cell.ofLiteral?_text c)
    exact ⟨hc, hnumber c hc⟩

/-- The lowest cell with zeros in front, the first integer above the highest cell, and a sign
alone. -/
theorem numbers_recognized_lowest :
    let s : Session Cell := Session.new .plain
    let lowest : Cell := ⟨-2147483648, by decide, by decide⟩
    Text.IsNumeral "-0002147483648".toList lowest.val
      ∧ (∃ log, s.evalToken 2 "-0002147483648"
          = some ⟨{ s with stack := [lowest] }, none, 0, log⟩)
      ∧ (∃ patience o, s.evalToken patience "-0002147483648" = some o
          ∧ o.session.stack = [lowest])
      ∧ (∃ log, s.evalToken 2 "2147483648"
          = some ⟨s, some (.unknownToken "2147483648"), 0, log⟩)
      ∧ (∀ i, ¬ Text.IsNumeral "-".toList i)
      ∧ ∃ log, s.evalToken 2 "-" = some ⟨s, some .stackUnderflow, 0, log⟩ := by
  intro s lowest
  have hlowest : Text.IsNumeral "-0002147483648".toList lowest.val :=
    Text.integer?_eq_some_iff.1 (by decide)
  have hrange : ∀ i, Text.IsNumeral "2147483648".toList i → OutOfRange i :=
    Cell.ofLiteral?_eq_none_iff.1 (by decide)
  have hnone : ∀ k : Keyword, "2147483648" ≠ k.text := by
    intro k hk
    have hkey : Keyword.ofToken? "2147483648" = some k := Keyword.ofToken?_eq_some_iff.2 hk
    cases hkey.symm.trans (by decide : Keyword.ofToken? "2147483648" = none)
  have hfree : ∀ token, s.dictionary.get? token = none := fun _ => rfl
  obtain ⟨number, -, -, empty, -⟩ := numbers_recognized rfl (hfree "-0002147483648")
  obtain ⟨-, -, unknown, -, -⟩ := numbers_recognized rfl (hfree "2147483648")
  obtain ⟨-, keyword, -, -, -⟩ := numbers_recognized rfl (hfree "-")
  obtain ⟨hsign, hminus⟩ := keyword (.operator .sub) rfl
  exact ⟨hlowest, number lowest hlowest 0, (empty rfl lowest).2 hlowest, unknown hrange hnone 0,
    hsign, hminus 0⟩

end Concatenative
