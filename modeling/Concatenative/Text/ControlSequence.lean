/-
What a terminal shows of a text.

A terminal obeys some characters instead of showing them: the control characters,
and the sequences that an escape character opens. A text that comes from outside
and is to be quoted is therefore reduced to what would be shown of it, so that
quoting it cannot recolour a screen or move a cursor.

An escape character opens a new sequence wherever it stands, and two control
characters break off any sequence, so a malformed sequence hides text only up to
the next one that is in order.
-/
set_option autoImplicit false

namespace Concatenative.Text

/-! ## Characters -/

/-- The character that opens a sequence. -/
def escape : Char := '\x1B'

/-- Whether a character breaks off whatever sequence it stands in. -/
def breaksOff (c : Char) : Bool :=
  c = '\x18' || c = '\x1A'

/-- Whether a control character only lays out text. These are shown like text. -/
def isLayout (c : Char) : Bool :=
  c = '\t' || c = '\n' || c = '\x0C' || c = '\r'

/-- Whether a character is shown where no sequence is open. -/
def isShown (c : Char) : Bool :=
  isLayout c || (' ' ≤ c && c ≠ '\x7F')

/-- Whether a character may stand between the opening of a sequence and its end,
to say which family of sequences is meant. -/
def isIntermediate (c : Char) : Bool :=
  ' ' ≤ c && c ≤ '/'

/-- Whether a character belongs to the parameters of a sequence. -/
def isParameter (c : Char) : Bool :=
  '0' ≤ c && c ≤ '?'

/-- Whether a parameter character is one that only the first place admits. -/
def isPrivateMark (c : Char) : Bool :=
  '<' ≤ c && c ≤ '?'

/-- Whether a character ends a sequence that has parameters. -/
def isFinal (c : Char) : Bool :=
  '@' ≤ c && c ≤ '~'

/-- Whether the terminator of control strings is in a character. It is looked for
among the bytes, so it can also be a part of a longer character. -/
def endsControlString (c : Char) : Bool :=
  (String.utf8EncodeChar c).contains 0x9C

/-! ## Sequences -/

/-- An open sequence, as far as it has been read. -/
inductive Sequence where
  /-- The escape character alone. -/
  | opened
  /-- The escape character and intermediate characters. -/
  | intermediate
  /-- A control sequence, which lasts until its final character. -/
  | control
  /-- A device control string of which nothing has been read. -/
  | device
  /-- A device control string in its parameters. -/
  | deviceParameters
  /-- A device control string in its intermediate characters. -/
  | deviceIntermediates
  /-- A string that lasts until the terminator of control strings. -/
  | controlString
  /-- A command to the operating system, which lasts until a bell. -/
  | systemCommand
  deriving DecidableEq

namespace Sequence

/-- Whether layout characters are obeyed at once inside the sequence. A string
takes them for a part of itself. -/
def admitsLayout : Sequence → Bool
  | opened | intermediate | control => true
  | device | deviceParameters | deviceIntermediates | controlString | systemCommand => false

/-- The sequence after one more character, or nothing if that character is its
last one. A character that has no meaning in a sequence leaves it as it is. -/
def next? (s : Sequence) (c : Char) : Option Sequence :=
  match s with
  | opened =>
    if c = '[' then some control
    else if c = ']' then some systemCommand
    else if c = 'P' then some device
    else if c = 'X' || c = '^' || c = '_' then some controlString
    else if isIntermediate c then some intermediate
    else if isParameter c || isFinal c then none
    else some opened
  | intermediate => if isParameter c || isFinal c then none else some intermediate
  | control => if isFinal c then none else some control
  | device =>
    if isIntermediate c then some deviceIntermediates
    else if isParameter c then some deviceParameters
    else if isFinal c then some controlString
    else some device
  | deviceParameters =>
    if isIntermediate c then some deviceIntermediates
    else if isPrivateMark c || isFinal c then some controlString
    else some deviceParameters
  | deviceIntermediates =>
    if isParameter c || isFinal c then some controlString else some deviceIntermediates
  | controlString => if endsControlString c then none else some controlString
  | systemCommand => if c = '\x07' then none else some systemCommand

end Sequence

/-! ## Reading -/

/-- Where in a text a reader stands. -/
inductive Place where
  /-- No sequence is open. -/
  | plain
  | within (s : Sequence)
  /-- A layout character has broken into a sequence. What follows is shown, up to
  the next thing that is not, and from there on the sequence continues. -/
  | interrupting (s : Sequence)

/-- Whether a character is shown, and the place after it. -/
def Place.step (place : Place) (c : Char) : Bool × Place :=
  if c = escape then (false, within .opened)
  else if breaksOff c then (false, plain)
  else match place with
    | plain => (isShown c, plain)
    | within s =>
      if s.admitsLayout && isLayout c then (true, interrupting s)
      else (false, ((s.next? c).map within).getD plain)
    | interrupting s =>
      -- A character beyond ASCII is read to its end, and so forgets the sequence.
      if 0x80 ≤ c.toNat then (true, plain)
      else if isShown c then (true, interrupting s)
      else (false, within s)

/-- What is shown of the text after a place. -/
def shownAfter : Place → List Char → List Char
  | _, [] => []
  | place, c :: rest =>
    match place.step c with
    | (true, place) => c :: shownAfter place rest
    | (false, place) => shownAfter place rest

/-- What a terminal shows of a text. -/
def shown (text : List Char) : List Char :=
  shownAfter .plain text

/-- A text without control characters is shown as it is. -/
theorem shown_eq_self {text : List Char} (h : ∀ c ∈ text, isShown c = true) :
    shown text = text := by
  unfold shown
  induction text with
  | nil => rfl
  | cons c rest ih =>
    have hc : isShown c = true := h c (by simp)
    have hstep : Place.step .plain c = (true, .plain) := by
      have hescape : c ≠ escape := by rintro rfl; revert hc; decide
      have hbreak : breaksOff c = false := by
        by_cases hcan : c = '\x18'
        · subst hcan; revert hc; decide
        · by_cases hsub : c = '\x1A'
          · subst hsub; revert hc; decide
          · simp [breaksOff, hcan, hsub]
      simp [Place.step, hescape, hbreak, hc]
    rw [shownAfter, hstep]
    simp only [ih fun d hd => h d (by simp [hd])]

end Concatenative.Text
