/-
What evaluation leads to, and how the outcomes of one thing after another add up.

The outcome of a sequence is built from the outcomes of its parts: the session is
that of the last part, counts are added and records are put in a row. A part that
fails is the last one that acts. `sequence_cons` and `sequence_append` say that it
makes no difference where a sequence is cut.
-/
import Concatenative.Session

set_option autoImplicit false

namespace Concatenative

/-! ## Outcomes -/

/-- What evaluation has led to. -/
structure Outcome (α : Type) where
  session : Session α
  /-- The failure that ended evaluation, if one did. -/
  error : Option EvalError
  /-- The number of words expanded, including one that exceeded the limit. -/
  expansions : Nat
  /-- The records kept, newest first. -/
  log : List (Record α)

namespace Outcome

variable {α : Type}

/-- Nothing has been evaluated yet. -/
def start (s : Session α) : Outcome α :=
  ⟨s, none, 0, []⟩

/-- The records kept, in the order in which they were made. -/
def records (o : Outcome α) : List (Record α) :=
  o.log.reverse

/-- One outcome and what followed it, seen as a whole. -/
def followedBy (first second : Outcome α) : Outcome α :=
  ⟨second.session, second.error, first.expansions + second.expansions, second.log ++ first.log⟩

/-- Goes on from the session reached, unless something has failed. -/
def andThen (o : Outcome α) (next : Session α → Option (Outcome α)) : Option (Outcome α) :=
  match o.error with
  | some _ => some o
  | none => (next o.session).map o.followedBy

@[simp] theorem start_followedBy (s : Session α) (o : Outcome α) :
    (start s).followedBy o = o := by
  simp [start, followedBy]

theorem followedBy_assoc (a b c : Outcome α) :
    (a.followedBy b).followedBy c = a.followedBy (b.followedBy c) := by
  simp [followedBy, Nat.add_assoc]

@[simp] theorem start_andThen (s : Session α) (next : Session α → Option (Outcome α)) :
    (start s).andThen next = next s := by
  show (next s).map (start s).followedBy = next s
  rw [show (start s).followedBy = id from funext fun o => start_followedBy s o, Option.map_id]
  rfl

/-- Going on with nothing changes nothing. -/
@[simp] theorem andThen_start (o : Outcome α) : o.andThen (fun s => some (start s)) = some o := by
  obtain ⟨session, error, expansions, log⟩ := o
  cases error <;> simp [andThen, followedBy, start]

theorem andThen_assoc (o : Outcome α) (f g : Session α → Option (Outcome α)) :
    (o.andThen f).bind (·.andThen g) = o.andThen fun s => (f s).bind (·.andThen g) := by
  obtain ⟨session, error, expansions, log⟩ := o
  cases error with
  | some cause => rfl
  | none =>
    simp only [andThen]
    cases f session with
    | none => rfl
    | some second =>
      obtain ⟨session₂, error₂, expansions₂, log₂⟩ := second
      cases error₂ with
      | some cause => rfl
      | none =>
        simp only [Option.map_some, Option.bind_some, followedBy, Option.map_map]
        congr 1
        funext third
        simp [followedBy, Nat.add_assoc]

/-- What going on has led to: to where it was, if something had failed, and else to
what followed. -/
theorem andThen_eq_some_iff {o o' : Outcome α} {next : Session α → Option (Outcome α)} :
    o.andThen next = some o'
      ↔ (o.error ≠ none ∧ o' = o)
        ∨ (o.error = none ∧ ∃ second, next o.session = some second ∧ o' = o.followedBy second) := by
  obtain ⟨session, error, expansions, log⟩ := o
  cases error with
  | some cause => simp [andThen, eq_comm]
  | none => simp [andThen, Option.map_eq_some_iff, eq_comm (a := o')]

/-! ## Sequences -/

/-- Lets the items of a list act on a session in turn, until one fails. -/
def sequence {β : Type} (act : Session α → β → Option (Outcome α)) (s : Session α)
    (items : List β) : Option (Outcome α) :=
  items.foldlM (fun o item => o.andThen (act · item)) (start s)

section

variable {β : Type} (act : Session α → β → Option (Outcome α))

/-- What the items of a list add to an outcome does not depend on how the outcome
came about. -/
theorem foldlM_andThen (o : Outcome α) (items : List β) :
    items.foldlM (fun o item => o.andThen (act · item)) o
      = o.andThen fun s => sequence act s items := by
  induction items generalizing o with
  | nil => exact (andThen_start o).symm
  | cons item rest ih =>
    have hcons : ∀ s, sequence act s (item :: rest)
        = (act s item).bind (·.andThen fun s => sequence act s rest) := by
      intro s
      rw [sequence, List.foldlM_cons, start_andThen]
      exact congrArg _ (funext fun o => ih o)
    rw [List.foldlM_cons, funext hcons, ← andThen_assoc]
    exact congrArg _ (funext fun o => ih o)

@[simp] theorem sequence_nil (s : Session α) : sequence act s [] = some (start s) := rfl

theorem sequence_cons (s : Session α) (item : β) (rest : List β) :
    sequence act s (item :: rest)
      = (act s item).bind (·.andThen fun s => sequence act s rest) := by
  rw [sequence, List.foldlM_cons, start_andThen]
  exact congrArg _ (funext fun o => foldlM_andThen act o rest)

/-- A list of items fails with the first that fails, and goes on otherwise. -/
theorem sequence_cons_eq_some_iff {s : Session α} {item : β} {rest : List β} {o : Outcome α} :
    sequence act s (item :: rest) = some o
      ↔ ∃ first, act s item = some first
        ∧ ((first.error ≠ none ∧ o = first)
          ∨ (first.error = none
            ∧ ∃ second, sequence act first.session rest = some second
              ∧ o = first.followedBy second)) := by
  simp only [sequence_cons, Option.bind_eq_some_iff, andThen_eq_some_iff]

theorem sequence_append (s : Session α) (first second : List β) :
    sequence act s (first ++ second)
      = (sequence act s first).bind (·.andThen fun s => sequence act s second) := by
  rw [sequence, List.foldlM_append]
  exact congrArg _ (funext fun o => foldlM_andThen act o second)

end

/-! ## Verdicts -/

/-- A whole source has come to this: the values it leaves, or what is wrong with
it. A definition that is still open is wrong at the end of the source only. -/
def verdict (o : Outcome Cell) : Except EvalError String :=
  match o.error with
  | some cause => .error cause
  | none =>
    match o.session.unclosed? with
    | some cause => .error cause
    | none => .ok o.session.render

end Outcome

end Concatenative
