/-
The evaluation of one token, step by step.

To evaluate a token is to keep a list of pending tokens, at first the token
alone, and to dispatch the first of them until none is left. A user word puts its
body in front of the list, so the words inside it are done before anything that
was pending behind it, however deeply words are nested.

Words may refer to themselves, so this need not end. `Run.advance` is one step,
and `Run.complete` takes a given number of them; its answer `none` means that they
were not enough, and never that something is wrong. More steps than enough make
no difference, which is `Run.complete_mono`.
-/
import Concatenative.Outcome

set_option autoImplicit false

namespace Concatenative

/-! ## Runs -/

/-- The evaluation of one token under way. -/
structure Run (α : Type) where
  session : Session α
  /-- What is still to be dispatched, next token first. -/
  pending : List Token
  /-- The number of words expanded so far. -/
  expansions : Nat
  /-- The records kept so far, newest first. -/
  log : List (Record α)

/-- What one step of a run leads to. -/
inductive Progress (α : Type) where
  | running (run : Run α)
  | ended (outcome : Outcome α)

namespace Run

variable {α : Type}

/-- The run that evaluates `token`. -/
def start (s : Session α) (token : Token) : Run α :=
  ⟨s, [token], 0, []⟩

/-- The run with records added to its log, as far as they are to be kept. -/
def note (r : Run α) (news : List (Record α)) : Run α :=
  { r with
    log := (news.filter fun item => r.session.settings.verbosity.admits item.level).reverse
      ++ r.log }

/-- The outcome of a run in which all is done. -/
def finish (r : Run α) : Outcome α :=
  ⟨r.session, none, r.expansions, r.log⟩

/-- The outcome of a run that fails. With the stack and the mode the list of pending
tokens is cleared, so that an outcome has no need of one. -/
def fail (r : Run α) (cause : EvalError) : Outcome α :=
  ⟨r.session.cleared, some cause, r.expansions, (r.note [.failed cause]).log⟩

/-- The run in which the body of a user word takes the place of the word, or its
failure if that is one expansion too many. -/
def expand (r : Run α) (word : Token) (body rest : List Token) : Progress α :=
  let next := { r with pending := body ++ rest, expansions := r.expansions + 1 }.note
    [.expanding word body]
  -- The expansion counts before it is allowed, so a limit of zero allows none.
  match r.session.settings.maxExpansions with
  | none => .running next
  | some limit =>
    if next.expansions ≤ limit then .running next
    else .ended (next.fail (.expansionLimit limit))

/-- Dispatches the first pending token. -/
def advance [Arithmetic α] (r : Run α) : Progress α :=
  match r.pending with
  | [] => .ended r.finish
  | token :: rest =>
    -- The record shows the stack as the token finds it.
    let r := r.note [.dispatched r.session.stack token]
    match r.session.dispatch token with
    | .settled session news =>
      .running { r.note news with session := session, pending := rest }
    | .expansion body => r.expand token body rest
    | .failure cause => .ended (r.fail cause)

/-- The outcome of a run if it ends within a number of steps. -/
def complete [Arithmetic α] : Nat → Run α → Option (Outcome α)
  | 0, _ => none
  | steps + 1, r =>
    match r.advance with
    | .ended outcome => some outcome
    | .running next => next.complete steps

/-- Steps beyond what a run needs change nothing. -/
theorem complete_mono [Arithmetic α] {fewer more : Nat} {r : Run α} {o : Outcome α}
    (h : r.complete fewer = some o) (hle : fewer ≤ more) : r.complete more = some o := by
  induction fewer generalizing r more with
  | zero => cases h
  | succ n ih =>
    obtain ⟨k, rfl⟩ := Nat.exists_eq_add_of_le' (Nat.le_trans (Nat.succ_le_succ n.zero_le) hle)
    unfold complete at h ⊢
    split
    · rename_i heq
      rw [heq] at h
      exact h
    · rename_i heq
      rw [heq] at h
      exact ih h (by omega)

end Run

end Concatenative
