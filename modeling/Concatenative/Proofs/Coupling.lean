/-
Sessions that differ in their stacks.

Evaluation looks at the stack in two places only: a number is put on it, and a keyword
makes something of it. So to compare sessions that differ in nothing but their stacks one
has to say how the stacks correspond, and to show that these two places keep it so. That is
a `Coupling`, and `Coupling.lockstep` makes of it a comparison of runs. If the stacks are to
correspond value by value, numbers and operators are all that is left to be looked at
(`Coupling.pointwise`).
-/
import Concatenative.Proofs.Lockstep

set_option autoImplicit false

namespace Concatenative

variable {α β : Type}

/-! ## What keywords make of a stack -/

/-- What an operator makes of its operands, or why it fails. -/
def Operator.result [Arithmetic α] (op : Operator) (left right : α) : Except EvalError α :=
  (Arithmetic.calculate op left right).mapError .arithmetic

/-- The stack after an operator, or why there is none. -/
def Operator.effect [Arithmetic α] (op : Operator) : List α → Except EvalError (List α)
  | right :: left :: rest => (op.result left right).map (· :: rest)
  | _ => .error .stackUnderflow

/-- The stack after a rearrangement, or why there is none. -/
def Shuffle.effect (move : Shuffle) (stack : List α) : Except EvalError (List α) :=
  match move.apply stack with
  | some stack => .ok stack
  | none => .error .stackUnderflow

namespace Session

/-- What becomes of a token whose effect on the stack is known. -/
def take (s : Session α) : Except EvalError (List α) → Step α
  | .ok stack => .settled { s with stack := stack } []
  | .error cause => .failure cause

theorem execute_shuffle [Arithmetic α] (s : Session α) (move : Shuffle) :
    s.execute (.shuffle move) = s.take (move.effect s.stack) := by
  rw [execute, Shuffle.effect]
  cases move.apply s.stack <;> rfl

theorem execute_operator [Arithmetic α] (s : Session α) (op : Operator) :
    s.execute (.operator op) = s.take (op.effect s.stack) := by
  rw [execute, calculate]
  rcases s.stack with _ | ⟨right, _ | ⟨left, rest⟩⟩
  · rfl
  · rfl
  · simp only [Operator.effect, Operator.result]
    cases Arithmetic.calculate op left right <;> rfl

/-- Two sessions that have everything in common but their stacks, which correspond. -/
structure Alike (matched : List α → List β → Prop) (s : Session α) (s' : Session β) : Prop where
  stack : matched s.stack s'.stack
  dictionary : s'.dictionary = s.dictionary
  mode : s'.mode = s.mode
  settings : s'.settings = s.settings

theorem Alike.eq {matched : List α → List β → Prop} {s : Session α} {s' : Session β}
    (h : s.Alike matched s') : s' = ⟨s.dictionary, s'.stack, s.mode, s.settings⟩ := by
  rw [← h.dictionary, ← h.mode, ← h.settings]

end Session

/-! ## Couplings -/

/-- Two results correspond, or one of them ends the comparison. -/
def EffectsAgree {γ δ : Type} (matched : γ → δ → Prop) (stopsLeft stopsRight : EvalError → Prop) :
    Except EvalError γ → Except EvalError δ → Prop
  | .ok x, .ok y => matched x y
  | .ok _, .error cause => stopsRight cause
  | .error cause, .ok _ => stopsLeft cause
  | .error cause, .error cause' => cause' = cause ∨ stopsLeft cause ∨ stopsRight cause'

/-- A correspondence of stacks that numbers and keywords keep, unless one side fails in a
way that ends the comparison. -/
structure Coupling (α β : Type) [Arithmetic α] [Arithmetic β] where
  /-- The stacks that correspond. -/
  matched : List α → List β → Prop
  /-- The failures of the first side that end the comparison. -/
  stopsLeft : EvalError → Prop
  /-- The failures of the second side that end the comparison. -/
  stopsRight : EvalError → Prop
  number : ∀ {xs : List α} {ys : List β} (c : Cell), matched xs ys →
    matched (Arithmetic.ofCell c :: xs) (Arithmetic.ofCell c :: ys)
  operator : ∀ {xs : List α} {ys : List β} (op : Operator), matched xs ys →
    EffectsAgree matched stopsLeft stopsRight (op.effect xs) (op.effect ys)
  shuffle : ∀ {xs : List α} {ys : List β} (move : Shuffle), matched xs ys →
    EffectsAgree matched stopsLeft stopsRight (move.effect xs) (move.effect ys)

namespace Coupling

variable [Arithmetic α] [Arithmetic β] (c : Coupling α β)

/-- What two sessions make of a token corresponds, or one of them ends the comparison. -/
def StepsAgree (step : Step α) (step' : Step β) : Prop :=
  Step.Alike (Session.Alike c.matched) Eq Eq step step'
    ∨ step.FailsBy c.stopsLeft ∨ step'.FailsBy c.stopsRight

variable {c}

theorem stepsAgree_take {s : Session α} {s' : Session β} (hs : s.Alike c.matched s')
    {effect : Except EvalError (List α)} {effect' : Except EvalError (List β)}
    (h : EffectsAgree c.matched c.stopsLeft c.stopsRight effect effect') :
    c.StepsAgree (s.take effect) (s'.take effect') := by
  match effect, effect', h with
  | .ok _, .ok _, h => exact .inl (.settled ⟨h, hs.dictionary, hs.mode, hs.settings⟩)
  | .ok _, .error cause, h => exact .inr (.inr ⟨cause, rfl, h⟩)
  | .error cause, .ok _, h => exact .inr (.inl ⟨cause, rfl, h⟩)
  | .error cause, .error _, .inl h => exact .inl (.failure h.symm)
  | .error cause, .error _, .inr (.inl h) => exact .inr (.inl ⟨cause, rfl, h⟩)
  | .error _, .error cause, .inr (.inr h) => exact .inr (.inr ⟨cause, rfl, h⟩)

theorem stepsAgree_execute {s : Session α} {s' : Session β} (hs : s.Alike c.matched s')
    (k : Keyword) : c.StepsAgree (s.execute k) (s'.execute k) := by
  match k with
  | .operator op =>
    rw [Session.execute_operator, Session.execute_operator]
    exact stepsAgree_take hs (c.operator op hs.stack)
  | .shuffle move =>
    rw [Session.execute_shuffle, Session.execute_shuffle]
    exact stepsAgree_take hs (c.shuffle move hs.stack)
  | .openDefinition => exact .inl (.settled ⟨hs.stack, hs.dictionary, rfl, hs.settings⟩)
  | .closeDefinition => exact .inl (.failure rfl)

theorem stepsAgree_interpret {s : Session α} {s' : Session β} (hs : s.Alike c.matched s')
    (token : Token) : c.StepsAgree (s.interpret token) (s'.interpret token) := by
  have hget : s'.dictionary.get? token = s.dictionary.get? token := by rw [hs.dictionary]
  unfold Session.interpret
  rw [hget]
  split
  · exact .inl (.expansion (List.forall₂_same.2 fun _ _ => rfl))
  · split
    · exact .inl (.settled ⟨c.number _ hs.stack, hs.dictionary, hs.mode, hs.settings⟩)
    · split
      · exact stepsAgree_execute hs _
      · exact .inl (.failure rfl)

/-- Sessions that differ in their stacks treat a token alike. -/
theorem stepsAgree_dispatch {s : Session α} {s' : Session β} (hs : s.Alike c.matched s')
    (token : Token) : c.StepsAgree (s.dispatch token) (s'.dispatch token) := by
  unfold Session.dispatch
  rw [hs.mode]
  split
  · exact stepsAgree_interpret hs token
  · exact .inl (.settled ⟨hs.stack, hs.dictionary, rfl, hs.settings⟩)
  · split
    · refine .inl (.settled ⟨hs.stack, ?_, rfl, hs.settings⟩)
      simp only [Session.define, hs.dictionary]
    · exact .inl (.settled ⟨hs.stack, hs.dictionary, rfl, hs.settings⟩)

variable (c)

/-- The coupling, with the correspondence of stacks said in another way. -/
def rephrase (matched : List α → List β → Prop)
    (h : ∀ xs ys, matched xs ys ↔ c.matched xs ys) : Coupling α β where
  matched := matched
  stopsLeft := c.stopsLeft
  stopsRight := c.stopsRight
  number := by
    obtain rfl : matched = c.matched := funext₂ fun xs ys => propext (h xs ys)
    exact c.number
  operator := by
    obtain rfl : matched = c.matched := funext₂ fun xs ys => propext (h xs ys)
    exact c.operator
  shuffle := by
    obtain rfl : matched = c.matched := funext₂ fun xs ys => propext (h xs ys)
    exact c.shuffle

/-- A coupling of stacks as a comparison of runs. -/
def lockstep : Lockstep α β where
  sessions := Session.Alike c.matched
  tokens := Eq
  causes := Eq
  stopsLeft := c.stopsLeft
  stopsRight := c.stopsRight
  limit_eq hs := congrArg Settings.maxExpansions hs.settings
  exceeded _ _ := rfl
  dispatch hs ht := ht ▸ stepsAgree_dispatch hs _

end Coupling

/-! ## Value by value -/

/-- A result on top of stacks that correspond. -/
theorem EffectsAgree.onTop {R : α → β → Prop} {stopsLeft stopsRight : EvalError → Prop}
    {x : Except EvalError α} {y : Except EvalError β} (h : EffectsAgree R stopsLeft stopsRight x y)
    {xs : List α} {ys : List β} (hrest : List.Forall₂ R xs ys) :
    EffectsAgree (List.Forall₂ R) stopsLeft stopsRight (x.map (· :: xs)) (y.map (· :: ys)) := by
  match x, y, h with
  | .ok _, .ok _, h => exact .cons h hrest
  | .ok _, .error _, h => exact h
  | .error _, .ok _, h => exact h
  | .error _, .error _, h => exact h

/-- Rearrangements move values and do not look at them. -/
theorem Shuffle.effectsAgree {R : α → β → Prop} (stopsLeft stopsRight : EvalError → Prop)
    (move : Shuffle) {xs : List α} {ys : List β} (h : List.Forall₂ R xs ys) :
    EffectsAgree (List.Forall₂ R) stopsLeft stopsRight (move.effect xs) (move.effect ys) := by
  match move, h with
  | .dup, .nil => exact .inl rfl
  | .dup, .cons ha hrest => exact .cons ha (.cons ha hrest)
  | .drop, .nil => exact .inl rfl
  | .drop, .cons _ hrest => exact hrest
  | .swap, .nil => exact .inl rfl
  | .swap, .cons _ .nil => exact .inl rfl
  | .swap, .cons hb (.cons ha hrest) => exact .cons ha (.cons hb hrest)
  | .over, .nil => exact .inl rfl
  | .over, .cons _ .nil => exact .inl rfl
  | .over, .cons hb (.cons ha hrest) => exact .cons ha (.cons hb (.cons ha hrest))

/-- A correspondence of values that numbers and operators keep, as one of stacks. -/
def Coupling.pointwise [Arithmetic α] [Arithmetic β] (R : α → β → Prop)
    (stopsLeft stopsRight : EvalError → Prop)
    (hnumber : ∀ c : Cell, R (Arithmetic.ofCell c) (Arithmetic.ofCell c))
    (hoperator : ∀ (op : Operator) {left right : α} {left' right' : β}, R left left' →
      R right right' →
        EffectsAgree R stopsLeft stopsRight (op.result left right) (op.result left' right')) :
    Coupling α β where
  matched := List.Forall₂ R
  stopsLeft := stopsLeft
  stopsRight := stopsRight
  number c h := .cons (hnumber c) h
  operator op h := by
    match h with
    | .nil => exact .inl rfl
    | .cons _ .nil => exact .inl rfl
    | .cons hright (.cons hleft hrest) => exact (hoperator op hleft hright).onTop hrest
  shuffle move h := move.effectsAgree stopsLeft stopsRight h

/-! ## Outcomes -/

/-- Two outcomes that have everything in common but their stacks, which correspond as long as
nothing has failed, and their logs. -/
structure Outcome.Alike (matched : List α → List β → Prop) (o : Outcome α) (o' : Outcome β) :
    Prop where
  error : o'.error = o.error
  expansions : o'.expansions = o.expansions
  ok : o.error = none → o.session.Alike matched o'.session
  failed : o.error ≠ none → o.session.Alike (fun xs ys => xs = [] ∧ ys = []) o'.session

namespace Coupling

variable [Arithmetic α] [Arithmetic β] {c : Coupling α β}

theorem outcome_alike {o : Outcome α} {o' : Outcome β} (h : c.lockstep.Outcomes o o') :
    o.Alike c.matched o' where
  error := eq_of_rel h.error
  expansions := h.expansions
  ok := h.ok
  failed hfail := by
    obtain ⟨s, s', hs, ho, ho'⟩ := h.failed hfail
    rw [ho, ho']
    exact ⟨⟨rfl, rfl⟩, hs.dictionary, rfl, hs.settings⟩

theorem complete {s : Session α} {s' : Session β} (hs : s.Alike c.matched s') (token : Token)
    {steps : Nat} (hleft : ¬ (Run.start s token).FailsWithin c.stopsLeft steps)
    (hright : ¬ (Run.start s' token).FailsWithin c.stopsRight steps) :
    Option.Rel (Outcome.Alike c.matched) ((Run.start s token).complete steps)
      ((Run.start s' token).complete steps) :=
  rel_mono (fun _ _ => outcome_alike)
    (Lockstep.complete (Lockstep.runs_start (l := c.lockstep) hs (Eq.refl token)) hleft hright)

/-- The runs dispatch the same tokens, on stacks that correspond. -/
theorem dispatches {s : Session α} {s' : Session β} (hs : s.Alike c.matched s') (token : Token)
    {steps : Nat} (hleft : ¬ (Run.start s token).FailsWithin c.stopsLeft steps)
    (hright : ¬ (Run.start s' token).FailsWithin c.stopsRight steps) :
    List.Forall₂ (fun d d' => d'.2 = d.2 ∧ c.matched d.1 d'.1)
      ((Run.start s token).dispatches (steps + 1))
      ((Run.start s' token).dispatches (steps + 1)) := by
  have hall := Lockstep.dispatches (Lockstep.runs_start (l := c.lockstep) hs (Eq.refl token))
    hleft hright
  refine hall.imp ?_
  rintro ⟨_, _⟩ ⟨_, _⟩ ⟨⟨_, _, hsessions, rfl, rfl⟩, rfl⟩
  exact ⟨rfl, hsessions.stack⟩

/-- Sessions that differ in their stacks are given the same number of steps. -/
theorem steps_eq {s : Session α} {s' : Session β} (hs : s.Alike c.matched s') (patience : Nat) :
    s'.steps patience = s.steps patience := by
  rw [Session.steps, Session.steps, hs.settings, hs.dictionary]

theorem evalToken {s : Session α} {s' : Session β} (hs : s.Alike c.matched s') {token : Token}
    {patience : Nat}
    (hleft : ∀ o, s.evalToken patience token = some o → ¬ o.FailsBy c.stopsLeft)
    (hright : ∀ o, s'.evalToken patience token = some o → ¬ o.FailsBy c.stopsRight) :
    Option.Rel (Outcome.Alike c.matched) (s.evalToken patience token)
      (s'.evalToken patience token) := by
  have hsteps := steps_eq hs patience
  rw [Session.evalToken, Session.evalToken, hsteps]
  rw [Session.evalToken, hsteps] at hright
  refine complete hs token ?_ ?_
  · rintro ⟨o, ho, hfails⟩
    exact hleft o ho hfails
  · rintro ⟨o, ho, hfails⟩
    exact hright o ho hfails

end Coupling

end Concatenative
