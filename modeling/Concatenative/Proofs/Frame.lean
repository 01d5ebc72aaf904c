/-
The part of the stack that is not used.

Evaluation sees the stack from the top, and what lies below the values it takes makes no
difference to it. So a session with more values below (`Session.over`) goes the same way
and has these values below in the end. The one thing that more values can change is that
there are now enough: after an underflow nothing is said of the session that has more.

Everything is in the coupling of a stack with the stack over others (`Coupling.framed`),
where each operator and each rearrangement is seen to take its values from the top.
-/
import Concatenative.Proofs.Coupling

set_option autoImplicit false

namespace Concatenative

variable {α : Type}

/-! ## More values below -/

/-- The session with more values below those on its stack. -/
def Session.over (s : Session α) (below : List α) : Session α :=
  { s with stack := s.stack ++ below }

/-- What evaluation leads to with more values below: the same, and these values are below for
as long as nothing has failed. -/
structure Outcome.Over (below : List α) (o o' : Outcome α) : Prop where
  error : o'.error = o.error
  expansions : o'.expansions = o.expansions
  ok : o.error = none → o'.session = o.session.over below
  failed : o.error ≠ none → o'.session = o.session

namespace Coupling

variable [Arithmetic α]

omit [Arithmetic α] in
/-- After an underflow nothing is said about the stack over others. -/
theorem effectsAgree_of_underflow (below : List α) (effect : Except EvalError (List α)) :
    EffectsAgree (fun xs ys => ys = xs ++ below) (fun cause => cause = .stackUnderflow)
      (fun _ => False) (.error .stackUnderflow) effect := by
  cases effect with
  | ok ys => rfl
  | error cause => exact .inr (.inl rfl)

/-- A stack and the stack over others, up to an underflow of the first. -/
def framed (below : List α) : Coupling α α where
  matched xs ys := ys = xs ++ below
  stopsLeft cause := cause = .stackUnderflow
  stopsRight _ := False
  number := by
    rintro xs _ c rfl
    rfl
  operator := by
    rintro xs _ op rfl
    have hunder := effectsAgree_of_underflow below
    match xs with
    | [] => exact hunder _
    | [_] => exact hunder _
    | right :: left :: rest =>
      simp only [List.cons_append, Operator.effect]
      cases op.result left right with
      | ok value => rfl
      | error cause => exact .inl rfl
  shuffle := by
    rintro xs _ move rfl
    have hunder := effectsAgree_of_underflow below
    match move, xs with
    | .dup, [] => exact hunder _
    | .dup, _ :: _ => rfl
    | .drop, [] => exact hunder _
    | .drop, _ :: _ => rfl
    | .swap, [] => exact hunder _
    | .swap, [_] => exact hunder _
    | .swap, _ :: _ :: _ => rfl
    | .over, [] => exact hunder _
    | .over, [_] => exact hunder _
    | .over, _ :: _ :: _ => rfl

omit [Arithmetic α] in
theorem alike_over (s : Session α) (below : List α) :
    s.Alike (fun xs ys => ys = xs ++ below) (s.over below) :=
  ⟨rfl, rfl, rfl, rfl⟩

theorem over_of_alike {below : List α} {o o' : Outcome α}
    (h : o.Alike (framed below).matched o') : o.Over below o' where
  error := h.error
  expansions := h.expansions
  ok hok := by
    have hs := h.ok hok
    rw [hs.eq, hs.stack]
    rfl
  failed hfail := by
    have hs := h.failed hfail
    rw [hs.eq, hs.stack.2, ← hs.stack.1]

end Coupling

/-! ## Tokens in a row -/

/-- The outcomes of calls, each in the session that the one before has left, as one. A call
that fails is the last that counts. -/
def Outcome.row (s : Session α) : List (Outcome α) → Outcome α
  | [] => .start s
  | o :: rest =>
    match o.error with
    | none => o.followedBy (row o.session rest)
    | some _ => o

namespace Session

variable [Arithmetic α]

/-- The outcomes of tokens that are fed one after the other, one for each up to the first
that fails. -/
def calls (patience : Nat) (s : Session α) : List Token → Option (List (Outcome α))
  | [] => some []
  | token :: rest =>
    (s.evalToken patience token).bind fun o =>
      match o.error with
      | none => (o.session.calls patience rest).map (o :: ·)
      | some _ => some [o]

/-- Feeding tokens leads to what the single calls lead to, one followed by the other. -/
theorem feed_eq_calls (s : Session α) (patience : Nat) (tokens : List Token) :
    s.feed patience tokens = (s.calls patience tokens).map (Outcome.row s) := by
  induction tokens generalizing s with
  | nil => rfl
  | cons token rest ih =>
    rw [feed, Outcome.sequence_cons, calls]
    cases s.evalToken patience token with
    | none => rfl
    | some o =>
      obtain ⟨session, error, expansions, log⟩ := o
      cases error with
      | some cause => simp [Outcome.andThen, Outcome.row]
      | none =>
        have hrest := ih session
        rw [feed] at hrest
        simp only [Option.bind_some, Outcome.andThen, hrest, Option.map_map]
        rfl

/-- If one of the calls has failed, so has the feeding, and for the same cause. -/
theorem error_row_of_mem {s : Session α} {patience : Nat} {tokens : List Token}
    {outcomes : List (Outcome α)} (h : s.calls patience tokens = some outcomes) {o : Outcome α}
    (ho : o ∈ outcomes) (hfail : o.error ≠ none) : (Outcome.row s outcomes).error = o.error := by
  induction tokens generalizing s outcomes with
  | nil =>
    cases h
    cases ho
  | cons token rest ih =>
    obtain ⟨first, -, hcalls⟩ := Option.bind_eq_some_iff.1 h
    cases herror : first.error with
    | some cause =>
      simp only [herror, Option.some.injEq] at hcalls
      subst hcalls
      obtain rfl := List.mem_singleton.1 ho
      simp only [Outcome.row, herror]
    | none =>
      simp only [herror] at hcalls
      obtain ⟨others, hothers, rfl⟩ := Option.map_eq_some_iff.1 hcalls
      rcases List.mem_cons.1 ho with rfl | hmem
      · exact absurd herror hfail
      · simp only [Outcome.row, herror, Outcome.followedBy]
        exact ih hothers hmem

end Session

/-! ## Evaluation with more values below -/

/-- As long as nothing underflows, a run with more values below goes the same way. -/
theorem Run.complete_over [Arithmetic α] {s : Session α} {token : Token} {steps : Nat}
    (hdeep : ¬ (Run.start s token).FailsWithin (fun cause => cause = .stackUnderflow) steps)
    (below : List α) :
    Option.Rel (Outcome.Over below) ((Run.start s token).complete steps)
      ((Run.start (s.over below) token).complete steps) :=
  rel_mono (fun _ _ => Coupling.over_of_alike)
    (Coupling.complete (c := .framed below) (Coupling.alike_over s below) token hdeep
      fun ⟨_, _, _, _, hfalse⟩ => hfalse)

namespace Outcome

theorem Over.row {s : Session α} {below : List α} {outcomes outcomes' : List (Outcome α)}
    (h : List.Forall₂ (Over below) outcomes outcomes') :
    (Outcome.row s outcomes).Over below (Outcome.row (s.over below) outcomes') := by
  induction h generalizing s with
  | nil => exact ⟨rfl, rfl, fun _ => rfl, fun hfail => absurd rfl hfail⟩
  | @cons o o' _ _ ho _ ih =>
    cases herror : o.error with
    | some cause =>
      simp only [Outcome.row, ho.error, herror]
      exact ho
    | none =>
      have hrest := ih (s := o.session)
      simp only [Outcome.row, ho.error, herror, ho.ok herror]
      exact ⟨hrest.error, congrArg₂ (· + ·) ho.expansions hrest.expansions, hrest.ok,
        hrest.failed⟩

end Outcome

namespace Session

variable [Arithmetic α] {s : Session α} {patience : Nat}

theorem evalToken_over {token : Token}
    (hdeep : ∀ o, s.evalToken patience token = some o → o.error ≠ some .stackUnderflow)
    (below : List α) :
    Option.Rel (Outcome.Over below) (s.evalToken patience token)
      ((s.over below).evalToken patience token) := by
  refine Run.complete_over ?_ below
  rintro ⟨o, ho, cause, herror, rfl⟩
  exact hdeep o ho herror

theorem calls_over {tokens : List Token}
    (hdeep : ∀ outcomes, s.calls patience tokens = some outcomes →
      ∀ o ∈ outcomes, o.error ≠ some .stackUnderflow) (below : List α) :
    Option.Rel (List.Forall₂ (Outcome.Over below)) (s.calls patience tokens)
      ((s.over below).calls patience tokens) := by
  induction tokens generalizing s with
  | nil => exact .some .nil
  | cons token rest ih =>
    have hfirst : Option.Rel (Outcome.Over below) (s.evalToken patience token)
        ((s.over below).evalToken patience token) := by
      refine evalToken_over (fun o ho herror => ?_) below
      refine hdeep [o] ?_ o List.mem_cons_self herror
      simp only [calls, ho, Option.bind_some, herror]
    rw [calls, calls]
    refine rel_bind hfirst fun o o' heval ho => ?_
    rw [ho.error]
    cases herror : o.error with
    | some cause => exact .some (.cons ho .nil)
    | none =>
      simp only [ho.ok herror]
      refine rel_map (ih fun outcomes houtcomes other hother => ?_) fun _ _ hall => .cons ho hall
      refine hdeep (o :: outcomes) ?_ other (List.mem_cons_of_mem _ hother)
      simp only [calls, heval, Option.bind_some, herror, houtcomes, Option.map_some]

end Session

/-- **Evaluation leaves alone what lies below.** Take tokens that are fed one by one until
one fails, once to a session and once to the same session with more values below. As long
as the first does not run out of values, the calls correspond one by one: they take the
same number of expansions and fail for the same cause or not at all; after a call that does
not fail the sessions are the same but for the values below, and after one that fails they
are the same. So the same holds of the tokens as a whole, and if the first feeding has no
end, neither has the second. -/
theorem values_below_untouched [Arithmetic α] (s : Session α) (below : List α)
    (tokens : List Token) (patience : Nat) :
    (∀ outcomes, s.calls patience tokens = some outcomes →
      (∀ o ∈ outcomes, o.error ≠ some .stackUnderflow) →
        ∃ outcomes', (s.over below).calls patience tokens = some outcomes'
          ∧ List.Forall₂ (Outcome.Over below) outcomes outcomes')
    ∧ (∀ o, s.feed patience tokens = some o → o.error ≠ some .stackUnderflow →
        ∃ o', (s.over below).feed patience tokens = some o' ∧ o.Over below o')
    ∧ (s.feed patience tokens = none → (s.over below).feed patience tokens = none) := by
  rw [Session.feed_eq_calls, Session.feed_eq_calls]
  have hrow : ∀ outcomes, s.calls patience tokens = some outcomes →
      (∀ o ∈ outcomes, o.error ≠ some .stackUnderflow) →
        ∃ outcomes', (s.over below).calls patience tokens = some outcomes'
          ∧ List.Forall₂ (Outcome.Over below) outcomes outcomes' := by
    intro outcomes h hdeep
    have hover := Session.calls_over (fun _ h' => Option.some.inj (h.symm.trans h') ▸ hdeep) below
    exact exists_of_rel_some (h ▸ hover)
  refine ⟨hrow, fun o h hdeep => ?feed, fun h => ?endless⟩
  case feed =>
    obtain ⟨outcomes, houtcomes, rfl⟩ := Option.map_eq_some_iff.1 h
    have hcalls : ∀ o ∈ outcomes, o.error ≠ some .stackUnderflow := by
      intro o ho herror
      refine hdeep ?_
      rw [Session.error_row_of_mem houtcomes ho (by rw [herror]; exact Option.some_ne_none _),
        herror]
    obtain ⟨outcomes', houtcomes', hall⟩ := hrow outcomes houtcomes hcalls
    exact ⟨_, by rw [houtcomes', Option.map_some], Outcome.Over.row hall⟩
  case endless =>
    rw [Option.map_eq_none_iff] at h ⊢
    have hover := Session.calls_over (fun _ h' => nomatch h.symm.trans h') below
    exact eq_none_of_rel (h ▸ hover)

/-- Squaring three above seven leaves nine above seven; after a word that divides by zero
there is nothing left, with or without the seven. -/
theorem values_below_untouched_square :
    let s : Session Cell :=
      ((Session.new .plain).define "sq" ["dup", "*"]).define "inv" ["0", "/"]
    let seven : Cell := ⟨7, by decide, by decide⟩
    (∃ o o', s.feed 6 ["3", "sq"] = some o ∧ (s.over [seven]).feed 6 ["3", "sq"] = some o'
      ∧ o.Over [seven] o' ∧ o'.error = none ∧ o'.session.stack.map Cell.val = [9, 7])
    ∧ ∃ outcomes outcomes', s.calls 6 ["3", "inv", "sq"] = some outcomes
      ∧ (s.over [seven]).calls 6 ["3", "inv", "sq"] = some outcomes'
      ∧ List.Forall₂ (Outcome.Over [seven]) outcomes outcomes'
      ∧ outcomes.map Outcome.error = [none, some (.arithmetic .divisionByZero)] := by
  intro s seven
  constructor
  · obtain ⟨o', ho', hover⟩ := (values_below_untouched s [seven] ["3", "sq"] 6).2.1 _ rfl
      (Option.some_ne_none _).symm
    have hvalues : ((s.over [seven]).feed 6 ["3", "sq"]).map
        (fun o => o.session.stack.map Cell.val) = some [9, 7] := by decide +kernel
    rw [ho'] at hvalues
    exact ⟨_, o', rfl, ho', hover, hover.error, Option.some.inj hvalues⟩
  · obtain ⟨outcomes', houtcomes', hall⟩ :=
      (values_below_untouched s [seven] ["3", "inv", "sq"] 6).1 _ rfl (by decide)
    exact ⟨_, outcomes', rfl, houtcomes', hall, rfl⟩

end Concatenative
