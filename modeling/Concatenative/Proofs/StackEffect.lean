/-
Control flow does not look at values.

What a session does next is decided by the token, the mode, the dictionary and the number of
values on the stack; what the values are makes a difference to the results only. There is one
exception: an operator can have no result. So two sessions with stacks of the same height do
the same until that happens to one of them (`Coupling.sameHeight`).

Together with the values below, which are not looked at either, this gives every token one
required depth and one effect on the height of the stack. A stack that is deep enough stays
deep enough with more values below, and all stacks of one height are deep enough or none is.
-/
import Concatenative.Proofs.Frame
import Mathlib.Data.ENat.Basic

set_option autoImplicit false

namespace Concatenative

variable {α : Type}

/-! ## Stacks of the same height -/

/-- The two stacks hold the same number of values. -/
def SameHeight (xs ys : List α) : Prop :=
  ys.length = xs.length

/-- An operator had no result although both operands were there. -/
def EvalError.IsArithmetic (cause : EvalError) : Prop :=
  ∃ e, cause = .arithmetic e

/-- Whatever the operands, an operator leaves one value or fails for an arithmetic cause. -/
theorem Operator.result_alike [Arithmetic α] (op : Operator) (left right left' right' : α) :
    EffectsAgree (fun _ _ => True) EvalError.IsArithmetic EvalError.IsArithmetic
      (op.result left right) (op.result left' right') := by
  unfold Operator.result
  cases Arithmetic.calculate op left right with
  | ok value =>
    cases Arithmetic.calculate op left' right' with
    | ok value' => trivial
    | error e => exact ⟨e, rfl⟩
  | error e =>
    cases Arithmetic.calculate op left' right' with
    | ok value' => exact ⟨e, rfl⟩
    | error e' => exact .inr (.inl ⟨e, rfl⟩)

/-- Stacks of the same height, up to an operator without a result. -/
def Coupling.sameHeight [Arithmetic α] : Coupling α α :=
  (pointwise _ _ _ (fun _ => trivial) fun op left right left' right' _ _ =>
    op.result_alike left right left' right').rephrase SameHeight fun xs ys => by
      simp [SameHeight, pointwise, List.forall₂_iff_zip, eq_comm]

/-! ## Failing at all -/

namespace Session

variable [Arithmetic α] {kind : EvalError → Prop} {s s' : Session α} {token : Token}

/-- With patience enough the token fails, for a cause of the kind. -/
def Fails (kind : EvalError → Prop) (s : Session α) (token : Token) : Prop :=
  ∃ patience o, s.evalToken patience token = some o ∧ o.FailsBy kind

/-- A token has one outcome, whatever the patience. -/
theorem evalToken_functional {n m : Nat} {o o' : Outcome α} (h : s.evalToken n token = some o)
    (h' : s.evalToken m token = some o') : o' = o :=
  Run.complete_functional h' h

theorem fails_iff {patience : Nat} {o : Outcome α} (h : s.evalToken patience token = some o) :
    s.Fails kind token ↔ o.FailsBy kind := by
  constructor
  · rintro ⟨_, o', ho', hfails⟩
    exact evalToken_functional h ho' ▸ hfails
  · exact fun hfails => ⟨patience, o, h, hfails⟩

theorem not_fails_of_ok (patience : Nat) {o : Outcome α}
    (h : s.evalToken patience token = some o) (hok : o.error = none) :
    ¬ s.Fails kind token := by
  rw [fails_iff h]
  rintro ⟨cause, herror, -⟩
  cases hok.symm.trans herror

/-- Sessions whose outcomes have the same errors fail alike. -/
theorem fails_congr {R : Outcome α → Outcome α → Prop}
    (herror : ∀ o o', R o o' → o'.error = o.error)
    (h : ∀ patience, Option.Rel R (s.evalToken patience token) (s'.evalToken patience token)) :
    s'.Fails kind token ↔ s.Fails kind token := by
  refine exists_congr fun patience => ?_
  have hrel := h patience
  generalize s.evalToken patience token = x, s'.evalToken patience token = y at hrel ⊢
  cases hrel with
  | none => simp
  | some hR => simp [Outcome.FailsBy, herror _ _ hR]

theorem fails_sameHeight (hs : s.Alike SameHeight s')
    (hfree : ¬ s.Fails EvalError.IsArithmetic token)
    (hfree' : ¬ s'.Fails EvalError.IsArithmetic token) :
    s'.Fails kind token ↔ s.Fails kind token :=
  fails_congr (fun _ _ h => h.error) fun patience => Coupling.evalToken (c := .sameHeight) hs
    (fun o ho hfails => hfree ⟨patience, o, ho, hfails⟩)
    fun o ho hfails => hfree' ⟨patience, o, ho, hfails⟩

theorem fails_over (hdeep : ¬ s.Fails (· = .stackUnderflow) token) (below : List α) :
    (s.over below).Fails kind token ↔ s.Fails kind token :=
  fails_congr (fun _ _ h => h.error) fun patience =>
    evalToken_over (fun o ho herror => hdeep ⟨patience, o, ho, _, herror, rfl⟩) below

end Session

/-! ## Deep enough -/

/-- From some number on, or never: that is what properties that go over to larger numbers
hold for. -/
theorem exists_threshold {P : ℕ → Prop} (hP : ∀ m n, m ≤ n → P m → P n) :
    ∃ threshold : ℕ∞, ∀ n : ℕ, (n : ℕ∞) < threshold ↔ ¬ P n := by
  classical
  by_cases h : ∃ n, P n
  · refine ⟨(Nat.find h : ℕ∞), fun n => ?_⟩
    rw [Nat.cast_lt, Nat.lt_find_iff]
    exact ⟨fun hnone => hnone n le_rfl, fun hn m hmn hm => hn (hP m n hmn hm)⟩
  · exact ⟨⊤, fun n => ⟨fun _ hn => h ⟨n, hn⟩, fun _ => ENat.natCast_lt_top n⟩⟩

/-- The session with other values on its stack. -/
def Session.withStack (s : Session α) (stack : List α) : Session α :=
  { s with stack := stack }

namespace Session

variable [Arithmetic α] {s : Session α} {token : Token}

omit [Arithmetic α] in
theorem withStack_alike {xs ys : List α} (h : SameHeight xs ys) :
    (s.withStack xs).Alike SameHeight (s.withStack ys) :=
  ⟨h, rfl, rfl, rfl⟩

/-- There are values enough for the token, and each operator has a result. -/
def Suffices (s : Session α) (token : Token) : Prop :=
  ¬ s.Fails (· = .stackUnderflow) token ∧ ¬ s.Fails EvalError.IsArithmetic token

theorem Suffices.over (h : s.Suffices token) (below : List α) : (s.over below).Suffices token :=
  ⟨mt (fails_over h.1 below).1 h.1, mt (fails_over h.1 below).1 h.2⟩

/-- There is a stack of the given height that suffices. -/
def EnoughOf (s : Session α) (token : Token) (height : ℕ) : Prop :=
  ∃ stack, stack.length = height ∧ (s.withStack stack).Suffices token

/-- A stack can be filled up from below to any height. -/
theorem exists_filling (stack : List α) {height : ℕ} (h : stack.length ≤ height) :
    ∃ below, (stack ++ below).length = height := by
  refine ⟨List.replicate (height - stack.length)
    (Arithmetic.ofCell ⟨0, by decide, by decide⟩), ?_⟩
  rw [List.length_append, List.length_replicate]
  omega

theorem EnoughOf.mono {lower higher : ℕ} (h : s.EnoughOf token lower) (hle : lower ≤ higher) :
    s.EnoughOf token higher := by
  obtain ⟨stack, rfl, hsuffices⟩ := h
  obtain ⟨below, hheight⟩ := exists_filling stack hle
  exact ⟨stack ++ below, hheight, hsuffices.over below⟩

/-- A stack on which the operators have results is deep enough if any stack of its height
is. -/
theorem underflows_iff {stack : List α}
    (hfree : ¬ (s.withStack stack).Fails EvalError.IsArithmetic token) :
    (s.withStack stack).Fails (· = .stackUnderflow) token
      ↔ ¬ s.EnoughOf token stack.length := by
  constructor
  · rintro hunder ⟨other, hheight, hdeep, hfree'⟩
    exact hdeep ((fails_sameHeight (withStack_alike hheight) hfree hfree').2 hunder)
  · intro hnever
    by_contra hdeep
    exact hnever ⟨stack, rfl, hdeep, hfree⟩

/-! ## One effect on the height -/

/-- Two calls without failure add as much to the one stack as to the other. -/
theorem heights_agree {xs ys : List α} (hle : xs.length ≤ ys.length) {n m : Nat}
    {o o' : Outcome α} (ho : (s.withStack xs).evalToken n token = some o)
    (ho' : (s.withStack ys).evalToken m token = some o') (hok : o.error = none)
    (hok' : o'.error = none) :
    o.session.stack.length + (ys.length - xs.length) = o'.session.stack.length := by
  obtain ⟨below, hheight⟩ := exists_filling xs hle
  have hdeep : ∀ o₁, (s.withStack xs).evalToken n token = some o₁ →
      o₁.error ≠ some .stackUnderflow := by
    intro o₁ h₁ herror
    rw [evalToken_functional ho h₁, hok] at herror
    cases herror
  -- The lower of the two stacks is filled up, and then it is as high as the other one.
  obtain ⟨filled, hfilled, hover⟩ := exists_of_rel_some (ho ▸ evalToken_over hdeep below)
  have hfilledok : filled.error = none := hover.error.trans hok
  have hsame : Option.Rel (Outcome.Alike SameHeight)
      ((s.withStack (xs ++ below)).evalToken (max n m) token)
      ((s.withStack ys).evalToken (max n m) token) := by
    refine Coupling.evalToken (c := .sameHeight) (withStack_alike hheight.symm)
      (fun o₁ h₁ hfails => ?_) fun o₁ h₁ hfails => ?_
    · exact not_fails_of_ok _ hfilled hfilledok ⟨_, o₁, h₁, hfails⟩
    · exact not_fails_of_ok _ ho' hok' ⟨_, o₁, h₁, hfails⟩
  have hfilledmax : (s.withStack (xs ++ below)).evalToken (max n m) token = some filled :=
    evalToken_mono hfilled (Nat.le_max_left n m)
  rw [hfilledmax, evalToken_mono ho' (Nat.le_max_right n m)] at hsame
  obtain ⟨_, heq, halike⟩ := exists_of_rel_some hsame
  have hstack : o'.session.stack.length = filled.session.stack.length :=
    Option.some.inj heq ▸ (halike.ok hfilledok).stack
  rw [hstack, hover.ok hok, ← hheight]
  simp [Session.over]

/-- The calls of a token that do not fail all have one effect on the height. -/
theorem exists_effect (s : Session α) (token : Token) :
    ∃ effect : ℤ, ∀ (stack : List α) (patience : Nat) (o : Outcome α),
      (s.withStack stack).evalToken patience token = some o → o.error = none →
        (o.session.stack.length : ℤ) = stack.length + effect := by
  by_cases h : ∃ xs n o, (s.withStack xs).evalToken n token = some o ∧ o.error = none
  · obtain ⟨xs, n, o, ho, hok⟩ := h
    refine ⟨o.session.stack.length - xs.length, fun ys m o' ho' hok' => ?_⟩
    rcases le_total xs.length ys.length with hle | hle
    · have := heights_agree hle ho ho' hok hok'
      omega
    · have := heights_agree hle ho' ho hok' hok
      omega
  · exact ⟨0, fun xs n o ho hok => absurd ⟨xs, n, o, ho, hok⟩ h⟩

end Session

/-- **What happens does not depend on the values.** Take two sessions that have everything in
common but their stacks, and these hold the same number of values. Given the same token they
dispatch the same tokens on stacks of the same height, up to and including the first at which
an operator has no result on one of the sides. If this does not happen, both calls return or
neither does, and the outcomes have the same error, the same number of expansions and sessions
that again differ in nothing but the values. So for a given dictionary, mode and limit every
token requires one depth and has one effect on the height: whatever the values on a stack, as
long as operators have results on it, the token underflows if and only if the stack is lower
than that depth, and a call that does not fail changes the height by that effect. -/
theorem control_ignores_values [Arithmetic α] :
    (∀ (s s' : Session α), s.Alike SameHeight s' → ∀ token : Token,
      (∀ steps, ¬ (Run.start s token).FailsWithin EvalError.IsArithmetic steps →
        ¬ (Run.start s' token).FailsWithin EvalError.IsArithmetic steps →
          List.Forall₂ (fun d d' => d'.2 = d.2 ∧ SameHeight d.1 d'.1)
            ((Run.start s token).dispatches (steps + 1))
            ((Run.start s' token).dispatches (steps + 1)))
      ∧ (¬ s.Fails EvalError.IsArithmetic token → ¬ s'.Fails EvalError.IsArithmetic token →
          ∀ patience, Option.Rel (Outcome.Alike SameHeight) (s.evalToken patience token)
            (s'.evalToken patience token)))
    ∧ ∀ (s : Session α) (token : Token), ∃ (depth : ℕ∞) (effect : ℤ), ∀ stack : List α,
        (¬ (s.withStack stack).Fails EvalError.IsArithmetic token →
          ((s.withStack stack).Fails (· = .stackUnderflow) token
            ↔ (stack.length : ℕ∞) < depth))
        ∧ ∀ patience o, (s.withStack stack).evalToken patience token = some o →
            o.error = none → (o.session.stack.length : ℤ) = stack.length + effect := by
  refine ⟨fun s s' hs token => ⟨fun steps => ?together, fun hfree hfree' patience => ?outcomes⟩,
    fun s token => ?effect⟩
  case together => exact Coupling.dispatches (c := .sameHeight) hs token
  case outcomes =>
    exact Coupling.evalToken (c := .sameHeight) hs
      (fun o ho hfails => hfree ⟨patience, o, ho, hfails⟩)
      fun o ho hfails => hfree' ⟨patience, o, ho, hfails⟩
  case effect =>
    obtain ⟨depth, hdepth⟩ := exists_threshold (P := s.EnoughOf token)
      fun _ _ hle h => h.mono hle
    obtain ⟨effect, heffect⟩ := Session.exists_effect s token
    refine ⟨depth, effect, fun stack => ⟨fun hfree => ?_, heffect stack⟩⟩
    rw [hdepth]
    exact Session.underflows_iff hfree

/-- The mean of two values is one effect, whatever the values: it requires two of them and
leaves one. A reciprocal takes the same way up to the division, also that of zero. -/
theorem control_ignores_values_mean :
    let s : Session Cell :=
      ((Session.new .plain).define "mean" ["+", "2", "/"]).define "inv" ["1", "swap", "/"]
    let low : List Cell := [⟨4, by decide, by decide⟩, ⟨-6, by decide, by decide⟩]
    let high : List Cell := [⟨90, by decide, by decide⟩, ⟨70, by decide, by decide⟩]
    let zero : Cell := ⟨0, by decide, by decide⟩
    Option.Rel (Outcome.Alike SameHeight) ((s.withStack low).evalToken 5 "mean")
        ((s.withStack high).evalToken 5 "mean")
      ∧ List.Forall₂ (fun d d' => d'.2 = d.2 ∧ SameHeight d.1 d'.1)
        ((Run.start (s.withStack (zero :: low)) "inv").dispatches 4)
        ((Run.start (s.withStack (zero :: high)) "inv").dispatches 4)
      ∧ ∃ (depth : ℕ∞) (effect : ℤ), depth = 2 ∧ effect = -1 ∧ ∀ stack : List Cell,
        (¬ (s.withStack stack).Fails EvalError.IsArithmetic "mean" →
          ((s.withStack stack).Fails (· = .stackUnderflow) "mean"
            ↔ (stack.length : ℕ∞) < depth))
        ∧ ∀ patience o, (s.withStack stack).evalToken patience "mean" = some o →
            o.error = none → (o.session.stack.length : ℤ) = stack.length + effect := by
  intro s low high zero
  have halike : ∀ top, (s.withStack (top ++ low)).Alike SameHeight (s.withStack (top ++ high)) :=
    fun top => Session.withStack_alike (by simp [SameHeight, low, high])
  have hlow : ¬ (s.withStack low).Fails EvalError.IsArithmetic "mean" :=
    Session.not_fails_of_ok 5 rfl rfl
  refine ⟨?outcomes, ?together, ?effect⟩
  case outcomes =>
    exact ((control_ignores_values.1 _ _ (halike []) "mean").2 hlow
      (Session.not_fails_of_ok 5 rfl rfl)) 5
  case together =>
    refine (control_ignores_values.1 _ _ (halike [zero]) "inv").1 3 ?_ ?_ <;>
    · rintro ⟨o, ho, -⟩
      cases ho
  case effect =>
    obtain ⟨depth, effect, h⟩ := control_ignores_values.2 s "mean"
    have hunder : (s.withStack [zero]).evalToken 5 "mean"
        = some ⟨s, some .stackUnderflow, 1, []⟩ := rfl
    have hfree : ¬ (s.withStack [zero]).Fails EvalError.IsArithmetic "mean" := by
      rw [Session.fails_iff hunder]
      rintro ⟨_, ⟨⟩, _, ⟨⟩⟩
    -- One value is too low, and two are not.
    have hone : ((1 : ℕ) : ℕ∞) < depth :=
      ((h [zero]).1 hfree).1 ⟨5, _, hunder, _, rfl, rfl⟩
    have htwo : ¬ ((2 : ℕ) : ℕ∞) < depth :=
      mt ((h low).1 hlow).2 (Session.not_fails_of_ok 5 rfl rfl)
    have heffect : (1 : ℤ) = 2 + effect := (h low).2 5 _ rfl rfl
    exact ⟨depth, effect, le_antisymm (not_lt.1 htwo) (Order.add_one_le_of_lt hone), by omega, h⟩

end Concatenative
