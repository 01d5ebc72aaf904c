/-
Two runs side by side.

Much of what can be said about evaluation compares two runs: the same tokens on a stack with
more values below, on a stack with other values, with another kind of number. What such a
comparison has to know about is one dispatch: corresponding tokens in corresponding sessions
lead to corresponding results. `Lockstep` is a comparison that knows this, and the rest is
done here once for all of them. The two runs take their steps together, their states
correspond one by one (`Lockstep.trail`), and so do the outcomes (`Lockstep.complete`).

A comparison may end early. It names the failures of either side after which it says nothing
about the other side any more, and what it says of two runs it says up to the first of those.
-/
import Concatenative.Proofs.Termination
import Mathlib.Data.List.Forall2

set_option autoImplicit false

namespace Concatenative

variable {α β : Type}

/-! ## Results that correspond -/

section

variable {γ δ : Type} {R S : γ → δ → Prop}

theorem rel_mono (hRS : ∀ a b, R a b → S a b) {x : Option γ} {y : Option δ}
    (h : Option.Rel R x y) : Option.Rel S x y := by
  cases h with
  | some hab => exact .some (hRS _ _ hab)
  | none => exact .none

theorem exists_of_rel_some {a : γ} {y : Option δ} (h : Option.Rel R (some a) y) :
    ∃ b, y = some b ∧ R a b := by
  cases h with
  | some hab => exact ⟨_, rfl, hab⟩

theorem exists_of_rel_some_right {x : Option γ} {b : δ} (h : Option.Rel R x (some b)) :
    ∃ a, x = some a ∧ R a b := by
  cases h with
  | some hab => exact ⟨_, rfl, hab⟩

theorem eq_none_of_rel {y : Option δ} (h : Option.Rel R none y) : y = none := by
  cases h
  rfl

theorem eq_of_rel {x y : Option γ} (h : Option.Rel Eq x y) : y = x := by
  cases h with
  | some hab => rw [hab]
  | none => rfl

/-- What follows corresponds if it does so for values that correspond. -/
theorem rel_bind {ε ζ : Type} {T : ε → ζ → Prop} {x : Option γ} {y : Option δ}
    {f : γ → Option ε} {g : δ → Option ζ} (h : Option.Rel R x y)
    (hfg : ∀ a b, x = some a → R a b → Option.Rel T (f a) (g b)) :
    Option.Rel T (x.bind f) (y.bind g) := by
  cases h with
  | some hab => exact hfg _ _ rfl hab
  | none => exact .none

theorem rel_map {ε ζ : Type} {T : ε → ζ → Prop} {x : Option γ} {y : Option δ} {f : γ → ε}
    {g : δ → ζ} (h : Option.Rel R x y) (hfg : ∀ a b, R a b → T (f a) (g b)) :
    Option.Rel T (x.map f) (y.map g) := by
  cases h with
  | some hab => exact .some (hfg _ _ hab)
  | none => exact .none

theorem exists_of_mem_right {xs : List γ} {ys : List δ} (h : List.Forall₂ R xs ys) {y : δ}
    (hy : y ∈ ys) : ∃ x ∈ xs, R x y := by
  induction h with
  | nil => cases hy
  | @cons x _ xs _ hxy _ ih =>
    rcases List.mem_cons.1 hy with rfl | hy
    · exact ⟨x, List.mem_cons_self, hxy⟩
    · obtain ⟨x', hx', hR⟩ := ih hy
      exact ⟨x', List.mem_cons_of_mem _ hx', hR⟩

end

/-! ## Failing for a kind of cause -/

/-- The token cannot be carried out, for a cause of the kind. -/
def Step.FailsBy (kind : EvalError → Prop) (step : Step α) : Prop :=
  ∃ cause, step = .failure cause ∧ kind cause

/-- Evaluation has failed, for a cause of the kind. -/
def Outcome.FailsBy (kind : EvalError → Prop) (o : Outcome α) : Prop :=
  ∃ cause, o.error = some cause ∧ kind cause

/-- The step ends the run, which has failed for a cause of the kind. -/
def Progress.FailsBy (kind : EvalError → Prop) (progress : Progress α) : Prop :=
  ∃ o, progress = .ended o ∧ o.FailsBy kind

namespace Run

variable [Arithmetic α] {kind : EvalError → Prop}

/-- The run fails within a number of steps, for a cause of the kind. -/
def FailsWithin (kind : EvalError → Prop) (steps : Nat) (r : Run α) : Prop :=
  ∃ o, r.complete steps = some o ∧ o.FailsBy kind

theorem not_failsWithin_zero (r : Run α) : ¬ r.FailsWithin kind 0 := by
  rintro ⟨o, ho, -⟩
  cases ho

theorem FailsWithin.mono {r : Run α} {fewer more : Nat} (h : r.FailsWithin kind fewer)
    (hle : fewer ≤ more) : r.FailsWithin kind more := by
  obtain ⟨o, ho, hfails⟩ := h
  exact ⟨o, complete_mono ho hle, hfails⟩

theorem failsWithin_of_running {r next : Run α} (h : r.advance = .running next) (steps : Nat) :
    r.FailsWithin kind (steps + 1) ↔ next.FailsWithin kind steps := by
  simp only [FailsWithin, complete, h]

theorem failsWithin_of_ended {r : Run α} {o : Outcome α} (h : r.advance = .ended o)
    (steps : Nat) : r.FailsWithin kind (steps + 1) ↔ r.advance.FailsBy kind := by
  simp only [FailsWithin, Progress.FailsBy, complete, h, Option.some.injEq, Progress.ended.injEq]

theorem failsWithin_of_failsBy {r : Run α} (h : r.advance.FailsBy kind) (steps : Nat) :
    r.FailsWithin kind (steps + 1) := by
  obtain ⟨o, ho, hfails⟩ := h
  exact (failsWithin_of_ended ho steps).2 ⟨o, ho, hfails⟩

/-- If the first pending token cannot be carried out the run fails for that cause. -/
theorem failsBy_of_dispatch {r : Run α} {token : Token} {rest : List Token}
    (hp : r.pending = token :: rest) (h : (r.session.dispatch token).FailsBy kind) :
    r.advance.FailsBy kind := by
  obtain ⟨cause, hd, hkind⟩ := h
  exact ⟨_, advance_failure hp hd, cause, rfl, hkind⟩

/-! ## The states of a run -/

/-- The states in which a run takes its first steps, in order. -/
def trail : Nat → Run α → List (Run α)
  | 0, _ => []
  | steps + 1, r =>
    r :: match r.advance with
      | .running next => next.trail steps
      | .ended _ => []

theorem trail_of_running {r next : Run α} (h : r.advance = .running next) (steps : Nat) :
    r.trail (steps + 1) = r :: next.trail steps := by
  simp only [trail, h]

theorem trail_of_ended {r : Run α} {o : Outcome α} (h : r.advance = .ended o) (steps : Nat) :
    r.trail (steps + 1) = [r] := by
  simp only [trail, h]

theorem mem_trail_self (r : Run α) (steps : Nat) : r ∈ r.trail (steps + 1) :=
  List.mem_cons_self

theorem trail_one (r : Run α) : r.trail 1 = [r] := by
  cases hadv : r.advance with
  | running next => rw [trail_of_running hadv, trail]
  | ended o => rw [trail_of_ended hadv]

/-- What a run dispatches can be read off its states. -/
theorem dispatches_eq (r : Run α) (steps : Nat) :
    r.dispatches steps
      = (r.trail steps).filterMap fun a => a.pending.head?.map (a.session.stack, ·) := by
  induction steps generalizing r with
  | zero => rfl
  | succ n ih =>
    cases hp : r.pending with
    | nil =>
      rw [trail_of_ended (advance_nil hp)]
      simp [dispatches, hp]
    | cons token rest =>
      cases hadv : r.advance with
      | running next => simp [dispatches, trail_of_running hadv, hp, hadv, ih]
      | ended o => simp [dispatches, trail_of_ended hadv, hp, hadv]

/-- A run fails within a number of steps if it does so in one of its states. -/
theorem failsWithin_iff_trail {r : Run α} {steps : Nat} :
    r.FailsWithin kind steps ↔ ∃ a ∈ r.trail steps, a.advance.FailsBy kind := by
  induction steps generalizing r with
  | zero => simp [not_failsWithin_zero, trail]
  | succ n ih =>
    cases hadv : r.advance with
    | running next =>
      have hgoes : ¬ r.advance.FailsBy kind := by
        rintro ⟨o, ho, -⟩
        cases hadv.symm.trans ho
      simp [failsWithin_of_running hadv, trail_of_running hadv, ih, hgoes]
    | ended o => simp [failsWithin_of_ended hadv, trail_of_ended hadv]

end Run

/-! ## Comparisons -/

/-- What has become of two tokens corresponds. -/
inductive Step.Alike (sessions : Session α → Session β → Prop) (tokens : Token → Token → Prop)
    (causes : EvalError → EvalError → Prop) : Step α → Step β → Prop
  | settled {s : Session α} {s' : Session β} {news : List (Record α)} {news' : List (Record β)}
      (h : sessions s s') : Alike sessions tokens causes (.settled s news) (.settled s' news')
  | expansion {body body' : List Token} (h : List.Forall₂ tokens body body') :
      Alike sessions tokens causes (.expansion body) (.expansion body')
  | failure {cause cause' : EvalError} (h : causes cause cause') :
      Alike sessions tokens causes (.failure cause) (.failure cause')

/-- What the steps of two runs lead to corresponds. -/
inductive Progress.Alike (runs : Run α → Run β → Prop) (outcomes : Outcome α → Outcome β → Prop) :
    Progress α → Progress β → Prop
  | running {r : Run α} {r' : Run β} (h : runs r r') :
      Alike runs outcomes (.running r) (.running r')
  | ended {o : Outcome α} {o' : Outcome β} (h : outcomes o o') :
      Alike runs outcomes (.ended o) (.ended o')

/-- A comparison of two kinds of session that every dispatch keeps, unless one side fails in
a way that ends the comparison. -/
structure Lockstep (α β : Type) [Arithmetic α] [Arithmetic β] where
  /-- The sessions that correspond. -/
  sessions : Session α → Session β → Prop
  /-- The tokens that correspond. -/
  tokens : Token → Token → Prop
  /-- The failures that correspond. -/
  causes : EvalError → EvalError → Prop
  /-- The failures of the first side that end the comparison. -/
  stopsLeft : EvalError → Prop
  /-- The failures of the second side that end the comparison. -/
  stopsRight : EvalError → Prop
  limit_eq : ∀ {s : Session α} {s' : Session β}, sessions s s' →
    s'.settings.maxExpansions = s.settings.maxExpansions
  exceeded : ∀ {s : Session α} {s' : Session β} {limit : Nat}, sessions s s' →
    s.settings.maxExpansions = some limit →
      causes (.expansionLimit limit) (.expansionLimit limit)
  dispatch : ∀ {s : Session α} {s' : Session β} {token token' : Token}, sessions s s' →
    tokens token token' →
      Step.Alike sessions tokens causes (s.dispatch token) (s'.dispatch token')
        ∨ (s.dispatch token).FailsBy stopsLeft ∨ (s'.dispatch token').FailsBy stopsRight

namespace Lockstep

variable [Arithmetic α] [Arithmetic β] (l : Lockstep α β)

/-- The runs that correspond. -/
structure Runs (r : Run α) (r' : Run β) : Prop where
  session : l.sessions r.session r'.session
  pending : List.Forall₂ l.tokens r.pending r'.pending
  expansions : r'.expansions = r.expansions

/-- The outcomes that correspond. After a failure it is the sessions before they were cleared
that do. -/
structure Outcomes (o : Outcome α) (o' : Outcome β) : Prop where
  error : Option.Rel l.causes o.error o'.error
  expansions : o'.expansions = o.expansions
  ok : o.error = none → l.sessions o.session o'.session
  failed : o.error ≠ none →
    ∃ s s', l.sessions s s' ∧ o.session = s.cleared ∧ o'.session = s'.cleared

variable {l}

theorem runs_start {s : Session α} {s' : Session β} {token token' : Token}
    (hs : l.sessions s s') (ht : l.tokens token token') :
    l.Runs (.start s token) (.start s' token') :=
  ⟨hs, .cons ht .nil, rfl⟩

theorem outcomes_of_cleared {s : Session α} {s' : Session β} {cause cause' : EvalError}
    {expansions expansions' : Nat} {log : List (Record α)} {log' : List (Record β)}
    (hs : l.sessions s s') (hcause : l.causes cause cause')
    (hexpansions : expansions' = expansions) :
    l.Outcomes ⟨s.cleared, some cause, expansions, log⟩
      ⟨s'.cleared, some cause', expansions', log'⟩ :=
  ⟨.some hcause, hexpansions, fun h => (Option.some_ne_none _ h).elim,
    fun _ => ⟨s, s', hs, rfl, rfl⟩⟩

/-- Two runs take a step together. -/
theorem advance {r : Run α} {r' : Run β} (h : l.Runs r r') :
    Progress.Alike l.Runs l.Outcomes r.advance r'.advance
      ∨ r.advance.FailsBy l.stopsLeft ∨ r'.advance.FailsBy l.stopsRight := by
  cases hp : r.pending with
  | nil =>
    have hp' : r'.pending = [] := by simpa [hp] using h.pending
    rw [Run.advance_nil hp, Run.advance_nil hp']
    exact .inl (.ended ⟨.none, h.expansions, fun _ => h.session, fun e => absurd rfl e⟩)
  | cons token rest =>
    obtain ⟨token', rest', ht, hrest, hp'⟩ := List.forall₂_cons_left_iff.1 (hp ▸ h.pending)
    rcases l.dispatch h.session ht with halike | hleft | hright
    · refine .inl ?_
      generalize hd : r.session.dispatch token = step,
        hd' : r'.session.dispatch token' = step' at halike
      cases halike with
      | settled hs =>
        rw [Run.advance_settled hp hd, Run.advance_settled hp' hd']
        exact .running ⟨hs, hrest, h.expansions⟩
      | expansion hbody =>
        have hlimit := l.limit_eq h.session
        rcases r.session.settings.allows_or_lt (r.expansions + 1) with ha | ⟨limit, hmax, hlt⟩
        · have ha' : r'.session.settings.Allows (r'.expansions + 1) := by
            intro limit e
            rw [h.expansions]
            exact ha limit (hlimit ▸ e)
          rw [Run.advance_expansion hp hd ha, Run.advance_expansion hp' hd' ha']
          exact .running ⟨h.session, List.rel_append hbody hrest, congrArg (· + 1) h.expansions⟩
        · rw [Run.advance_expansion_refused hp hd hmax hlt,
            Run.advance_expansion_refused hp' hd' (hlimit.trans hmax) (h.expansions ▸ hlt)]
          exact .ended (outcomes_of_cleared h.session (l.exceeded h.session hmax)
            (congrArg (· + 1) h.expansions))
      | failure hcause =>
        rw [Run.advance_failure hp hd, Run.advance_failure hp' hd']
        exact .ended (outcomes_of_cleared h.session hcause h.expansions)
    · exact .inr (.inl (Run.failsBy_of_dispatch hp hleft))
    · exact .inr (.inr (Run.failsBy_of_dispatch hp' hright))

/-- As long as neither side has ended the comparison, two runs end together. -/
theorem complete {r : Run α} {r' : Run β} (h : l.Runs r r') {steps : Nat}
    (hleft : ¬ r.FailsWithin l.stopsLeft steps) (hright : ¬ r'.FailsWithin l.stopsRight steps) :
    Option.Rel l.Outcomes (r.complete steps) (r'.complete steps) := by
  induction steps generalizing r r' with
  | zero => exact .none
  | succ n ih =>
    rcases advance h with halike | hl | hr
    · generalize hadv : r.advance = progress, hadv' : r'.advance = progress' at halike
      rw [Run.complete, Run.complete, hadv, hadv']
      cases halike with
      | running hnext =>
        rw [Run.failsWithin_of_running hadv] at hleft
        rw [Run.failsWithin_of_running hadv'] at hright
        exact ih hnext hleft hright
      | ended ho => exact .some ho
    · exact absurd (Run.failsWithin_of_failsBy hl n) hleft
    · exact absurd (Run.failsWithin_of_failsBy hr n) hright

/-- As long as neither side has ended the comparison, the states of two runs correspond, and
one more on either side. -/
theorem trail {r : Run α} {r' : Run β} (h : l.Runs r r') {steps : Nat}
    (hleft : ¬ r.FailsWithin l.stopsLeft steps) (hright : ¬ r'.FailsWithin l.stopsRight steps) :
    List.Forall₂ l.Runs (r.trail (steps + 1)) (r'.trail (steps + 1)) := by
  induction steps generalizing r r' with
  | zero =>
    rw [Run.trail_one, Run.trail_one]
    exact .cons h .nil
  | succ n ih =>
    rcases advance h with halike | hl | hr
    · generalize hadv : r.advance = progress, hadv' : r'.advance = progress' at halike
      cases halike with
      | running hnext =>
        rw [Run.failsWithin_of_running hadv] at hleft
        rw [Run.failsWithin_of_running hadv'] at hright
        rw [Run.trail_of_running hadv, Run.trail_of_running hadv']
        exact .cons h (ih hnext hleft hright)
      | ended ho =>
        rw [Run.trail_of_ended hadv, Run.trail_of_ended hadv']
        exact .cons h .nil
    · exact absurd (Run.failsWithin_of_failsBy hl n) hleft
    · exact absurd (Run.failsWithin_of_failsBy hr n) hright

/-- As long as neither side has ended the comparison, each state of the second run has a
counterpart. -/
theorem exists_counterpart {r : Run α} {r' : Run β} (h : l.Runs r r') {steps : Nat}
    (hleft : ¬ r.FailsWithin l.stopsLeft steps) (hright : ¬ r'.FailsWithin l.stopsRight steps)
    {a' : Run β} (ha' : a' ∈ r'.trail steps) : ∃ a ∈ r.trail steps, l.Runs a a' := by
  cases steps with
  | zero => cases ha'
  | succ n =>
    have hall := trail h (mt (·.mono n.le_succ) hleft) (mt (·.mono n.le_succ) hright)
    exact exists_of_mem_right hall ha'

/-- If only the first side can end the comparison, the state in which it does so has a
counterpart on the other side. -/
theorem exists_stop {r : Run α} {r' : Run β} (h : l.Runs r r') {steps : Nat}
    (hfails : r.FailsWithin l.stopsLeft steps)
    (hright : ∀ n, ¬ r'.FailsWithin l.stopsRight n) :
    ∃ a ∈ r.trail steps, ∃ a' ∈ r'.trail steps, l.Runs a a' ∧ a.advance.FailsBy l.stopsLeft := by
  induction steps generalizing r r' with
  | zero => exact absurd hfails (Run.not_failsWithin_zero r)
  | succ n ih =>
    cases hadv : r.advance with
    | ended o =>
      exact ⟨r, Run.mem_trail_self r n, r', Run.mem_trail_self r' n, h,
        (Run.failsWithin_of_ended hadv n).1 hfails⟩
    | running next =>
      rcases advance h with halike | ⟨o, ho, -⟩ | hr
      · rw [hadv] at halike
        generalize hadv' : r'.advance = progress' at halike
        cases halike with
        | running hnext =>
          rw [Run.failsWithin_of_running hadv] at hfails
          obtain ⟨a, ha, a', ha', hpair⟩ := ih hnext hfails fun n hn =>
            hright (n + 1) ((Run.failsWithin_of_running hadv' n).2 hn)
          rw [Run.trail_of_running hadv, Run.trail_of_running hadv']
          exact ⟨a, List.mem_cons_of_mem _ ha, a', List.mem_cons_of_mem _ ha', hpair⟩
      · cases hadv.symm.trans ho
      · exact absurd (Run.failsWithin_of_failsBy hr n) (hright (n + 1))

/-- As long as neither side has ended the comparison, two runs dispatch the same number of
tokens, and these and the stacks they find correspond. -/
theorem dispatches {r : Run α} {r' : Run β} (h : l.Runs r r') {steps : Nat}
    (hleft : ¬ r.FailsWithin l.stopsLeft steps) (hright : ¬ r'.FailsWithin l.stopsRight steps) :
    List.Forall₂ (fun d d' => (∃ s s', l.sessions s s' ∧ s.stack = d.1 ∧ s'.stack = d'.1)
        ∧ l.tokens d.2 d'.2)
      (r.dispatches (steps + 1)) (r'.dispatches (steps + 1)) := by
  rw [Run.dispatches_eq, Run.dispatches_eq]
  refine List.rel_filterMap ?_ (trail h hleft hright)
  rintro ⟨s, pending, _, _⟩ ⟨s', pending', _, _⟩ ⟨hs, hpending, -⟩
  cases hpending with
  | nil => exact .none
  | cons ht _ => exact .some ⟨⟨s, s', hs, rfl, rfl⟩, ht⟩

end Lockstep

/-! ## Calls side by side -/

/-- Calls that ask for corresponding tokens. -/
inductive Call.Alike (tokens : Token → Token → Prop) : Call → Call → Prop
  | token {token token' : Token} (h : tokens token token') :
      Alike tokens (.token token) (.token token')
  | line {text text' : String} (h : List.Forall₂ tokens (tokenize text) (tokenize text')) :
      Alike tokens (.line text) (.line text')

theorem Call.Alike.refl {tokens : Token → Token → Prop} (h : ∀ token, tokens token token)
    (c : Call) : Call.Alike tokens c c := by
  cases c with
  | token token => exact .token (h token)
  | line text => exact .line (List.forall₂_same.2 fun token _ => h token)

namespace Lockstep

variable [Arithmetic α] [Arithmetic β]

/-- A comparison that lasts: no failure ends it, it survives the clearing after one, and
evaluation is given the same number of steps on both sides. -/
structure Lasting (l : Lockstep α β) : Prop where
  left : ∀ cause, ¬ l.stopsLeft cause
  right : ∀ cause, ¬ l.stopsRight cause
  cleared : ∀ {s : Session α} {s' : Session β}, l.sessions s s' →
    l.sessions s.cleared s'.cleared
  steps : ∀ {s : Session α} {s' : Session β} (patience : Nat), l.sessions s s' →
    s'.steps patience = s.steps patience

/-- Outcomes that correspond together with the sessions they leave, failed or not. -/
structure Results (l : Lockstep α β) (o : Outcome α) (o' : Outcome β) : Prop where
  error : Option.Rel l.causes o.error o'.error
  expansions : o'.expansions = o.expansions
  session : l.sessions o.session o'.session

/-- Outcomes that correspond are followed by such if what follows corresponds. -/
theorem Results.andThen {l : Lockstep α β} {o : Outcome α} {o' : Outcome β} (h : l.Results o o')
    {next : Session α → Option (Outcome α)} {next' : Session β → Option (Outcome β)}
    (hnext : Option.Rel l.Results (next o.session) (next' o'.session)) :
    Option.Rel l.Results (o.andThen next) (o'.andThen next') := by
  obtain ⟨s, error, count, log⟩ := o
  obtain ⟨s', error', count', log'⟩ := o'
  obtain ⟨herror, hcount, hs⟩ := h
  dsimp only at herror hnext
  cases herror with
  | some hcause => exact .some ⟨.some hcause, hcount, hs⟩
  | none =>
    simp only [Outcome.andThen]
    refine rel_map hnext fun _ _ hrest => ?_
    exact ⟨hrest.error, congrArg₂ (· + ·) hcount hrest.expansions, hrest.session⟩

namespace Lasting

variable {l : Lockstep α β} (hl : l.Lasting)

include hl

theorem results {o : Outcome α} {o' : Outcome β} (h : l.Outcomes o o') : l.Results o o' := by
  refine ⟨h.error, h.expansions, ?_⟩
  by_cases hok : o.error = none
  · exact h.ok hok
  · obtain ⟨s, s', hs, ho, ho'⟩ := h.failed hok
    rw [ho, ho']
    exact hl.cleared hs

variable {s : Session α} {s' : Session β}

theorem evalToken (hs : l.sessions s s') {token token' : Token} (ht : l.tokens token token')
    (patience : Nat) :
    Option.Rel l.Results (s.evalToken patience token) (s'.evalToken patience token') := by
  rw [Session.evalToken, Session.evalToken, hl.steps patience hs]
  refine rel_mono (fun _ _ => hl.results) (Lockstep.complete (runs_start hs ht) ?_ ?_)
  · rintro ⟨_, -, cause, -, hstops⟩
    exact hl.left cause hstops
  · rintro ⟨_, -, cause, -, hstops⟩
    exact hl.right cause hstops

theorem feed (hs : l.sessions s s') {tokens tokens' : List Token}
    (ht : List.Forall₂ l.tokens tokens tokens') (patience : Nat) :
    Option.Rel l.Results (s.feed patience tokens) (s'.feed patience tokens') := by
  induction ht generalizing s s' with
  | nil => exact .some ⟨.none, rfl, hs⟩
  | @cons token token' rest rest' htoken _ ih =>
    rw [Session.feed, Session.feed, Outcome.sequence_cons, Outcome.sequence_cons]
    refine rel_bind (hl.evalToken hs htoken patience) fun o o' _ ho => ?_
    apply Results.andThen ho
    exact ih ho.session

theorem answer (hs : l.sessions s s') {c c' : Call} (hc : Call.Alike l.tokens c c')
    (patience : Nat) : Option.Rel l.Results (s.answer patience c) (s'.answer patience c') := by
  cases hc with
  | token ht => exact hl.evalToken hs ht patience
  | line ht => exact hl.feed hs ht patience

/-- Corresponding calls have corresponding outcomes, one by one, whatever fails. -/
theorem answers (hs : l.sessions s s') {calls calls' : List Call}
    (hcalls : List.Forall₂ (Call.Alike l.tokens) calls calls') (patience : Nat) :
    Option.Rel (List.Forall₂ l.Results) (s.answers patience calls)
      (s'.answers patience calls') := by
  induction hcalls generalizing s s' with
  | nil => exact .some .nil
  | @cons c c' rest rest' hc _ ih =>
    rw [Session.answers, Session.answers]
    refine rel_bind (hl.answer hs hc patience) fun o o' _ ho => ?_
    exact rel_map (ih ho.session) fun _ _ hrest => .cons ho hrest

end Lasting

end Lockstep

end Concatenative
