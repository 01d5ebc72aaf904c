/-
A bound on expansions is a bound on everything.

A token that is dealt with leaves what is pending, so a run can only go on for ever by
expanding for ever. If the number of expansions is bounded, every run ends, whatever the
dictionary says: the measure is the number of expansions left and, for as long as that
stays, the number of tokens pending (`Run.ends_of_bounded`).

How long it takes is another matter. An expansion puts a body in front of what is pending,
and a body is no longer than the longest one as long as no definition is completed on the
way, which is where `Dictionary.ClosingFree` comes in. Then every expansion pays for the tokens
it brings, and the tokens dispatched are at most the first one and those that the
expansions allowed can bring (`Run.length_dispatches_le`). That is also the number of steps
that a session with a limit is given, so with a limit no evaluation is ever cut short.
-/
import Concatenative.Proofs.Definition

set_option autoImplicit false

namespace Concatenative

variable {α : Type} [Arithmetic α]

/-! ## Dictionaries that stay as they are -/

/-- No stored body contains the closing token. -/
def Dictionary.ClosingFree (d : Dictionary) : Prop :=
  ∀ entry ∈ d.entries, ";" ∉ entry.2

instance (d : Dictionary) : Decidable d.ClosingFree :=
  inferInstanceAs (Decidable (∀ entry ∈ d.entries, ";" ∉ entry.2))

/-- If no stored body contains the closing token, the dictionary stays as it is for as long
as something is pending, whatever the mode at the beginning. -/
theorem Run.dictionary_eq_of_pending {s : Session α} (hs : s.dictionary.ClosingFree)
    {token : Token} {r : Run α} (h : (start s token).Reaches r) (hp : r.pending ≠ []) :
    r.session.dictionary = s.dictionary := by
  by_cases hmode : s.mode = .interpreting
  · have hfree : s.ClosingFree := by
      refine ⟨hs, fun name body e => ?_⟩
      rw [hmode] at e
      cases e
    exact dictionary_of_pending hfree h hp
  · -- In an open definition the token is dealt with at once, and nothing is left.
    rcases Relation.ReflTransGen.cases_head h with rfl | ⟨mid, hnext, hrest⟩
    · rfl
    · obtain ⟨_, _, hp', ⟨_, -, hmid, -⟩ | ⟨_, hd, -⟩⟩ := advance_running hnext
      · obtain ⟨-, rfl⟩ := List.cons.inj hp'
        rw [eq_of_reaches_of_nil hmid hrest] at hp
        exact absurd hmid hp
      · cases Session.becomes_of_dispatch hd with
        | expanded hinterpreting _ => exact absurd hinterpreting hmode

/-! ## Bounded runs -/

namespace Run

/-- What a run dispatches in a number of steps: each token with the stack that it finds. -/
def dispatches : Nat → Run α → List (List α × Token)
  | 0, _ => []
  | steps + 1, r =>
    match r.pending with
    | [] => []
    | token :: _ =>
      (r.session.stack, token) ::
        match r.advance with
        | .running next => next.dispatches steps
        | .ended _ => []

/-- A run that counts no more than a given number of expansions ends. -/
theorem ends_of_bounded {r : Run α} {bound : Nat}
    (h : ∀ r', r.Reaches r' → r'.expansions ≤ bound) : ∃ steps o, r.complete steps = some o := by
  cases hadv : r.advance with
  | ended o => exact ⟨1, o, by rw [complete, hadv]⟩
  | running next =>
    obtain ⟨steps, o, ho⟩ := ends_of_bounded fun r' hr' => h r' (.head hadv hr')
    exact ⟨steps + 1, o, by rw [complete, hadv]; exact ho⟩
termination_by (bound - r.expansions, r.pending.length)
decreasing_by
  obtain ⟨token, rest, hp, ⟨news, -, hrest, hexp⟩ | ⟨body, -, -, -, hexp, -⟩⟩ :=
    advance_running hadv
  · -- The token is gone and the expansions are as many as before.
    rw [hrest, hexp, hp]
    exact Prod.Lex.right _ (Nat.lt_succ_self _)
  · have hle : next.expansions ≤ bound := h next (.single hadv)
    exact Prod.Lex.left _ _ (by omega)

/-- A run never counts more expansions than its settings allow. -/
theorem expansions_le_of_reaches {r r' : Run α} {limit : Nat}
    (hlimit : r.session.settings.maxExpansions = some limit) (hr : r.expansions ≤ limit)
    (h : r.Reaches r') : r'.expansions ≤ limit := by
  induction h with
  | refl => exact hr
  | tail hreach hnext ih =>
    obtain ⟨_, _, -, ⟨_, -, -, hexp⟩ | ⟨_, -, -, -, -, hallows⟩⟩ := advance_running hnext
    · rw [hexp]
      exact ih
    · refine hallows limit ?_
      rw [Reaches.settings_eq hreach, hlimit]

/-- A run that has not ended after a number of steps has dispatched as many tokens. -/
theorem length_dispatches_of_incomplete {r : Run α} {steps : Nat} (h : r.complete steps = none) :
    (r.dispatches steps).length = steps := by
  induction steps generalizing r with
  | zero => rfl
  | succ n ih =>
    rw [complete] at h
    cases hadv : r.advance with
    | ended o =>
      rw [hadv] at h
      cases h
    | running next =>
      rw [hadv] at h
      obtain ⟨token, rest, hp, -⟩ := advance_running hadv
      simp only [dispatches, hp, hadv, List.length_cons, ih h]

/-- **Every expansion pays for the tokens it brings.** As long as no definition is completed
on the way, a run dispatches at most what is pending and, for every expansion left to it,
as many tokens as the longest body has. -/
theorem length_dispatches_le {r : Run α} {d : Dictionary} {bound : Nat}
    (hfixed : ∀ r', r.Reaches r' → r'.pending ≠ [] → r'.session.dictionary = d)
    (hbound : ∀ r', r.Reaches r' → r'.expansions ≤ bound) (steps : Nat) :
    (r.dispatches steps).length
      ≤ r.pending.length + (bound - r.expansions) * d.longestBody := by
  induction steps generalizing r with
  | zero => exact Nat.zero_le _
  | succ n ih =>
    cases hp : r.pending with
    | nil =>
      simp only [dispatches, hp]
      exact Nat.zero_le _
    | cons token rest =>
      cases hadv : r.advance with
      | ended o =>
        simp only [dispatches, hp, hadv, List.length_cons, List.length_nil]
        omega
      | running next =>
        have hlater := ih (fun r' hr' => hfixed r' (.head hadv hr'))
          fun r' hr' => hbound r' (.head hadv hr')
        simp only [dispatches, hp, hadv, List.length_cons]
        obtain ⟨_, _, hp', ⟨_, -, hrest, hexp⟩ | ⟨body, hd, -, hbody, hexp, -⟩⟩ :=
          advance_running hadv
        · obtain ⟨rfl, rfl⟩ := List.cons.inj (hp.symm.trans hp')
          rw [hrest, hexp] at hlater
          omega
        · obtain ⟨rfl, rfl⟩ := List.cons.inj (hp.symm.trans hp')
          have hdict : r.session.dictionary = d := hfixed r .refl (by rw [hp]; simp)
          have hlength : body.length ≤ d.longestBody := by
            cases Session.becomes_of_dispatch hd with
            | expanded _ hget => exact Dictionary.length_le_longestBody (hdict ▸ hget)
          have hnext : next.expansions ≤ bound := hbound next (.single hadv)
          -- One expansion less is left, and it has paid for the body.
          have hpaid : (bound - r.expansions) * d.longestBody
              = (bound - next.expansions) * d.longestBody + d.longestBody := by
            rw [← Nat.succ_mul]
            congr 1
            omega
          rw [hbody, List.length_append] at hlater
          omega

/-- Hence the steps that are enough: one for every token and one to notice the end. -/
theorem complete_of_bounded {r : Run α} {d : Dictionary} {bound steps : Nat}
    (hfixed : ∀ r', r.Reaches r' → r'.pending ≠ [] → r'.session.dictionary = d)
    (hbound : ∀ r', r.Reaches r' → r'.expansions ≤ bound)
    (hsteps : r.pending.length + (bound - r.expansions) * d.longestBody < steps) :
    ∃ o, r.complete steps = some o := by
  rw [← Option.isSome_iff_exists, ← Option.ne_none_iff_isSome]
  intro hnone
  have hlength := length_dispatches_of_incomplete hnone
  have hle := length_dispatches_le hfixed hbound steps
  omega

end Run

/-! ## Sequences that return -/

omit [Arithmetic α] in
/-- If an action returns whatever the patience, and keeps what it needs for that, so does
acting on a list. -/
theorem Outcome.sequence_returns {β : Type} {act : Nat → Session α → β → Option (Outcome α)}
    {Holds : Session α → Prop}
    (hact : ∀ s item, Holds s →
      ∃ o, (∀ patience, act patience s item = some o) ∧ Holds o.session)
    {s : Session α} (hs : Holds s) (items : List β) :
    ∃ o, (∀ patience, sequence (act patience) s items = some o) ∧ Holds o.session := by
  induction items generalizing s with
  | nil => exact ⟨.start s, fun _ => rfl, hs⟩
  | cons item rest ih =>
    obtain ⟨first, hfirst, hmid⟩ := hact s item hs
    cases herr : first.error with
    | some cause =>
      refine ⟨first, fun patience => ?_, hmid⟩
      exact (sequence_cons_eq_some_iff _).2 ⟨first, hfirst patience, .inl ⟨by simp [herr], rfl⟩⟩
    | none =>
      obtain ⟨second, hsecond, hlast⟩ := ih hmid
      refine ⟨first.followedBy second, fun patience => ?_, hlast⟩
      exact (sequence_cons_eq_some_iff _).2
        ⟨first, hfirst patience, .inr ⟨herr, second, hsecond patience, rfl⟩⟩

/-! ## Sessions with a limit -/

/-- A session in which `limit` expansions are allowed and no body contains the closing
token. -/
structure Session.Limited {α : Type} (limit : Nat) (s : Session α) : Prop where
  closingFree : s.ClosingFree
  limit_eq : s.settings.maxExpansions = some limit

namespace Session

/-- In a session with a limit a run counts no more expansions than that. -/
theorem expansions_le_limit {s : Session α} {limit : Nat}
    (hlimit : s.settings.maxExpansions = some limit) (token : Token) :
    ∀ r, (Run.start s token).Reaches r → r.expansions ≤ limit :=
  fun _ hr => Run.expansions_le_of_reaches (r := Run.start s token) hlimit (Nat.zero_le _) hr

/-- The steps that a session with a limit is given are enough. -/
theorem evalToken_returns {s : Session α} (hs : s.dictionary.ClosingFree) {limit : Nat}
    (hlimit : s.settings.maxExpansions = some limit) (token : Token) :
    ∃ o, ∀ patience, s.evalToken patience token = some o := by
  have hsteps : ∀ patience, s.steps patience = limit * s.dictionary.longestBody + 2 := by
    intro patience
    simp only [steps, hlimit]
  obtain ⟨o, ho⟩ : ∃ o, (Run.start s token).complete (limit * s.dictionary.longestBody + 2)
      = some o := by
    refine Run.complete_of_bounded (fun r hr hp => Run.dictionary_eq_of_pending hs hr hp)
      (expansions_le_limit hlimit token) ?_
    simp only [Run.start, List.length_singleton, Nat.sub_zero]
    omega
  refine ⟨o, fun patience => ?_⟩
  rw [evalToken, hsteps]
  exact ho

theorem Limited.evalToken {s : Session α} {limit : Nat} (hs : s.Limited limit) (token : Token) :
    ∃ o, (∀ patience, s.evalToken patience token = some o) ∧ o.session.Limited limit := by
  obtain ⟨o, ho⟩ := evalToken_returns hs.closingFree.stored hs.limit_eq token
  refine ⟨o, ho, ClosingFree.kept.evalToken hs.closingFree trivial (ho 0), ?_⟩
  rw [Run.settings_of_complete (ho 0)]
  exact hs.limit_eq

theorem Limited.evalLine {s : Session α} {limit : Nat} (hs : s.Limited limit) (line : String) :
    ∃ o, (∀ patience, s.evalLine patience line = some o) ∧ o.session.Limited limit :=
  Outcome.sequence_returns (fun _ token ha => ha.evalToken token) hs (tokenize line)

theorem Limited.evalLines {s : Session α} {limit : Nat} (hs : s.Limited limit)
    (lines : List String) :
    ∃ o, (∀ patience, s.evalLines patience lines = some o) ∧ o.session.Limited limit :=
  Outcome.sequence_returns (fun _ line ha => ha.evalLine line) hs lines

end Session

/-- With a limit a source has a result, whatever the patience. -/
theorem evaluate_returns (settings : Settings) {limit : Nat}
    (hlimit : settings.maxExpansions = some limit) (lines : List String) :
    ∃ result, ∀ patience, evaluate patience settings lines = some result := by
  have hnew : (Session.new settings : Session Cell).Limited limit := ⟨.new settings, hlimit⟩
  obtain ⟨o, ho, -⟩ := hnew.evalLines lines
  exact ⟨o.verdict, fun patience => by rw [evaluate, ho]; rfl⟩

/-- **With a limit every evaluation ends.** In any session with a limit, whatever its
dictionary, stack and mode, the run that evaluates a token ends. If no stored body contains
the closing token, as in every reachable session, it dispatches no more tokens than the
first and as many as the longest body has for every expansion allowed, so that the steps
that evaluation is given are enough; and a source that is evaluated with a limit has a
result. -/
theorem limited_evaluation_ends (limit : Nat) :
    (∀ s : Session α, s.settings.maxExpansions = some limit → ∀ token,
      (∃ steps o, (Run.start s token).complete steps = some o)
      ∧ (s.dictionary.ClosingFree →
        (∀ steps, ((Run.start s token).dispatches steps).length
            ≤ 1 + limit * s.dictionary.longestBody)
          ∧ ∃ o, ∀ patience, s.evalToken patience token = some o))
    ∧ (∀ (settings : Settings) (s : Session α), s.Reachable settings → s.dictionary.ClosingFree)
    ∧ ∀ verbosity lines, ∃ result, ∀ patience,
      evaluate patience ⟨some limit, verbosity⟩ lines = some result := by
  refine ⟨fun s hlimit token => ⟨?ends, fun hs => ⟨fun steps => ?bound, ?steps⟩⟩, ?reachable,
    fun verbosity lines => ?lines⟩
  case ends => exact Run.ends_of_bounded (Session.expansions_le_limit hlimit token)
  case bound =>
    exact Run.length_dispatches_le (r := Run.start s token)
      (fun r hr hp => Run.dictionary_eq_of_pending hs hr hp)
      (Session.expansions_le_limit hlimit token) steps
  case steps => exact Session.evalToken_returns hs hlimit token
  case reachable => exact fun _ _ h => h.closingFree.stored
  case lines => exact evaluate_returns _ rfl lines

/-- A word that doubles itself is stopped after seven tokens at most. -/
theorem limited_evaluation_ends_doubling :
    let s : Session Cell := (Session.new ⟨some 3, none⟩).define "grow" ["grow", "grow"]
    s.settings.maxExpansions = some 3 ∧ s.dictionary.ClosingFree
      ∧ (∃ steps o, (Run.start s "grow").complete steps = some o)
      ∧ (∀ steps, ((Run.start s "grow").dispatches steps).length ≤ 1 + 3 * 2)
      ∧ ∃ o, (∀ patience, s.evalToken patience "grow" = some o)
        ∧ o.error = some (.expansionLimit 3) := by
  intro s
  have hs : s.dictionary.ClosingFree := by decide
  obtain ⟨hends, hfree⟩ := (limited_evaluation_ends 3).1 s rfl "grow"
  obtain ⟨hbound, o, ho⟩ := hfree hs
  have herror : (s.evalToken 0 "grow").map Outcome.error = some (some (.expansionLimit 3)) := rfl
  rw [ho 0] at herror
  exact ⟨rfl, hs, hends, hbound, o, ho, Option.some.inj herror⟩

end Concatenative
