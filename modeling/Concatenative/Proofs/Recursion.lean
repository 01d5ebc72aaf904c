/-
The list of pending tokens is a way of recursing.

A run keeps one flat list for the rest of every body it is in the middle of. What
that list stands for is recursion: to evaluate a user word is to evaluate the
tokens of its body, each to its end before the next, and to stop at the first
failure. `Session.Evaluates` is that reading, as rules, and the work of this file
is to show that a run without an expansion limit agrees with it.

The two lemmas that carry it are about lists. `Run.of_complete_before` and its
converses cut the pending list in two: a run over `xs ++ ys` is one over `xs` and,
unless that fails, one over `ys` from where it ended. `Run.complete_after` says
that what has been counted and recorded before does not influence a run that has
no limit. Together they make a run over a list the same as feeding the list
(`Run.complete_ofTokens_iff`), whatever mode the session is in at the cut.
-/
import Concatenative.Proofs.Step

set_option autoImplicit false

namespace Concatenative

variable {α : Type}

/-! ## Cutting the pending list -/

/-- The run with more tokens behind those that are pending. -/
def Run.before (r : Run α) (later : List Token) : Run α :=
  { r with pending := r.pending ++ later }

/-- The run over the tokens `later`, from where an evaluation has led. -/
def Outcome.resume (o : Outcome α) (later : List Token) : Run α :=
  ⟨o.session, later, o.expansions, o.log⟩

namespace Run

/-- A run that is over comes to the tokens behind it. -/
theorem before_eq_resume {r : Run α} (hp : r.pending = []) (later : List Token) :
    r.before later = r.finish.resume later := by
  rw [before, hp]
  rfl

variable [Arithmetic α]

/-- While something is pending, a step does not look at what stands behind it. -/
theorem advance_before {r : Run α} (hp : r.pending ≠ []) (later : List Token) :
    (r.before later).advance = match r.advance with
      | .running next => .running (next.before later)
      | .ended o => .ended o := by
  obtain ⟨token, rest, hp⟩ := List.exists_cons_of_ne_nil hp
  have hp' : (r.before later).pending = token :: (rest ++ later) := by
    rw [before, hp, List.cons_append]
  cases hd : r.session.dispatch token with
  | settled s news =>
    rw [advance_settled hp hd, advance_settled hp' hd]
    rfl
  | expansion body =>
    rcases r.session.settings.allows_or_lt (r.expansions + 1) with ha | ⟨limit, hlimit, hlt⟩
    · rw [advance_expansion hp hd ha, advance_expansion hp' hd ha]
      simp only [expanded, before, note, List.append_assoc]
    · rw [advance_expansion_refused hp hd hlimit hlt, advance_expansion_refused hp' hd hlimit hlt]
      rfl
  | failure cause =>
    rw [advance_failure hp hd, advance_failure hp' hd]
    rfl

/-- A run that fails fails in the same way with more tokens behind. -/
theorem complete_before_of_failed {r : Run α} {o : Outcome α} {steps : Nat}
    (h : r.complete steps = some o) (hfail : o.error ≠ none) (later : List Token) :
    (r.before later).complete steps = some o := by
  induction steps generalizing r with
  | zero => cases h
  | succ n ih =>
    by_cases hp : r.pending = []
    · -- A run over nothing does not fail.
      rw [complete, advance_nil hp] at h
      cases h
      exact absurd rfl hfail
    · rw [complete, advance_before hp]
      rw [complete] at h
      cases hadv : r.advance with
      | running next =>
        rw [hadv] at h
        exact ih h
      | ended outcome =>
        rw [hadv] at h
        exact h

/-- A run that succeeds is followed by the run over the tokens behind it. -/
theorem complete_before_of_ok {r : Run α} {o o' : Outcome α} {steps more : Nat}
    (h : r.complete steps = some o) (hok : o.error = none) {later : List Token}
    (hmore : (o.resume later).complete more = some o') :
    (r.before later).complete (steps + more) = some o' := by
  induction steps generalizing r with
  | zero => cases h
  | succ n ih =>
    by_cases hp : r.pending = []
    · rw [complete, advance_nil hp] at h
      cases h
      rw [before_eq_resume hp]
      exact complete_mono hmore (by omega)
    · rw [show n + 1 + more = n + more + 1 by omega, complete, advance_before hp]
      rw [complete] at h
      cases hadv : r.advance with
      | running next =>
        rw [hadv] at h
        exact ih h
      | ended outcome =>
        -- With something pending a run ends by failing only.
        rw [hadv] at h
        cases h
        rcases advance_ended hadv with ⟨hnil, -⟩ | ⟨_, _, cause, -, -, he, -⟩
        · exact absurd hnil hp
        · rw [he] at hok
          cases hok

/-- A run with more tokens behind comes past the point at which the run without
them ends. -/
theorem of_complete_before {r : Run α} {o' : Outcome α} {later : List Token} {steps : Nat}
    (h : (r.before later).complete steps = some o') :
    ∃ o, r.complete steps = some o
      ∧ (o.error ≠ none ∧ o' = o ∨ o.error = none ∧ (o.resume later).complete steps = some o') := by
  induction steps generalizing r with
  | zero => cases h
  | succ n ih =>
    by_cases hp : r.pending = []
    · rw [before_eq_resume hp] at h
      exact ⟨r.finish, by rw [complete, advance_nil hp], .inr ⟨rfl, h⟩⟩
    · rw [complete, advance_before hp] at h
      cases hadv : r.advance with
      | running next =>
        rw [hadv] at h
        obtain ⟨o, ho, hcases⟩ := ih h
        refine ⟨o, by rw [complete, hadv]; exact ho, ?_⟩
        rcases hcases with hfail | ⟨hok, hlater⟩
        · exact .inl hfail
        · exact .inr ⟨hok, complete_mono hlater (by omega)⟩
      | ended outcome =>
        rw [hadv] at h
        cases h
        refine ⟨o', by rw [complete, hadv], .inl ⟨?_, rfl⟩⟩
        rcases advance_ended hadv with ⟨hnil, -⟩ | ⟨_, _, cause, -, -, he, -⟩
        · exact absurd hnil hp
        · simp [he]

end Run

/-! ## What came before a run -/

namespace Run

/-- The run as it is if `o` has come before it. -/
def after (r : Run α) (o : Outcome α) : Run α :=
  { r with expansions := o.expansions + r.expansions, log := r.log ++ o.log }

/-- The run over a list of tokens. -/
def ofTokens (s : Session α) (tokens : List Token) : Run α :=
  ⟨s, tokens, 0, []⟩

theorem ofTokens_cons (s : Session α) (token : Token) (rest : List Token) :
    ofTokens s (token :: rest) = (start s token).before rest := rfl

theorem note_after (r : Run α) (o : Outcome α) (news : List (Record α)) :
    (r.after o).note news = (r.note news).after o := by
  simp only [after, note, List.append_assoc]

variable [Arithmetic α]

/-- Without a limit a step does not depend on what came before. -/
theorem advance_after {r : Run α} (hlimit : r.session.settings.maxExpansions = none)
    (o : Outcome α) :
    (r.after o).advance = match r.advance with
      | .running next => .running (next.after o)
      | .ended o' => .ended (o.followedBy o') := by
  cases hp : r.pending with
  | nil =>
    have hp' : (r.after o).pending = [] := hp
    rw [advance_nil hp, advance_nil hp']
    rfl
  | cons token rest =>
    have hp' : (r.after o).pending = token :: rest := hp
    cases hd : r.session.dispatch token with
    | settled s news =>
      rw [advance_settled hp hd, advance_settled hp' hd, note_after, note_after]
      rfl
    | expansion body =>
      have hall := Settings.allows_of_no_limit hlimit
      rw [advance_expansion hp hd (hall _), advance_expansion hp' hd (hall _), note_after]
      simp only [expanded, after, note, List.append_assoc, Nat.add_assoc]
    | failure cause =>
      rw [advance_failure hp hd, advance_failure hp' hd, note_after]
      simp only [fail, after, note, Outcome.followedBy, List.append_assoc]

/-- Without a limit a run does not depend on what came before. -/
theorem complete_after {r : Run α} (hlimit : r.session.settings.maxExpansions = none)
    (o : Outcome α) (steps : Nat) :
    (r.after o).complete steps = (r.complete steps).map o.followedBy := by
  induction steps generalizing r with
  | zero => rfl
  | succ n ih =>
    rw [complete, complete, advance_after hlimit]
    cases hadv : r.advance with
    | running next =>
      refine ih ?_
      rw [settings_of_advance hadv, hlimit]
    | ended o' => rfl

/-- Without a limit, to go on from an outcome is to begin anew and add up. -/
theorem complete_resume {o : Outcome α} (hlimit : o.session.settings.maxExpansions = none)
    (later : List Token) (steps : Nat) :
    (o.resume later).complete steps
      = ((ofTokens o.session later).complete steps).map o.followedBy :=
  complete_after (r := ofTokens o.session later) hlimit o steps

end Run

/-! ## Feeding a list -/

namespace Session

variable [Arithmetic α]

omit [Arithmetic α] in
theorem steps_of_no_limit {s : Session α} (hlimit : s.settings.maxExpansions = none)
    (patience : Nat) : s.steps patience = patience := by
  simp only [steps, hlimit]

theorem no_limit_of_complete {r : Run α} (hlimit : r.session.settings.maxExpansions = none)
    {o : Outcome α} {steps : Nat} (h : r.complete steps = some o) :
    o.session.settings.maxExpansions = none := by
  rw [Run.settings_of_complete h, hlimit]

/-- The first step of evaluating a user word, as an outcome: a dispatch and an
expansion. -/
def unfolding (s : Session α) (word : Token) (body : List Token) : Outcome α where
  session := s
  error := none
  expansions := 1
  log := ([.expanding word body].filter fun item => s.settings.verbosity.admits item.level).reverse
    ++ ([.dispatched s.stack word].filter fun item =>
      s.settings.verbosity.admits item.level).reverse

/-- **Feeding is running.** Tokens fed one after another lead to what a single run
with all of them pending leads to. -/
theorem feed_iff {s : Session α} (hlimit : s.settings.maxExpansions = none)
    {tokens : List Token} {o : Outcome α} :
    (∃ patience, s.feed patience tokens = some o)
      ↔ ∃ steps, (Run.ofTokens s tokens).complete steps = some o := by
  induction tokens generalizing s o with
  | nil =>
    constructor
    · rintro ⟨patience, h⟩
      exact ⟨1, h⟩
    · rintro ⟨steps, h⟩
      cases steps with
      | zero => cases h
      | succ n => exact ⟨0, h⟩
  | cons token rest ih =>
    rw [Run.ofTokens_cons]
    constructor
    · rintro ⟨patience, h⟩
      obtain ⟨first, hfirst, hcases⟩ := feed_cons_iff.1 h
      have hrun : (Run.start s token).complete patience = some first := by
        rw [← hfirst, evalToken, steps_of_no_limit hlimit]
      rcases hcases with ⟨hfail, rfl⟩ | ⟨hok, second, hsecond, rfl⟩
      · exact ⟨patience, Run.complete_before_of_failed hrun hfail rest⟩
      · have hlimit' := no_limit_of_complete hlimit hrun
        obtain ⟨more, hmore⟩ := (ih hlimit').1 ⟨patience, hsecond⟩
        refine ⟨patience + more, Run.complete_before_of_ok hrun hok ?_⟩
        -- The run over the rest has counts and records behind it, the fed rest has none.
        rw [Run.complete_resume hlimit', hmore]
        rfl
    · rintro ⟨steps, h⟩
      obtain ⟨first, hrun, hcases⟩ := Run.of_complete_before h
      have hfirst : s.evalToken steps token = some first := by
        rw [evalToken, steps_of_no_limit hlimit, hrun]
      rcases hcases with hfail | ⟨hok, hlater⟩
      · exact ⟨steps, feed_cons_iff.2 ⟨first, hfirst, .inl hfail⟩⟩
      · have hlimit' := no_limit_of_complete hlimit hrun
        rw [Run.complete_resume hlimit'] at hlater
        obtain ⟨second, hsecond, rfl⟩ := Option.map_eq_some_iff.1 hlater
        obtain ⟨more, hmore⟩ := (ih hlimit').2 ⟨steps, hsecond⟩
        refine ⟨max steps more, feed_cons_iff.2 ⟨first, ?_, .inr ⟨hok, second, ?_, rfl⟩⟩⟩
        · exact evalToken_mono hfirst (Nat.le_max_left _ _)
        · exact feed_mono hmore (Nat.le_max_right _ _)

/-- After one step the run of a user word is a run over its body. -/
theorem complete_start_user_word {s : Session α} (hlimit : s.settings.maxExpansions = none)
    {word : Token} {body : List Token} (hd : s.dispatch word = .expansion body) (steps : Nat) :
    (Run.start s word).complete (steps + 1)
      = ((Run.ofTokens s body).complete steps).map (s.unfolding word body).followedBy := by
  have hadv : (Run.start s word).advance = .running ((s.unfolding word body).resume body) := by
    rw [Run.advance_expansion rfl hd (Settings.allows_of_no_limit hlimit _)]
    simp only [Run.expanded, Run.note, Run.start, Outcome.resume, unfolding, List.append_nil,
      Nat.zero_add]
  rw [Run.complete, hadv]
  exact Run.complete_resume hlimit body steps

/-- **A user word is its body.** Evaluating the word leads to one dispatch and one
expansion, followed by what feeding the body leads to. -/
theorem evalToken_user_word_iff {s : Session α} (hlimit : s.settings.maxExpansions = none)
    {word : Token} {body : List Token} (hmode : s.mode = .interpreting)
    (hget : s.dictionary.get? word = some body) {o : Outcome α} :
    (∃ patience, s.evalToken patience word = some o)
      ↔ ∃ patience inner, s.feed patience body = some inner
        ∧ o = (s.unfolding word body).followedBy inner := by
  have hd := dispatch_user_word hmode hget
  constructor
  · rintro ⟨patience, h⟩
    rw [evalToken, steps_of_no_limit hlimit] at h
    cases patience with
    | zero => cases h
    | succ n =>
      rw [complete_start_user_word hlimit hd] at h
      obtain ⟨inner, hinner, rfl⟩ := Option.map_eq_some_iff.1 h
      obtain ⟨more, hmore⟩ := (feed_iff hlimit).2 ⟨n, hinner⟩
      exact ⟨more, inner, hmore, rfl⟩
  · rintro ⟨patience, inner, h, rfl⟩
    obtain ⟨steps, hsteps⟩ := (feed_iff hlimit).1 ⟨patience, h⟩
    refine ⟨steps + 1, ?_⟩
    rw [evalToken, steps_of_no_limit hlimit, complete_start_user_word hlimit hd, hsteps]
    rfl

end Session

/-! ## Evaluation by recursion -/

mutual

/-- What evaluating a token leads to if the body of a user word is evaluated
token by token where the word stands: the session afterwards and the failure, if
it was one. -/
inductive Session.Evaluates [Arithmetic α] :
    Session α → Token → Session α → Option EvalError → Prop
  | settled {s s' : Session α} {token : Token} {news : List (Record α)}
      (h : s.dispatch token = .settled s' news) : Evaluates s token s' none
  | failure {s : Session α} {token : Token} {cause : EvalError}
      (h : s.dispatch token = .failure cause) : Evaluates s token s.cleared (some cause)
  | expansion {s s' : Session α} {token : Token} {body : List Token} {error : Option EvalError}
      (h : s.dispatch token = .expansion body) (hbody : EvaluatesAll s body s' error) :
      Evaluates s token s' error

/-- What evaluating tokens in turn leads to, each to its end before the next, up to
the first that fails. -/
inductive Session.EvaluatesAll [Arithmetic α] :
    Session α → List Token → Session α → Option EvalError → Prop
  | nil {s : Session α} : EvaluatesAll s [] s none
  | cons {s s' s'' : Session α} {token : Token} {rest : List Token} {error : Option EvalError}
      (h : Evaluates s token s' none) (hrest : EvaluatesAll s' rest s'' error) :
      EvaluatesAll s (token :: rest) s'' error
  | stop {s s' : Session α} {token : Token} {rest : List Token} {cause : EvalError}
      (h : Evaluates s token s' (some cause)) : EvaluatesAll s (token :: rest) s' (some cause)

end

namespace Session

variable [Arithmetic α]

mutual

/-- What the rules derive for a token, a run arrives at. -/
theorem Evaluates.evalToken {s s' : Session α} {token : Token} {error : Option EvalError}
    (hlimit : s.settings.maxExpansions = none) (h : s.Evaluates token s' error) :
    ∃ patience o, s.evalToken patience token = some o ∧ o.session = s' ∧ o.error = error := by
  match h with
  | .settled hd => exact ⟨_, _, evalToken_settled hd 0, rfl, rfl⟩
  | .failure hd => exact ⟨_, _, evalToken_failure hd 0, rfl, rfl⟩
  | .expansion hd hbody =>
    obtain ⟨patience, inner, hinner, hs, he⟩ := hbody.feed hlimit
    cases becomes_of_dispatch hd with
    | expanded hmode hget =>
      obtain ⟨more, hmore⟩ :=
        (evalToken_user_word_iff hlimit hmode hget).2 ⟨patience, inner, hinner, rfl⟩
      exact ⟨more, _, hmore, hs, he⟩

/-- What the rules derive for a list, feeding the list arrives at. -/
theorem EvaluatesAll.feed {s s' : Session α} {tokens : List Token} {error : Option EvalError}
    (hlimit : s.settings.maxExpansions = none) (h : s.EvaluatesAll tokens s' error) :
    ∃ patience o, s.feed patience tokens = some o ∧ o.session = s' ∧ o.error = error := by
  match h with
  | .nil => exact ⟨0, _, rfl, rfl, rfl⟩
  | .cons htoken hrest =>
    obtain ⟨n, first, hfirst, hmid, hok⟩ := htoken.evalToken hlimit
    obtain ⟨m, second, hsecond, hs, he⟩ :=
      hrest.feed (hmid ▸ no_limit_of_complete hlimit hfirst)
    -- The two parts need steps of their own, and the larger number does for both.
    refine ⟨max n m, first.followedBy second,
      feed_cons_iff.2 ⟨first, ?_, .inr ⟨hok, second, ?_, rfl⟩⟩, hs, he⟩
    · exact evalToken_mono hfirst (Nat.le_max_left _ _)
    · rw [hmid]
      exact feed_mono hsecond (Nat.le_max_right _ _)
  | .stop htoken =>
    obtain ⟨n, first, hfirst, hs, he⟩ := htoken.evalToken hlimit
    exact ⟨n, first, feed_cons_iff.2 ⟨first, hfirst, .inl ⟨by simp [he], rfl⟩⟩, hs, he⟩

end

/-- One token more: if runs of `steps` steps are derived by the rules, so is a token
that takes one step more, since that step leaves the rest of the run a run over the
body. -/
theorem evaluates_of_complete {steps : Nat}
    (ih : ∀ (s : Session α) (tokens : List Token) (o : Outcome α),
      s.settings.maxExpansions = none → (Run.ofTokens s tokens).complete steps = some o →
        s.EvaluatesAll tokens o.session o.error)
    {s : Session α} (hlimit : s.settings.maxExpansions = none) {token : Token} {o : Outcome α}
    (h : (Run.start s token).complete (steps + 1) = some o) :
    s.Evaluates token o.session o.error := by
  cases hd : s.dispatch token with
  | settled s' news =>
    rw [Run.complete, Run.advance_settled rfl hd] at h
    -- The dispatch took one step, and one more notices that nothing is left.
    cases steps with
    | zero => cases h
    | succ n =>
      cases h
      exact .settled hd
  | expansion body =>
    rw [complete_start_user_word hlimit hd] at h
    obtain ⟨inner, hinner, rfl⟩ := Option.map_eq_some_iff.1 h
    exact .expansion hd (ih s body inner hlimit hinner)
  | failure cause =>
    rw [Run.complete, Run.advance_failure rfl hd] at h
    cases h
    exact .failure hd

/-- What a run arrives at, the rules derive. The induction is on the number of steps
and, for a given number, on the list: an expansion takes a step and lengthens the
list, the end of a token shortens the list and may take no step of the rest. -/
theorem evaluatesAll_of_complete {steps : Nat} :
    ∀ (s : Session α) (tokens : List Token) (o : Outcome α),
      s.settings.maxExpansions = none → (Run.ofTokens s tokens).complete steps = some o →
        s.EvaluatesAll tokens o.session o.error := by
  induction steps with
  | zero =>
    intro s tokens o _ h
    cases h
  | succ n ih =>
    intro s tokens
    induction tokens generalizing s with
    | nil =>
      intro o _ h
      cases h
      exact .nil
    | cons token rest ihrest =>
      intro o hlimit h
      rw [Run.ofTokens_cons] at h
      obtain ⟨first, hfirst, hcases⟩ := Run.of_complete_before h
      have htoken := evaluates_of_complete ih hlimit hfirst
      rcases hcases with ⟨hfail, rfl⟩ | ⟨hok, hlater⟩
      · obtain ⟨cause, herr⟩ := Option.ne_none_iff_exists'.1 hfail
        rw [herr] at htoken ⊢
        exact .stop htoken
      · have hlimit' := no_limit_of_complete hlimit hfirst
        rw [Run.complete_resume hlimit'] at hlater
        obtain ⟨second, hsecond, rfl⟩ := Option.map_eq_some_iff.1 hlater
        rw [hok] at htoken
        exact .cons htoken (ihrest first.session second hlimit' hsecond)

theorem feed_functional {s : Session α} {tokens : List Token} {o o' : Outcome α} {n m : Nat}
    (h : s.feed n tokens = some o) (h' : s.feed m tokens = some o') : o = o' := by
  have hmax := feed_mono h (Nat.le_max_left n m)
  have hmax' := feed_mono h' (Nat.le_max_right n m)
  exact Option.some.inj (hmax.symm.trans hmax')

end Session

/-! ## The work list and the recursion -/

/-- **Expansion through the pending list is recursion.** In a session without an
expansion limit, evaluating a user word between definitions ends if and only if
feeding the tokens of its body does, with the same session and the same failure, if
any; and what evaluating any token leads to is what the rules of recursive
evaluation derive for it. Nothing is asked of the dictionary: words may refer to
themselves, and a body may open a definition and leave it open. -/
theorem evalToken_eq_recursion [Arithmetic α] (s : Session α)
    (hlimit : s.settings.maxExpansions = none) :
    (∀ word body, s.mode = .interpreting → s.dictionary.get? word = some body →
      ((∃ patience o, s.evalToken patience word = some o)
          ↔ ∃ patience o, s.feed patience body = some o)
        ∧ ∀ n o m o', s.evalToken n word = some o → s.feed m body = some o' →
            o.error = o'.error ∧ o.session = o'.session)
    ∧ ∀ token s' error,
      (∃ patience o, s.evalToken patience token = some o ∧ o.session = s' ∧ o.error = error)
        ↔ s.Evaluates token s' error := by
  refine ⟨fun word body hmode hget => ⟨⟨?_, ?_⟩, ?_⟩, fun token s' error => ⟨?_, ?_⟩⟩
  · rintro ⟨patience, o, h⟩
    obtain ⟨more, inner, hinner, -⟩ :=
      (Session.evalToken_user_word_iff hlimit hmode hget).1 ⟨patience, h⟩
    exact ⟨more, inner, hinner⟩
  · rintro ⟨patience, inner, h⟩
    obtain ⟨more, hmore⟩ :=
      (Session.evalToken_user_word_iff hlimit hmode hget).2 ⟨patience, inner, h, rfl⟩
    exact ⟨more, _, hmore⟩
  · intro n o m o' h h'
    obtain ⟨more, inner, hinner, rfl⟩ :=
      (Session.evalToken_user_word_iff hlimit hmode hget).1 ⟨n, h⟩
    obtain rfl := Session.feed_functional hinner h'
    exact ⟨rfl, rfl⟩
  · rintro ⟨patience, o, h, rfl, rfl⟩
    rw [Session.evalToken, Session.steps_of_no_limit hlimit] at h
    cases patience with
    | zero => cases h
    | succ n => exact Session.evaluates_of_complete Session.evaluatesAll_of_complete hlimit h
  · exact fun h => h.evalToken hlimit

/-- A word whose body opens a definition leaves it open, by either reading. -/
theorem evalToken_eq_recursion_begin :
    let s : Session Cell := (Session.new .plain).define "begin" [":", "x"]
    s.settings.maxExpansions = none ∧ s.mode = .interpreting
      ∧ s.dictionary.get? "begin" = some [":", "x"]
      ∧ ((∃ patience o, s.evalToken patience "begin" = some o)
          ↔ ∃ patience o, s.feed patience [":", "x"] = some o)
      ∧ s.Evaluates "begin" { s with mode := .compiling "x" [] } none := by
  intro s
  have h := evalToken_eq_recursion s rfl
  refine ⟨rfl, rfl, rfl, (h.1 "begin" [":", "x"] rfl rfl).1, ?_⟩
  exact (h.2 "begin" _ none).1 ⟨4, _, rfl, rfl, rfl⟩

end Concatenative
