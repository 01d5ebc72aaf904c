/-
An expansion limit cuts a run short and changes nothing else.

Take a session without a limit and the same session with one. Their runs go step by step
through the same states, the settings apart, for as long as the expansions counted are
within the limit (`Run.advance_withLimit`). So there are two cases. If the unlimited run
never counts more, the limited one ends where it ends; and it does end, since a bound on
expansions is a bound on everything. If the unlimited run counts more at some time, it does
so by one expansion at a time, and the limited run fails at the first that is too many.

`Session.expansionCount` is what decides between the two: how many expansions the
evaluation of a token takes if nothing limits it, which may be infinitely many. It is a
supremum over the states of a run that need not end, so it cannot be computed, but it can
be compared with a number.
-/
import Concatenative.Proofs.Failure
import Concatenative.Proofs.Termination
import Mathlib.Data.ENat.Lattice
import Mathlib.Order.CompletePartialOrder

set_option autoImplicit false

namespace Concatenative

variable {α : Type}

/-! ## Another limit -/

/-- The session with another limit on expansions, or with none. -/
def Session.withLimit (s : Session α) (limit : Option Nat) : Session α :=
  { s with settings := { s.settings with maxExpansions := limit } }

/-- What becomes of a token in the session with another limit. -/
def Step.withLimit (limit : Option Nat) : Step α → Step α
  | .settled session news => .settled (session.withLimit limit) news
  | .expansion body => .expansion body
  | .failure cause => .failure cause

/-- The outcome in a session with another limit. -/
def Outcome.withLimit (o : Outcome α) (limit : Option Nat) : Outcome α :=
  { o with session := o.session.withLimit limit }

/-- The run in a session with another limit. -/
def Run.withLimit (r : Run α) (limit : Option Nat) : Run α :=
  { r with session := r.session.withLimit limit }

namespace Session

theorem withLimit_eq_self {s : Session α} {limit : Option Nat}
    (h : s.settings.maxExpansions = limit) : s.withLimit limit = s := by
  subst h
  rfl

theorem ClosingFree.withLimit {s : Session α} (h : s.ClosingFree) (limit : Option Nat) :
    (s.withLimit limit).ClosingFree :=
  ⟨h.stored, h.compiled⟩

variable [Arithmetic α]

theorem calculate_withLimit (s : Session α) (limit : Option Nat) (op : Operator) :
    (s.withLimit limit).calculate op = (s.calculate op).withLimit limit := by
  have hstack : (s.withLimit limit).stack = s.stack := rfl
  unfold calculate
  rw [hstack]
  split
  · split <;> rfl
  · rfl

theorem execute_withLimit (s : Session α) (limit : Option Nat) (k : Keyword) :
    (s.withLimit limit).execute k = (s.execute k).withLimit limit := by
  cases k with
  | operator op => exact s.calculate_withLimit limit op
  | shuffle move =>
    have hstack : (s.withLimit limit).stack = s.stack := rfl
    simp only [execute]
    rw [hstack]
    cases move.apply s.stack <;> rfl
  | openDefinition => rfl
  | closeDefinition => rfl

/-- Dispatching a token does not look at the limit. -/
theorem dispatch_withLimit (s : Session α) (limit : Option Nat) (token : Token) :
    (s.withLimit limit).dispatch token = (s.dispatch token).withLimit limit := by
  have hmode : (s.withLimit limit).mode = s.mode := rfl
  have hdictionary : (s.withLimit limit).dictionary = s.dictionary := rfl
  unfold dispatch
  rw [hmode]
  split
  · unfold interpret
    rw [hdictionary]
    split
    · rfl
    · split
      · rfl
      · split
        · exact s.execute_withLimit limit _
        · rfl
  · rfl
  · split <;> rfl

end Session

/-! ## Runs under another limit -/

namespace Run

variable [Arithmetic α]

/-- One step without a limit is one step under any limit that allows the expansions counted
after it. -/
theorem advance_withLimit {r : Run α} (hfree : r.session.settings.maxExpansions = none)
    {limit : Option Nat}
    (hallows : ∀ next, r.advance = .running next →
      (r.withLimit limit).session.settings.Allows next.expansions) :
    (r.withLimit limit).advance = match r.advance with
      | .running next => .running (next.withLimit limit)
      | .ended o => .ended (o.withLimit limit) := by
  cases hp : r.pending with
  | nil =>
    have hp' : (r.withLimit limit).pending = [] := hp
    rw [advance_nil hp, advance_nil hp']
    rfl
  | cons token rest =>
    have hp' : (r.withLimit limit).pending = token :: rest := hp
    have hd' := r.session.dispatch_withLimit limit token
    cases hd : r.session.dispatch token with
    | settled s news =>
      rw [hd] at hd'
      rw [advance_settled hp hd, advance_settled hp' hd']
      rfl
    | expansion body =>
      rw [hd] at hd'
      have hadv := advance_expansion hp hd (Settings.allows_of_no_limit hfree _)
      rw [hadv, advance_expansion hp' hd' (hallows _ hadv)]
      rfl
    | failure cause =>
      rw [hd] at hd'
      rw [advance_failure hp hd, advance_failure hp' hd']
      rfl

/-- A run without a limit ends in the same way under a limit that it never exceeds. -/
theorem complete_withLimit {r : Run α} (hfree : r.session.settings.maxExpansions = none)
    {limit : Nat} (hwithin : ∀ r', r.Reaches r' → r'.expansions ≤ limit) (steps : Nat) :
    (r.withLimit (some limit)).complete steps
      = (r.complete steps).map (·.withLimit (some limit)) := by
  induction steps generalizing r with
  | zero => rfl
  | succ n ih =>
    have hallows : ∀ next, r.advance = .running next →
        (r.withLimit (some limit)).session.settings.Allows next.expansions := by
      intro next hadv limit' e
      cases e
      exact hwithin next (.single hadv)
    rw [complete, complete, advance_withLimit hfree hallows]
    cases hadv : r.advance with
    | ended o => rfl
    | running next =>
      refine ih ?_ fun r' hr' => hwithin r' (.head hadv hr')
      rw [settings_of_advance hadv, hfree]

/-- A run that exceeds a limit at some time fails under that limit, at the first expansion
that is one too many. -/
theorem exceeds_withLimit {r r' : Run α} (hfree : r.session.settings.maxExpansions = none)
    {limit : Nat} (hr : r.expansions ≤ limit) (h : r.Reaches r') (hlt : limit < r'.expansions) :
    ∃ last o, (r.withLimit (some limit)).Reaches last ∧ last.advance = .ended o
      ∧ o.error = some (.expansionLimit limit) := by
  induction h using Relation.ReflTransGen.head_induction_on with
  | refl => omega
  | @head r next hnext hrest ih =>
    obtain ⟨token, rest, hp, hcases⟩ := advance_running hnext
    have hp' : (r.withLimit (some limit)).pending = token :: rest := hp
    by_cases hle : next.expansions ≤ limit
    · -- Still within the limit, so the limited run goes the same way.
      have hstep : (r.withLimit (some limit)).Next (next.withLimit (some limit)) := by
        rw [Next, advance_withLimit hfree, show r.advance = _ from hnext]
        intro next' hadv limit' e
        cases e
        cases hnext.symm.trans hadv
        exact hle
      obtain ⟨last, o, hreach, hend, herr⟩ :=
        ih (by rw [settings_of_advance hnext, hfree]) hle
      exact ⟨last, o, .head hstep hreach, hend, herr⟩
    · -- Only an expansion can have gone over the limit.
      rcases hcases with ⟨_, -, -, hexp⟩ | ⟨body, hd, -, -, hexp, -⟩
      · omega
      · have hd' : (r.withLimit (some limit)).session.dispatch token = .expansion body := by
          rw [show (r.withLimit (some limit)).session = r.session.withLimit (some limit) from rfl,
            Session.dispatch_withLimit, hd]
          rfl
        have hover : limit < (r.withLimit (some limit)).expansions + 1 := by
          show limit < r.expansions + 1
          omega
        exact ⟨_, _, .refl, advance_expansion_refused hp' hd' rfl hover, rfl⟩

/-- Expansions are never taken back. -/
theorem Reaches.expansions_mono {r r' : Run α} (h : r.Reaches r') :
    r.expansions ≤ r'.expansions := by
  refine h.keeps (fun a => r.expansions ≤ a.expansions) ?_ (Nat.le_refl _)
  intro a b hadv hle
  obtain ⟨_, _, -, ⟨_, -, -, hexp⟩ | ⟨_, -, -, -, hexp, -⟩⟩ := advance_running hadv <;> omega

/-- Where a run without a limit ends it has counted no further expansion. -/
theorem expansions_of_ended {r : Run α} (hfree : r.session.settings.maxExpansions = none)
    {o : Outcome α} (h : r.advance = .ended o) : o.expansions = r.expansions := by
  cases hp : r.pending with
  | nil =>
    rw [advance_nil hp] at h
    cases h
    rfl
  | cons token rest =>
    cases hd : r.session.dispatch token with
    | settled s news =>
      rw [advance_settled hp hd] at h
      cases h
    | expansion body =>
      rw [advance_expansion hp hd (Settings.allows_of_no_limit hfree _)] at h
      cases h
    | failure cause =>
      rw [advance_failure hp hd] at h
      cases h
      rfl

/-- The state in which a run ends comes after all others. -/
theorem reaches_of_ended {r r' last : Run α} {o : Outcome α} (hlast : r.Reaches last)
    (hend : last.advance = .ended o) (h : r.Reaches r') : r'.Reaches last := by
  have hunique : Relator.RightUnique (Next (α := α)) := by
    intro a b c hb hc
    exact Progress.running.inj (hb.symm.trans hc)
  rcases Relation.ReflTransGen.total_of_right_unique hunique hlast h with hafter | hbefore
  · rcases Relation.ReflTransGen.cases_head hafter with rfl | ⟨mid, hnext, -⟩
    · exact .refl
    · cases hend.symm.trans hnext
  · exact hbefore

end Run

/-! ## How many expansions a token takes -/

namespace Session

variable [Arithmetic α]

/-- How many expansions the evaluation of a token takes if nothing limits it: as many as are
counted at any time, and `⊤` if there is no end to them. -/
noncomputable def expansionCount (s : Session α) (token : Token) : ℕ∞ :=
  ⨆ r : { r : Run α // (Run.start (s.withLimit none) token).Reaches r }, (r.1.expansions : ℕ∞)

theorem expansionCount_le_iff {s : Session α} {token : Token} {limit : Nat} :
    s.expansionCount token ≤ limit
      ↔ ∀ r, (Run.start (s.withLimit none) token).Reaches r → r.expansions ≤ limit := by
  rw [expansionCount, iSup_le_iff, Subtype.forall]
  exact forall₂_congr fun r _ => Nat.cast_le

/-- If evaluation without a limit ends, that is the number it has counted. -/
theorem expansionCount_eq {s : Session α} {token : Token} {patience : Nat} {o : Outcome α}
    (h : (s.withLimit none).evalToken patience token = some o) :
    s.expansionCount token = o.expansions := by
  obtain ⟨last, hreach, hend⟩ := path_of_evalToken h
  have hfree : last.session.settings.maxExpansions = none := by
    rw [hreach.settings_eq]
    rfl
  rw [Run.expansions_of_ended hfree hend]
  refine le_antisymm (expansionCount_le_iff.2 fun r hr => ?_) ?_
  · exact (Run.reaches_of_ended hreach hend hr).expansions_mono
  · exact le_iSup (fun r : { r : Run α // (Run.start (s.withLimit none) token).Reaches r } =>
      (r.1.expansions : ℕ∞)) ⟨last, hreach⟩

/-- Evaluation without a limit that takes finitely many expansions ends. -/
theorem evalToken_of_expansionCount_le {s : Session α} {token : Token} {limit : Nat}
    (h : s.expansionCount token ≤ limit) :
    ∃ patience o, (s.withLimit none).evalToken patience token = some o := by
  obtain ⟨steps, o, ho⟩ := Run.ends_of_bounded (expansionCount_le_iff.1 h)
  exact ⟨steps, o, ho⟩

/-- **Within the limit.** Evaluation that takes no more expansions than a limit allows leads
to the same with it as without it. -/
theorem evalToken_within {s : Session α} (hs : s.ClosingFree) {token : Token} {limit : Nat}
    (h : s.expansionCount token ≤ limit) {patience : Nat} {o : Outcome α}
    (ho : (s.withLimit none).evalToken patience token = some o) (patience' : Nat) :
    (s.withLimit (some limit)).evalToken patience' token = some (o.withLimit (some limit)) := by
  -- The limited call has an outcome, and more steps than it takes do not change it.
  have hlimited : (s.withLimit (some limit)).Limited limit := ⟨hs.withLimit _, rfl⟩
  obtain ⟨o', ho', -⟩ := hlimited.evalToken token
  have hsame : (Run.start (s.withLimit (some limit)) token).complete patience
      = some (o.withLimit (some limit)) := by
    have hsteps := Run.complete_withLimit (r := Run.start (s.withLimit none) token) rfl
      (expansionCount_le_iff.1 h) patience
    rw [show (Run.start (s.withLimit none) token).complete patience = some o from ho] at hsteps
    exact hsteps
  rw [ho', Run.complete_functional (ho' 0) hsame]

/-- **Beyond the limit.** Evaluation that takes more expansions than a limit allows fails
with it, and leaves the dictionary and nothing else. -/
theorem evalToken_beyond {s : Session α} (hs : s.ClosingFree) {token : Token} {limit : Nat}
    (h : (limit : ℕ∞) < s.expansionCount token) :
    ∃ o, (∀ patience, (s.withLimit (some limit)).evalToken patience token = some o)
      ∧ o.error = some (.expansionLimit limit)
      ∧ o.session = (s.withLimit (some limit)).cleared := by
  obtain ⟨r, hr, hlt⟩ : ∃ r, (Run.start (s.withLimit none) token).Reaches r
      ∧ limit < r.expansions := by
    by_contra hnone
    refine absurd (expansionCount_le_iff.2 fun r hr => ?_) (not_le.2 h)
    exact Nat.le_of_not_lt fun hlt => hnone ⟨r, hr, hlt⟩
  obtain ⟨last, o, hreach, hend, herr⟩ := Run.exceeds_withLimit rfl (Nat.zero_le _) hr hlt
  obtain ⟨steps, hsteps⟩ := Run.complete_iff.2 ⟨last, hreach, hend⟩
  have hlimited : (s.withLimit (some limit)).Limited limit := ⟨hs.withLimit _, rfl⟩
  obtain ⟨o', ho', -⟩ := hlimited.evalToken token
  obtain rfl : o' = o := Run.complete_functional (ho' 0) hsteps
  refine ⟨o', ho', herr, session_of_failed hlimited.closingFree (ho' 0) ?_⟩
  rw [herr]
  exact Option.some_ne_none _

end Session

/-! ## Sources -/

namespace Outcome

/-- Whether what `act` does under one limit it also does under another, unless it exceeds
the first. -/
def Carries {β : Type} (act : Nat → Session α → β → Option (Outcome α)) (limit : Nat)
    (limit' : Option Nat) : Prop :=
  ∀ (s : Session α) (item : β) (patience : Nat) (o : Outcome α), s.Limited limit →
    act patience s item = some o → o.error ≠ some (.expansionLimit limit) →
      o.session.Limited limit
        ∧ ∃ patience', act patience' (s.withLimit limit') item = some (o.withLimit limit')

/-- What holds of each item holds of a list of them. -/
theorem Carries.sequence {β : Type} {act : Nat → Session α → β → Option (Outcome α)}
    {limit : Nat} {limit' : Option Nat} (hact : Carries act limit limit')
    (hmono : ∀ s item o fewer more, act fewer s item = some o → fewer ≤ more →
      act more s item = some o) :
    Carries (fun patience => Outcome.sequence (act patience)) limit limit' := by
  intro s items patience o hs ho hne
  induction items generalizing s o with
  | nil =>
    cases ho
    exact ⟨hs, 0, rfl⟩
  | cons item rest ih =>
    obtain ⟨first, hfirst, ⟨hfail, rfl⟩ | ⟨hok, second, hsecond, rfl⟩⟩ :=
      (sequence_cons_eq_some_iff _).1 ho
    · obtain ⟨hlimited, patience', hact'⟩ := hact s item patience o hs hfirst hne
      exact ⟨hlimited, patience',
        (sequence_cons_eq_some_iff _).2 ⟨_, hact', .inl ⟨hfail, rfl⟩⟩⟩
    · obtain ⟨hmid, n, hn⟩ := hact s item patience first hs hfirst (by rw [hok]; simp)
      obtain ⟨hlast, m, hm⟩ := ih first.session second hmid hsecond hne
      -- Both parts have patience enough with the larger of the two.
      refine ⟨hlast, max n m, (sequence_cons_eq_some_iff _).2 ⟨first.withLimit limit',
        hmono _ _ _ _ _ hn (Nat.le_max_left n m), .inr ⟨hok, second.withLimit limit', ?_, rfl⟩⟩⟩
      exact sequence_mono (fun s item o h => hmono s item o m _ h (Nat.le_max_right n m)) hm

end Outcome

namespace Session

variable [Arithmetic α]

/-- Evaluation that does not exceed a limit is the same under any limit as high, or none. -/
theorem carries_evalToken {limit : Nat} {limit' : Option Nat}
    (hle : ∀ m, limit' = some m → limit ≤ m) :
    Outcome.Carries (α := α) evalToken limit limit' := by
  intro s token patience o hs ho hne
  have hself : s.withLimit (some limit) = s := withLimit_eq_self hs.limit_eq
  rcases le_or_gt (s.expansionCount token) (limit : ℕ∞) with hwithin | hbeyond
  · obtain ⟨free, o₀, ho₀⟩ := evalToken_of_expansionCount_le hwithin
    have hlimited := evalToken_within hs.closingFree hwithin ho₀ patience
    rw [hself, ho] at hlimited
    cases hlimited
    obtain ⟨_, hreturns, hkept⟩ := hs.evalToken token
    refine ⟨Option.some.inj ((hreturns patience).symm.trans ho) ▸ hkept, ?_⟩
    cases limit' with
    | none =>
      refine ⟨free, ho₀.trans (congrArg some ?_)⟩
      show o₀ = o₀.withLimit none
      rw [Outcome.withLimit, withLimit_eq_self]
      rw [Run.settings_of_complete ho₀]
      rfl
    | some m =>
      have hm : s.expansionCount token ≤ (m : ℕ∞) :=
        hwithin.trans (Nat.cast_le.2 (hle m rfl))
      exact ⟨0, evalToken_within hs.closingFree hm ho₀ 0⟩
  · obtain ⟨o', ho', herr, -⟩ := evalToken_beyond hs.closingFree hbeyond
    have hsame := ho' patience
    rw [hself, ho] at hsame
    cases hsame
    exact absurd herr hne

theorem carries_evalLines {limit : Nat} {limit' : Option Nat}
    (hle : ∀ m, limit' = some m → limit ≤ m) :
    Outcome.Carries (α := α) evalLines limit limit' := by
  have hfeed : Outcome.Carries (α := α) feed limit limit' :=
    (carries_evalToken hle).sequence fun _ _ _ _ _ => evalToken_mono
  have hline : Outcome.Carries (α := α) evalLine limit limit' :=
    fun s line => hfeed s (tokenize line)
  exact hline.sequence fun _ _ _ _ _ => feed_mono

end Session

/-- A source that does not exceed a limit has the same result under any limit as high, and
without one. -/
theorem evaluate_of_not_exceeded {limit : Nat} (limit' : Option Nat)
    (hle : ∀ m, limit' = some m → limit ≤ m) {verbosity : Verbosity} {lines : List String}
    {patience : Nat} {result : Except EvalError String}
    (h : evaluate patience ⟨some limit, verbosity⟩ lines = some result)
    (hne : result ≠ .error (.expansionLimit limit)) :
    ∃ patience', evaluate patience' ⟨limit', verbosity⟩ lines = some result := by
  obtain ⟨o, ho, rfl⟩ := Option.map_eq_some_iff.1 h
  have herror : o.error ≠ some (.expansionLimit limit) := by
    intro e
    refine hne ?_
    rw [Outcome.verdict, e]
  have hnew : (Session.new ⟨some limit, verbosity⟩ : Session Cell).Limited limit :=
    ⟨.new _, rfl⟩
  obtain ⟨-, patience', ho'⟩ := Session.carries_evalLines hle _ lines patience o hnew ho herror
  exact ⟨patience', Option.map_eq_some_iff.2 ⟨_, ho', rfl⟩⟩

/-- **An expansion limit is an exact threshold.** Evaluating a token in a reachable session
takes as many expansions without a limit as `expansionCount` says. With a limit that is not
exceeded by them it ends, with and without the limit alike: with the same failure, if any,
and the same stack, mode and dictionary. With a limit that is exceeded it fails for that
reason, the stack is empty, no definition is open, and the dictionary is as before. So a
source whose evaluation does not exceed a limit has the same result with every limit as
high and without one. -/
theorem expansion_limit_is_threshold [Arithmetic α] :
    (∀ (settings : Settings) (s : Session α), s.Reachable settings →
      ∀ (token : Token) (limit : Nat),
        (∀ patience o, (s.withLimit none).evalToken patience token = some o →
          s.expansionCount token = o.expansions)
        ∧ (s.expansionCount token ≤ limit → ∃ o,
          (∃ patience, (s.withLimit none).evalToken patience token = some o)
            ∧ ∀ patience, (s.withLimit (some limit)).evalToken patience token
              = some (o.withLimit (some limit)))
        ∧ (limit < s.expansionCount token → ∃ o,
          (∀ patience, (s.withLimit (some limit)).evalToken patience token = some o)
            ∧ o.error = some (.expansionLimit limit) ∧ o.session.stack = []
            ∧ o.session.mode = .interpreting ∧ o.session.dictionary = s.dictionary))
    ∧ ∀ (verbosity : Verbosity) (lines : List String) (limit patience : Nat)
        (result : Except EvalError String),
      evaluate patience ⟨some limit, verbosity⟩ lines = some result →
      result ≠ .error (.expansionLimit limit) →
        (∀ limit', limit ≤ limit' → ∀ patience',
          evaluate patience' ⟨some limit', verbosity⟩ lines = some result)
        ∧ ∃ patience', evaluate patience' ⟨none, verbosity⟩ lines = some result := by
  refine ⟨fun settings s h token limit => ⟨?count, ?within, ?beyond⟩,
    fun verbosity lines limit patience result h hne => ⟨?higher, ?unlimited⟩⟩
  case count => exact fun patience o ho => Session.expansionCount_eq ho
  case within =>
    intro hle
    obtain ⟨patience, o, ho⟩ := Session.evalToken_of_expansionCount_le hle
    exact ⟨o, ⟨patience, ho⟩, Session.evalToken_within h.closingFree hle ho⟩
  case beyond =>
    intro hlt
    obtain ⟨o, ho, herr, hsession⟩ := Session.evalToken_beyond h.closingFree hlt
    refine ⟨o, ho, herr, ?_⟩
    rw [hsession]
    exact ⟨rfl, rfl, rfl⟩
  case higher =>
    intro limit' hle patience'
    obtain ⟨n, hn⟩ := evaluate_of_not_exceeded (some limit')
      (fun m e => Option.some.inj e ▸ hle) h hne
    obtain ⟨_, hreturns⟩ := evaluate_returns ⟨some limit', verbosity⟩ rfl lines
    rw [hreturns, ← hreturns n, hn]
  case unlimited => exact evaluate_of_not_exceeded none (fun _ e => nomatch e) h hne

/-- Two words that expand each other until one of them fails, with the second expansion
allowed and not allowed. -/
theorem expansion_limit_is_threshold_underflow :
    let s : Session Cell := ((Session.new .plain).define "a" ["b"]).define "b" ["drop", "a"]
    s.Reachable .plain ∧ s.expansionCount "a" = 2
      ∧ (∃ o, (∀ patience, (s.withLimit (some 2)).evalToken patience "a" = some o)
        ∧ o.error = some .stackUnderflow)
      ∧ (∃ o, (∀ patience, (s.withLimit (some 1)).evalToken patience "a" = some o)
        ∧ o.error = some (.expansionLimit 1) ∧ o.session.dictionary = s.dictionary)
      ∧ ∃ patience, evaluate patience ⟨none, none⟩ [": a b ; : b 7 ;", "a"] = some (.ok "7") := by
  intro s
  have hs : s.Reachable .plain :=
    Session.Reachable.new.feed [":", "a", "b", ";", ":", "b", "drop", "a", ";"]
      2 (o := ⟨s, none, 0, []⟩) rfl
  obtain ⟨o, ho, herror, hcounted⟩ : ∃ o, (s.withLimit none).evalToken 4 "a" = some o
      ∧ o.error = some .stackUnderflow ∧ o.expansions = 2 := ⟨_, rfl, rfl, rfl⟩
  have hthreshold := (expansion_limit_is_threshold (α := Cell)).1 _ s hs "a"
  have hcount : s.expansionCount "a" = 2 := by
    rw [(hthreshold 2).1 4 o ho, hcounted]
    rfl
  have hsource : evaluate 0 ⟨some 2, none⟩ [": a b ; : b 7 ;", "a"] = some (.ok "7") := by
    decide +kernel
  refine ⟨hs, hcount, ?_, ?_, ?_⟩
  · obtain ⟨o', ⟨patience, hfree⟩, hlimited⟩ := (hthreshold 2).2.1 (le_of_eq hcount)
    obtain rfl : o' = o := Run.complete_functional hfree ho
    exact ⟨_, hlimited, herror⟩
  · obtain ⟨o', ho', herr, -, -, hdict⟩ := (hthreshold 1).2.2 (by rw [hcount]; decide)
    exact ⟨o', ho', herr, hdict⟩
  · exact ((expansion_limit_is_threshold (α := Cell)).2 none _ 2 0 _ hsource (by simp)).2

end Concatenative
