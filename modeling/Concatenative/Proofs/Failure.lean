/-
What a failure leaves behind.

A failure can strike anywhere: with operands already taken off the stack, in the
middle of a body, with the rests of several bodies still pending. What is left is
always the same, namely the session as it was before the call without its values and
its open definition (`Session.session_of_failed`). For the values, the mode and the
pending tokens that is how a failing run ends. For the dictionary it is not: nothing
restores it, and it is the one from before the call because a call that changes it
does not fail.
-/
import Concatenative.Proofs.Definition

set_option autoImplicit false

namespace Concatenative

variable {α : Type}

/-! ## Pending tokens -/

namespace Run

variable [Arithmetic α]

/-- The outcome of a run that ends within a number of steps, together with the tokens
that are pending after it. Clearing the list of pending tokens is a part of what a
failure does, as is clearing the stack, and the empty list stands for it here. Where a
run ends without failure nothing is cleared, and the list is the one it has come to. -/
def windUp : Nat → Run α → Option (Outcome α × List Token)
  | 0, _ => none
  | steps + 1, r =>
    match r.advance with
    | .ended o => some (o, if o.error = none then r.pending else [])
    | .running next => next.windUp steps

/-- Nothing is pending after a run, so nothing needs to be kept between calls. -/
theorem windUp_eq (r : Run α) (steps : Nat) :
    r.windUp steps = (r.complete steps).map fun o => (o, []) := by
  induction steps generalizing r with
  | zero => rfl
  | succ n ih =>
    rw [windUp, complete]
    cases hadv : r.advance with
    | running next => exact ih next
    | ended o =>
      rcases advance_ended hadv with ⟨hp, rfl⟩ | ⟨_, _, cause, -, -, he, -⟩
      · simp [hp]
      · simp [he]

end Run

/-! ## The session after a failure -/

namespace Session

variable [Arithmetic α]

/-- A call of a token that fails leaves the session from before it, cleared. -/
theorem session_of_failed {s : Session α} (hs : s.ClosingFree) {token : Token} {patience : Nat}
    {o : Outcome α} (h : s.evalToken patience token = some o) (hfail : o.error ≠ none) :
    o.session = s.cleared := by
  have hsettings : o.session.settings = s.settings := Run.settings_of_complete h
  obtain ⟨last, hreach, hend⟩ := path_of_evalToken h
  rcases Run.advance_ended hend with ⟨-, rfl⟩ | ⟨_, _, _, hp, hsession, -⟩
  · exact absurd rfl hfail
  · -- The token that fails is still pending in the last state of the run.
    have hdictionary : last.session.dictionary = s.dictionary :=
      Run.dictionary_of_pending hs hreach (by rw [hp]; exact List.cons_ne_nil _ _)
    rw [hsession] at hsettings ⊢
    have hlast : last.session.settings = s.settings := hsettings
    rw [cleared, cleared, hdictionary, hlast]

/-- Where tokens fail: the ones before are fed without failure, one token fails, and
what follows it makes no difference. -/
theorem feed_failed_split {s : Session α} {tokens : List Token} {patience : Nat} {o : Outcome α}
    (h : s.feed patience tokens = some o) (hfail : o.error ≠ none) :
    ∃ before token after mid last, tokens = before ++ token :: after
      ∧ s.feed patience before = some mid ∧ mid.error = none
      ∧ mid.session.evalToken patience token = some last
      ∧ last.error = o.error ∧ last.session = o.session
      ∧ ∀ other, s.feed patience (before ++ token :: other) = some o := by
  induction tokens generalizing s o with
  | nil =>
    cases h
    exact absurd rfl hfail
  | cons token rest ih =>
    obtain ⟨first, hfirst, ⟨hstop, rfl⟩ | ⟨hok, second, hsecond, rfl⟩⟩ := feed_cons_iff.1 h
    · exact ⟨[], token, rest, .start s, o, rfl, rfl, rfl, hfirst, rfl, rfl,
        fun other => feed_cons_iff.2 ⟨o, hfirst, .inl ⟨hstop, rfl⟩⟩⟩
    · obtain ⟨before, bad, after, mid, last, rfl, hmid, hmidok, hlast, he, hl, hother⟩ :=
        ih hsecond hfail
      refine ⟨token :: before, bad, after, first.followedBy mid, last, rfl, ?_, hmidok, hlast, he,
        hl, fun other => ?_⟩
      · exact feed_cons_iff.2 ⟨first, hfirst, .inr ⟨hok, mid, hmid, rfl⟩⟩
      · exact feed_cons_iff.2 ⟨first, hfirst, .inr ⟨hok, second, hother other, rfl⟩⟩

/-- After a failing call of any kind no values and no open definition are left. -/
theorem cleared_of_answer_failed {s : Session α} (hs : s.ClosingFree) {c : Call} {patience : Nat}
    {o : Outcome α} (h : s.answer patience c = some o) (hfail : o.error ≠ none) :
    o.session.cleared = o.session := by
  cases c with
  | token token => rw [session_of_failed hs h hfail]; rfl
  | line text =>
    obtain ⟨_, token, _, mid, last, -, hmid, -, hlast, he, hl, -⟩ := feed_failed_split h hfail
    have hmidfree : mid.session.ClosingFree :=
      ClosingFree.kept.feed hs (fun _ _ => trivial) hmid
    rw [← hl, session_of_failed hmidfree hlast (he ▸ hfail)]
    rfl

end Session

/-- **A failure loses the scratch state and nothing else.** Of a call in a reachable
session: when it has ended nothing is pending; if its token fails, the values are
gone, no definition is open, and the settings and the dictionary are those from
before the call. A line that fails does so at one of its tokens, with the dictionary
that the tokens before have led to, whatever tokens follow. So after failures two
sessions with the same dictionary are the same session, and no further calls can
tell them apart. -/
theorem failure_keeps_only_words [Arithmetic α] {settings : Settings} {s : Session α}
    (h : s.Reachable settings) :
    (∀ (token : Token) (patience : Nat),
      (Run.start s token).windUp (s.steps patience)
          = (s.evalToken patience token).map (fun o => (o, []))
        ∧ ∀ o, s.evalToken patience token = some o → o.error ≠ none →
          o.session.stack = [] ∧ o.session.mode = .interpreting
            ∧ o.session.settings = s.settings
            ∧ o.session.dictionary = s.dictionary)
    ∧ (∀ (text : String) (patience : Nat) (o : Outcome α),
      s.evalLine patience text = some o → o.error ≠ none →
      ∃ before token after mid last, tokenize text = before ++ token :: after
        ∧ s.feed patience before = some mid ∧ mid.error = none
        ∧ mid.session.evalToken patience token = some last ∧ last.error = o.error
        ∧ o.session = mid.session.cleared ∧ o.session.dictionary = mid.session.dictionary
        ∧ ∀ other, s.feed patience (before ++ token :: other) = some o)
    ∧ (∀ s' : Session α, s'.Reachable settings → s'.dictionary = s.dictionary →
      ∀ (token token' : Token) (n n' : Nat) (o o' : Outcome α),
        s.evalToken n token = some o → s'.evalToken n' token' = some o' →
        o.error ≠ none → o'.error ≠ none → o'.session = o.session
          ∧ ∀ patience calls, o'.session.answers patience calls = o.session.answers patience calls)
    ∧ ∀ s' : Session α, s'.Reachable settings →
      ∀ (c c' : Call) (n n' : Nat) (o o' : Outcome α),
        s.answer n c = some o → s'.answer n' c' = some o' →
        o.error ≠ none → o'.error ≠ none → o'.session.dictionary = o.session.dictionary →
          o'.session = o.session
            ∧ ∀ patience calls,
              o'.session.answers patience calls = o.session.answers patience calls := by
  have hs := h.closingFree
  refine ⟨fun token patience => ⟨Run.windUp_eq _ _, ?token⟩, ?line, ?tokens, ?calls⟩
  case token =>
    intro o ho hfail
    rw [Session.session_of_failed hs ho hfail]
    exact ⟨rfl, rfl, rfl, rfl⟩
  case line =>
    intro text patience o ho hfail
    obtain ⟨before, token, after, mid, last, htext, hmid, hok, hlast, he, hl, hother⟩ :=
      Session.feed_failed_split ho hfail
    have hmidfree : mid.session.ClosingFree :=
      Session.ClosingFree.kept.feed hs (fun _ _ => trivial) hmid
    -- It is the failing token that clears, from where the tokens before it have led.
    have hcleared : o.session = mid.session.cleared := by
      rw [← hl]
      exact Session.session_of_failed hmidfree hlast (he ▸ hfail)
    exact ⟨before, token, after, mid, last, htext, hmid, hok, hlast, he, hcleared,
      by rw [hcleared]; rfl, hother⟩
  case tokens =>
    intro s' h' hdict token token' n n' o o' ho ho' hfail hfail'
    have heq : o'.session = o.session := by
      rw [Session.session_of_failed hs ho hfail,
        Session.session_of_failed h'.closingFree ho' hfail', Session.cleared, Session.cleared,
        hdict, h.settings_eq, h'.settings_eq]
    exact ⟨heq, fun patience calls => by rw [heq]⟩
  case calls =>
    intro s' h' c c' n n' o o' ho ho' hfail hfail' hdict
    have hset : o'.session.settings = o.session.settings := by
      rw [(h.call ho).settings_eq, (h'.call ho').settings_eq]
    have heq : o'.session = o.session := by
      rw [← Session.cleared_of_answer_failed hs ho hfail,
        ← Session.cleared_of_answer_failed h'.closingFree ho' hfail',
        Session.cleared, Session.cleared, hdict, hset]
    exact ⟨heq, fun patience calls => by rw [heq]⟩

/-- A word that takes values off the stack until it fails leaves itself and nothing
else. -/
theorem failure_keeps_only_words_empty :
    let s : Session Cell :=
      { (Session.new .plain : Session Cell).define "empty" ["drop", "empty"] with
        stack := [⟨5, by decide, by decide⟩] }
    s.Reachable .plain
      ∧ ∃ o, s.evalToken 6 "empty" = some o ∧ o.error = some .stackUnderflow
        ∧ o.session.stack = [] ∧ o.session.mode = .interpreting
        ∧ o.session.settings = s.settings ∧ o.session.dictionary = s.dictionary := by
  intro s
  have htokens : tokenize ": empty drop empty ; 5"
      = [":", "empty", "drop", "empty", ";", "5"] := by
    decide +kernel
  have hline : (Session.new .plain : Session Cell).evalLine 2 ": empty drop empty ; 5"
      = some ⟨s, none, 0, []⟩ := by
    rw [Session.evalLine, htokens]
    rfl
  have hs : s.Reachable .plain := .call (c := .line _) .new hline
  have hfails := ((failure_keeps_only_words hs).1 "empty" 6).2 _ rfl
  exact ⟨hs, _, rfl, rfl, hfails (Option.some_ne_none _)⟩

end Concatenative
