/-
An opening token that comes up inside an expansion.

A body can contain the opening token, and then the definition is not written where it is read: its
name and its body are whatever happens to be pending. That is the remainder of the body in which the
opening token stands, then the remainder of the body in which that word stands, and so on out to the
token of the call. `Dictionary.Within` says this of a token and what is pending behind it, and it
holds wherever a run comes (`Run.within_of_reaches`).

From there on the run has no choice left. The first pending token is taken for the name and the
others for the body, whatever they mean elsewhere, and none of them can close the definition, since
no body contains the closing token. So what is pending moves into the mode one token after the other
(`Run.capturing_of_reaches`), and when nothing is left the run ends well (`Run.complete_capturing`).
A token that is taken in cannot fail and is not expanded, so no limit has a say in it.
-/
import Concatenative.Proofs.Dependence

set_option autoImplicit false

namespace Concatenative

variable {α : Type}

/-! ## What is pending behind a token -/

/-- In the expansion of `call` the token comes up with these tokens behind it: it is `call` itself
and there are none, or it stands in the body of a word that comes up, and behind it are the
remainder of this body and then what is behind the word. -/
inductive Dictionary.Within (d : Dictionary) (call : Token) : Token → List Token → Prop
  | call : d.Within call call []
  | body {word token : Token} {before after rest : List Token} (hword : d.Within call word rest)
      (hget : d.get? word = some (before ++ token :: after)) : d.Within call token (after ++ rest)

namespace Run

variable [Arithmetic α]

/-- Wherever a token is pending, behind it are the remainders of the bodies around it, innermost
first. The induction is on the path, and a step of it puts one more body in front. -/
theorem within_of_reaches {s : Session α} (hs : s.dictionary.ClosingFree) {call : Token}
    {r : Run α} (h : (start s call).Reaches r) (front : List Token) {rest : List Token}
    {token : Token} (hp : r.pending = front ++ token :: rest) :
    s.dictionary.Within call token rest := by
  induction h generalizing front token rest with
  | refl =>
    cases front with
    | nil =>
      cases hp
      exact .call
    | cons _ _ =>
      have hlength := congrArg List.length hp
      simp [start] at hlength
  | @tail a b hreach hnext ih =>
    obtain ⟨word, behind, hpa, ⟨news, -, hb, -⟩ | ⟨body, hd, -, hb, -, -⟩⟩ := advance_running hnext
    · apply ih (word :: front)
      rw [hpa, ← hb, hp, List.cons_append]
    · rw [hb] at hp
      rcases List.append_eq_append_iff.1 hp with ⟨front', rfl, hrest⟩ | ⟨after, hbody, hrest⟩
      · -- The token was pending already, behind the word that is expanded.
        apply ih (word :: front')
        rw [hpa, hrest, List.cons_append]
      · cases after with
        | nil =>
          apply ih [word]
          rw [hpa, List.singleton_append, hrest, List.nil_append]
        | cons _ after =>
          obtain ⟨rfl, rfl⟩ := List.cons.inj hrest
          have hdict : a.session.dictionary = s.dictionary := by
            apply dictionary_eq_of_pending hs hreach
            rw [hpa]
            exact List.cons_ne_nil _ _
          cases Session.becomes_of_dispatch hd with
          | expanded _ hget =>
            rw [hdict, hbody] at hget
            exact .body (ih [] hpa) hget

end Run

/-! ## Taking tokens in -/

/-- The open definition to which these tokens have been added, beginning with its name. -/
def Mode.capturing : List Token → Mode
  | [] => .naming
  | name :: body => .compiling name body

namespace Session

variable [Arithmetic α]

/-- An open definition takes in any token but the closing one. -/
theorem dispatch_capturing {s : Session α} {taken : List Token} (h : s.mode = .capturing taken)
    {token : Token} (hne : token ≠ ";") :
    s.dispatch token = .settled { s with mode := .capturing (taken ++ [token]) } [] := by
  cases taken with
  | nil => exact dispatch_naming h token
  | cons name body => exact dispatch_compiling h hne

end Session

namespace Run

variable [Arithmetic α]

/-- While a definition is open a run adds what is pending to it, and does nothing else. -/
theorem capturing_of_reaches {r r' : Run α} {taken : List Token}
    (hmode : r.session.mode = .capturing taken) (hfree : ";" ∉ r.pending) (h : r.Reaches r') :
    ∃ more, r.pending = more ++ r'.pending
      ∧ r'.session = { r.session with mode := .capturing (taken ++ more) }
      ∧ r'.expansions = r.expansions := by
  induction h with
  | refl =>
    refine ⟨[], rfl, ?_, rfl⟩
    rw [List.append_nil, ← hmode]
  | @tail a b _ hnext ih =>
    obtain ⟨more, hpending, hsession, hexp⟩ := ih
    obtain ⟨token, rest, hp, hcases⟩ := advance_running hnext
    have hne : token ≠ ";" := by
      rintro rfl
      apply hfree
      rw [hpending, hp]
      exact List.mem_append_right _ List.mem_cons_self
    have hcapturing : a.session.mode = .capturing (taken ++ more) := by rw [hsession]
    have hd := Session.dispatch_capturing hcapturing hne
    rcases hcases with ⟨news, hd', hb, hexp'⟩ | ⟨_, hd', -⟩
    · obtain ⟨hb', -⟩ := Step.settled.inj (hd'.symm.trans hd)
      refine ⟨more ++ [token], ?_, ?_, hexp'.trans hexp⟩
      · rw [hpending, hp, hb, List.append_assoc, List.singleton_append]
      · rw [hb', hsession, List.append_assoc]
    · cases hd.symm.trans hd'

/-- When all that was pending has been added the run ends, and it has not failed. -/
theorem complete_capturing {r : Run α} {taken : List Token}
    (hmode : r.session.mode = .capturing taken) (hfree : ";" ∉ r.pending) :
    ∃ log, r.complete (r.pending.length + 1)
      = some ⟨{ r.session with mode := .capturing (taken ++ r.pending) }, none, r.expansions,
          log⟩ := by
  induction hp : r.pending generalizing r taken with
  | nil =>
    refine ⟨r.log, ?_⟩
    rw [complete, advance_nil hp, List.append_nil, ← hmode]
    rfl
  | cons token rest ih =>
    rw [hp, List.mem_cons, not_or] at hfree
    have hd := Session.dispatch_capturing hmode fun e => hfree.1 e.symm
    obtain ⟨next, hadv⟩ : ∃ next, r.advance = .running next := ⟨_, advance_settled hp hd⟩
    obtain ⟨hsession, hrest, hexp⟩ := running_of_settled hp hd hadv
    have hcapturing : next.session.mode = .capturing (taken ++ [token]) := by rw [hsession]
    obtain ⟨log, hlog⟩ := ih hcapturing (hrest ▸ hfree.2) hrest
    refine ⟨log, ?_⟩
    rw [List.length_cons, complete, hadv]
    simp only [hlog, hsession, hexp, List.append_assoc, List.singleton_append]

/-- From the opening token on, if no user word has taken its name, a run takes in what is pending
behind it. -/
theorem opening_next {r : Run α} {rest : List Token} (hp : r.pending = ":" :: rest)
    (hmode : r.session.mode = .interpreting) (hopening : r.session.dictionary.get? ":" = none) :
    ∃ next, r.advance = .running next
      ∧ next.session = { r.session with mode := .capturing [] } ∧ next.pending = rest
      ∧ next.expansions = r.expansions := by
  have hd := Session.dispatch_opening hmode hopening
  obtain ⟨next, hadv⟩ : ∃ next, r.advance = .running next := ⟨_, advance_settled hp hd⟩
  exact ⟨next, hadv, running_of_settled hp hd hadv⟩

end Run

/-- **An opening token captures what is pending.** Suppose that in a reachable session, in which the
opening token is no user word, the run that evaluates a token comes to an opening token between
definitions. Then what is pending behind it is what is left of the bodies around it, innermost
first. In every later state of the run a part of it has been taken in, as the name and the body of a
definition, the other part is pending still, and the values, the dictionary and the number of
expansions are what they were; so nothing is carried out and nothing is expanded. And the call ends
without failure, whatever the limit, with a definition open: without a name if nothing was pending,
and else with the first pending token for its name and the others for its body. -/
theorem opening_captures_pending [Arithmetic α] {settings : Settings} {s : Session α}
    (h : s.Reachable settings) (hopening : s.dictionary.get? ":" = none) {token : Token} {r : Run α}
    (hr : (Run.start s token).Reaches r) {pending : List Token} (hp : r.pending = ":" :: pending)
    (hmode : r.session.mode = .interpreting) :
    s.dictionary.Within token ":" pending
    ∧ (∀ r', r.Reaches r' → r' = r
      ∨ ∃ taken, pending = taken ++ r'.pending
        ∧ r'.session = { r.session with mode := .capturing taken } ∧ r'.expansions = r.expansions)
    ∧ ∃ o, (∃ enough, ∀ patience, enough ≤ patience → s.evalToken patience token = some o)
      ∧ o.error = none ∧ o.expansions = r.expansions
      ∧ o.session = { s with stack := r.session.stack, mode := .capturing pending } := by
  have hs := h.closingFree
  have hdict : r.session.dictionary = s.dictionary := by
    apply Run.dictionary_of_pending hs hr
    rw [hp]
    exact List.cons_ne_nil _ _
  have hfree : ";" ∉ pending := by
    rcases Run.eq_start_or_closing_not_mem hs hr with rfl | hclosing
    · cases hp
      exact List.not_mem_nil
    · rw [hp, List.mem_cons, not_or] at hclosing
      exact hclosing.2
  obtain ⟨next, hadv, hsession, hnext, hexp⟩ := Run.opening_next hp hmode (hdict ▸ hopening)
  have hcapturing : next.session.mode = .capturing [] := by rw [hsession]
  refine ⟨?within, ?later, ?ends⟩
  case within => exact Run.within_of_reaches hs.stored hr [] hp
  case later =>
    intro r' hr'
    rcases Relation.ReflTransGen.cases_head hr' with rfl | ⟨mid, hmid, hrest⟩
    · exact .inl rfl
    · cases hadv.symm.trans hmid
      obtain ⟨taken, hpending, hs', hexp'⟩ :=
        Run.capturing_of_reaches hcapturing (hnext ▸ hfree) hrest
      refine .inr ⟨taken, hnext ▸ hpending, ?_, hexp'.trans hexp⟩
      rw [hs', hsession, List.nil_append]
  case ends =>
    obtain ⟨log, hlog⟩ := Run.complete_capturing hcapturing (hnext ▸ hfree)
    obtain ⟨last, hlast, hend⟩ := Run.complete_iff.1 ⟨_, hlog⟩
    obtain ⟨steps, hsteps⟩ := Run.complete_iff.2 ⟨last, (hr.tail hadv).trans hlast, hend⟩
    obtain ⟨enough, henough⟩ := Session.evalToken_of_complete hs.stored hsteps
    refine ⟨_, ⟨enough, fun patience hle => Session.evalToken_mono henough hle⟩, rfl, hexp, ?_⟩
    have hsettings : r.session.settings = s.settings := hr.settings_eq
    simp only [hsession, hnext, hdict, hsettings, List.nil_append]

/-- A word that opens a definition, in the middle of one that mentions itself and is expanded as
often as the limit allows. -/
theorem opening_captures_pending_begin :
    let s : Session Cell := ((Session.new ⟨some 2, none⟩).define "begin" [":", "sq"]).define "make"
      ["3", "begin", "dup", ":", "make"]
    let r : Run Cell := ⟨{ s with stack := [⟨3, by decide, by decide⟩] },
      [":", "sq", "dup", ":", "make"], 2, []⟩
    (Run.start s "make").Reaches r
      ∧ s.dictionary.Within "make" ":" ["sq", "dup", ":", "make"]
      ∧ ∃ o, (∃ enough, ∀ patience, enough ≤ patience → s.evalToken patience "make" = some o)
        ∧ o.error = none ∧ o.expansions = 2
        ∧ o.session = { r.session with mode := .compiling "sq" ["dup", ":", "make"] } := by
  intro s r
  have hs : s.Reachable ⟨some 2, none⟩ :=
    Session.Reachable.new.feed [":", "begin", ":", "sq", ";",
      ":", "make", "3", "begin", "dup", ":", "make", ";"] 2 (o := ⟨s, none, 0, []⟩) rfl
  have hr : (Run.start s "make").Reaches r := .head rfl (.head rfl (.single rfl))
  obtain ⟨hwithin, -, hends⟩ := opening_captures_pending hs rfl hr rfl rfl
  exact ⟨hr, hwithin, hends⟩

end Concatenative
