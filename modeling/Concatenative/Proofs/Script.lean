/-
A script in a dialogue and on standard input.

A dialogue answers line by line and goes on whatever happens, while the program evaluates all lines
as one source and stops at the first failure. Up to that failure they do the same, for the lines
that act in sequence are the lines that are answered (`answers_of_ok`, `answers_of_failed`). So
what the program has to say is found in the dialogue: the values behind the last line, or the cause
behind the first line that fails, and nothing but values before it. Only a definition that is left
open is a cause for the program and none for the dialogue, which has no end of a source; there the
prompt shows it.

All of this is about texts that are heard as they stand, as every text without a backspace is. The
program reads a backspace like any other character, and where it takes something back in the
dialogue the two can part (`mended_scripts_differ`).
-/
import Concatenative.Proofs.CommandLine.Channels
import Concatenative.Proofs.Dialogue

set_option autoImplicit false

namespace Concatenative

/-! ## Verdicts -/

theorem Outcome.of_verdict_ok {o : Outcome Cell} {values : String} (h : o.verdict = .ok values) :
    o.error = none ∧ o.session.mode = .interpreting ∧ values = o.session.render := by
  have hok := error_of_verdict h
  rw [verdict, hok, Session.unclosed?] at h
  cases hmode : o.session.mode with
  | interpreting =>
    rw [hmode] at h
    exact ⟨hok, rfl, (Except.ok.inj h).symm⟩
  | naming =>
    rw [hmode] at h
    cases h
  | compiling name body =>
    rw [hmode] at h
    cases h

namespace Dialogue

open CommandLine Text

/-! ## Lines that are answered -/

/-- Where outcomes lead to from a session, if each of them is answered. -/
def Progress.ofOutcomes (s : Session Cell) : List (Outcome Cell) → Progress
  | [] => ⟨"", s⟩
  | o :: rest => (ofOutcomes o.session rest).after (prompt s ++ answer o)

theorem Progress.ofOutcomes_concat (s : Session Cell) (earlier : List (Outcome Cell))
    (o : Outcome Cell) :
    ofOutcomes s (earlier ++ [o])
      = ⟨(ofOutcomes s earlier).shown ++ prompt (ofOutcomes s earlier).session ++ answer o,
        o.session⟩ := by
  induction earlier generalizing s with
  | nil => simp [ofOutcomes, Progress.after]
  | cons first rest ih => simp [ofOutcomes, Progress.after, ih, String.append_assoc]

/-- Lines without a command among them are answered one by one. -/
theorem proceed_eq_answers {patience : Nat} {s : Session Cell} {lines : List String}
    (hplain : ∀ line ∈ lines, Command.ofLine? line = none) :
    proceed patience s lines
      = (s.answers patience (lines.map .line)).map (Progress.ofOutcomes s) := by
  induction lines generalizing s with
  | nil => rfl
  | cons line rest ih =>
    obtain ⟨hline, hrest⟩ := List.forall_mem_cons.1 hplain
    rw [proceed, reply, hline, List.map_cons, Session.answers, Session.answer]
    cases s.evalLine patience line with
    | none => rfl
    | some o =>
      simp only [Option.map_some, Option.bind_some, ih hrest, Option.map_map]
      rfl

theorem answer_of_ok {o : Outcome Cell} (h : o.error = none) :
    answer o = if o.session.mode = .interpreting then o.session.render ++ "\n" else "" := by
  rw [answer, h]
  cases o.session.mode <;> rfl

theorem answer_of_failed {o : Outcome Cell} {cause : EvalError} (h : o.error = some cause) :
    answer o = cause.message ++ "\n" := by
  rw [answer, h]

/-- Between definitions the values are shown last, behind one line or more that did not fail. -/
theorem Progress.exists_front {s : Session Cell} {outcomes : List (Outcome Cell)}
    (hne : outcomes ≠ []) (hall : ∀ o ∈ outcomes, o.error = none)
    (hmode : (ofOutcomes s outcomes).session.mode = .interpreting) :
    ∃ front, (ofOutcomes s outcomes).shown
      = front ++ (ofOutcomes s outcomes).session.render ++ "\n" := by
  rcases List.eq_nil_or_concat' outcomes with rfl | ⟨earlier, last, rfl⟩
  · exact absurd rfl hne
  · have hlast : last.error = none := hall last (List.mem_append_right _ List.mem_cons_self)
    rw [ofOutcomes_concat] at hmode ⊢
    refine ⟨(ofOutcomes s earlier).shown ++ prompt (ofOutcomes s earlier).session, ?_⟩
    rw [answer_of_ok hlast, if_pos hmode]
    exact (String.append_assoc ..).symm

section

variable {patience : Nat} {s : Session Cell} {lines : List String} {o : Outcome Cell}

/-- Lines that do not fail are answered with their values. -/
theorem answers_of_ok (h : s.evalLines patience lines = some o) (hok : o.error = none) :
    ∃ outcomes, s.answers patience (lines.map .line) = some outcomes
      ∧ (∀ x ∈ outcomes, x.error = none)
      ∧ (Progress.ofOutcomes s outcomes).session = o.session := by
  induction lines generalizing s o with
  | nil =>
    cases h
    exact ⟨[], rfl, List.forall_mem_nil _, rfl⟩
  | cons line rest ih =>
    obtain ⟨first, hfirst, hcases⟩ := (Outcome.sequence_cons_eq_some_iff _).1 h
    rcases hcases with ⟨hfail, rfl⟩ | ⟨hfirstok, second, hsecond, rfl⟩
    · exact absurd hok hfail
    · obtain ⟨outcomes, hanswers, hall, hlast⟩ := ih hsecond hok
      refine ⟨first :: outcomes, ?_, List.forall_mem_cons.2 ⟨hfirstok, hall⟩, hlast⟩
      rw [List.map_cons, Session.answers, Session.answer, hfirst, Option.bind_some, hanswers]
      rfl

theorem answers_ne_nil (h : lines ≠ []) : s.answers patience (lines.map .line) ≠ some [] := by
  obtain ⟨line, rest, rfl⟩ := List.exists_cons_of_ne_nil h
  intro hnil
  obtain ⟨o, -, hrest⟩ := Option.bind_eq_some_iff.1 hnil
  obtain ⟨outcomes, -, hcons⟩ := Option.map_eq_some_iff.1 hrest
  cases hcons

/-- Where lines fail: the lines before are answered with their values. -/
theorem answers_of_failed (h : s.evalLines patience lines = some o) {cause : EvalError}
    (hfail : o.error = some cause) :
    ∃ before line after earlier first, lines = before ++ line :: after
      ∧ s.answers patience ((before ++ [line]).map .line) = some (earlier ++ [first])
      ∧ (∀ x ∈ earlier, x.error = none) ∧ first.error = some cause := by
  induction lines generalizing s o with
  | nil =>
    cases h
    cases hfail
  | cons line rest ih =>
    obtain ⟨first, hfirst, hcases⟩ := (Outcome.sequence_cons_eq_some_iff _).1 h
    rcases hcases with ⟨-, rfl⟩ | ⟨hfirstok, second, hsecond, rfl⟩
    · refine ⟨[], line, rest, [], o, rfl, ?_, List.forall_mem_nil _, hfail⟩
      rw [List.nil_append, List.map_singleton, Session.answers, Session.answer, hfirst]
      rfl
    · obtain ⟨before, bad, after, earlier, last, rfl, hanswers, hall, hlast⟩ := ih hsecond hfail
      refine ⟨line :: before, bad, after, first :: earlier, last, rfl, ?_,
        List.forall_mem_cons.2 ⟨hfirstok, hall⟩, hlast⟩
      rw [List.cons_append, List.map_cons, Session.answers, Session.answer, hfirst,
        Option.bind_some, hanswers]
      rfl

end

/-! ## Scripts -/

theorem stays_of_plain {lines : List String} (h : ∀ line ∈ lines, Command.ofLine? line = none) :
    ∀ line ∈ lines, Command.ofLine? line ≠ some .quit := by
  intro line hline
  rw [h line hline]
  exact Option.some_ne_none _ ∘ Eq.symm

section

variable {input : ByteArray} {lines : List String} (hheard : hear input = lines.map .line)
  (hplain : ∀ line ∈ lines, Command.ofLine? line = none) {patience : Nat} {o : Outcome Cell}
  (ho : fresh.evalLines patience lines = some o)

include hheard hplain ho

/-- The dialogue of a script that does not fail. -/
theorem transcript_of_ok (hok : o.error = none) :
    ∃ outcomes, fresh.answers patience (lines.map .line) = some outcomes
      ∧ (∀ x ∈ outcomes, x.error = none)
      ∧ (Progress.ofOutcomes fresh outcomes).session = o.session
      ∧ transcript patience input
        = some ⟨0, (Progress.ofOutcomes fresh outcomes).shown ++ prompt o.session⟩ := by
  obtain ⟨outcomes, hanswers, hall, hlast⟩ := answers_of_ok ho hok
  refine ⟨outcomes, hanswers, hall, hlast, ?_⟩
  rw [transcript_eq hheard (stays_of_plain hplain), proceed_eq_answers hplain, hanswers,
    Option.map_some, Option.map_some, hlast]

/-- The dialogue of a script that fails. -/
theorem transcript_of_failed {cause : EvalError} (hfail : o.error = some cause) :
    ∃ before line after earlier first, lines = before ++ line :: after
      ∧ fresh.answers patience ((before ++ [line]).map .line) = some (earlier ++ [first])
      ∧ (∀ x ∈ earlier, x.error = none) ∧ first.error = some cause
      ∧ transcript patience input
        = (converse patience first.session (after.map .line)).map
          (·.after (Progress.ofOutcomes fresh (earlier ++ [first])).shown) := by
  obtain ⟨before, line, after, earlier, first, rfl, hanswers, hall, hfirst⟩ :=
    answers_of_failed ho hfail
  refine ⟨before, line, after, earlier, first, rfl, hanswers, hall, hfirst, ?_⟩
  -- The dialogue is cut behind the line that fails. Of the lines after it nothing is known.
  have hcut : before ++ line :: after = (before ++ [line]) ++ after := by
    rw [List.append_assoc, List.singleton_append]
  have hplain' : ∀ l ∈ before ++ [line], Command.ofLine? l = none :=
    fun l hl => hplain l (hcut ▸ List.mem_append_left _ hl)
  rw [transcript, ← hear, hheard, hcut, List.map_append,
    converse_append (stays_of_plain hplain'), proceed_eq_answers hplain', hanswers,
    Option.map_some, Option.bind_some, Progress.ofOutcomes_concat]

end

/-- The program without arguments tells what its standard input comes to. -/
theorem exists_report {text : String} {patience : Nat} {verdict : Except EvalError String}
    (hverdict : evaluate patience .plain (textLines text) = some verdict)
    (read : String → Except ReadError ByteArray) :
    ∃ report, respond patience [] read text.toUTF8 = some report ∧ report.Tells verdict := by
  have hinput : linesOf Request.empty.files read text.toUTF8 = .ok (textLines text) :=
    sourceLines_toUTF8 "stdin" text
  have hrespond : respond patience [] read text.toUTF8
      = ((Session.new Request.empty.settings).evalLines patience (textLines text)).map
        Report.ofOutcome :=
    ofRequest_eq hinput rfl patience
  have htells := tells_evaluate patience Request.empty.settings none (textLines text)
  rw [← hrespond] at htells
  exact exists_of_rel_some_right (hverdict ▸ htells)

/-- **A dialogue agrees with the program on every script.** Take a text of one line or more that is
heard as it stands and has no command among its lines, and let it come to something in the end. Of
this the program tells when the text is its standard input, and what the dialogue has shown by
then depends on it as follows.

If it comes to values, no line fails, and these values and a prompt are shown last. If it comes to
the cause of a failure, there is a first line that fails, it is answered with this cause, and the
lines before are answered with their values or, where a definition is open, with nothing; the
dialogue goes on with the lines behind, in whatever way. If a definition is left open, no line
fails, and the prompt shown last is this definition as far as it goes. -/
theorem dialogue_agrees {text : String} (hlines : textLines text ≠ [])
    (hheard : hear text.toUTF8 = (textLines text).map .line)
    (hplain : ∀ line ∈ textLines text, Command.ofLine? line = none) {patience : Nat}
    {verdict : Except EvalError String}
    (hverdict : evaluate patience .plain (textLines text) = some verdict)
    (read : String → Except ReadError ByteArray) :
    (∃ report, respond patience [] read text.toUTF8 = some report ∧ report.Tells verdict)
      ∧ (∀ values, verdict = .ok values →
        ∃ outcomes front, fresh.answers patience ((textLines text).map .line) = some outcomes
          ∧ (∀ o ∈ outcomes, o.error = none)
          ∧ (Progress.ofOutcomes fresh outcomes).shown = front ++ values ++ "\n"
          ∧ transcript patience text.toUTF8 = some ⟨0, front ++ values ++ "\n" ++ "> "⟩)
      ∧ (∀ cause, verdict = .error cause →
        (∀ name, cause ≠ .malformedDefinition (.unclosed name)) →
        ∃ before line after earlier first, textLines text = before ++ line :: after
          ∧ fresh.answers patience ((before ++ [line]).map .line) = some (earlier ++ [first])
          ∧ (∀ o ∈ earlier, o.error = none
            ∧ answer o = if o.session.mode = .interpreting then o.session.render ++ "\n" else "")
          ∧ first.error = some cause ∧ answer first = cause.message ++ "\n"
          ∧ transcript patience text.toUTF8
            = (converse patience first.session (after.map .line)).map
              (·.after (Progress.ofOutcomes fresh (earlier ++ [first])).shown))
      ∧ ∀ name, verdict = .error (.malformedDefinition (.unclosed name)) →
        ∃ outcomes, fresh.answers patience ((textLines text).map .line) = some outcomes
          ∧ (∀ o ∈ outcomes, o.error = none)
          ∧ match name with
            | none => transcript patience text.toUTF8
                = some ⟨0, (Progress.ofOutcomes fresh outcomes).shown ++ ": ... "⟩
            | some name => ∃ body,
              (Progress.ofOutcomes fresh outcomes).session.mode = .compiling name body
                ∧ transcript patience text.toUTF8
                  = some ⟨0, (Progress.ofOutcomes fresh outcomes).shown
                    ++ if body = [] then ": " ++ name ++ " ... "
                      else ": " ++ name ++ " " ++ spelled body ++ " ... "⟩ := by
  obtain ⟨o, ho, hcomes⟩ := Option.map_eq_some_iff.1 hverdict
  refine ⟨exists_report hverdict read, ?values, ?failure, ?unclosed⟩
  case values =>
    rintro values rfl
    obtain ⟨hok, hmode, rfl⟩ := Outcome.of_verdict_ok hcomes
    obtain ⟨outcomes, hanswers, hall, hlast, hshown⟩ := transcript_of_ok hheard hplain ho hok
    have hne : outcomes ≠ [] := by
      rintro rfl
      exact answers_ne_nil hlines hanswers
    obtain ⟨front, hfront⟩ := Progress.exists_front hne hall (hlast ▸ hmode)
    have hprompt : prompt o.session = "> " := by rw [prompt, hmode]
    rw [hlast] at hfront
    rw [hprompt, hfront] at hshown
    exact ⟨outcomes, front, hanswers, hall, hfront, hshown⟩
  case failure =>
    rintro cause rfl htoken
    rcases Outcome.of_verdict_error hcomes with hfail | ⟨-, ⟨-, hopen⟩ | ⟨name, -, -, hopen⟩⟩
    · obtain ⟨before, line, after, earlier, first, hcut, hanswers, hall, hfirst, hshown⟩ :=
        transcript_of_failed hheard hplain ho hfail
      exact ⟨before, line, after, earlier, first, hcut, hanswers,
        fun x hx => ⟨hall x hx, answer_of_ok (hall x hx)⟩, hfirst, answer_of_failed hfirst, hshown⟩
    · exact absurd hopen (htoken none)
    · exact absurd hopen (htoken (some name))
  case unclosed =>
    rintro name rfl
    rcases Outcome.of_verdict_error hcomes with hfail | ⟨hok, hopen⟩
    · -- No token fails for a definition that is left open.
      rw [Session.evalLines_eq_feed] at ho
      exact absurd hfail (Session.ne_unclosed_of_feed ho name)
    · obtain ⟨outcomes, hanswers, hall, hlast, hshown⟩ := transcript_of_ok hheard hplain ho hok
      refine ⟨outcomes, hanswers, hall, ?_⟩
      rcases hopen with ⟨hmode, hname⟩ | ⟨name', body, hmode, hname⟩
      · cases hname
        rw [hshown, prompt, hmode]
        rfl
      · cases hname
        refine ⟨body, hlast ▸ hmode, ?_⟩
        rw [hshown, prompt, hmode]
        cases body with
        | nil => rfl
        | cons token rest =>
          rw [if_neg (List.cons_ne_nil _ _)]
          rfl

/-- A definition that is spread over two lines between values. -/
theorem dialogue_agrees_square :
    let text := "1 2\n: sq dup *\r\n; + sq\n"
    (∃ report, respond 5 [] (fun _ => .error .notFound) text.toUTF8 = some report
        ∧ report.Tells (.ok "9"))
      ∧ ∃ front, transcript 5 text.toUTF8 = some ⟨0, front ++ "9" ++ "\n" ++ "> "⟩ := by
  intro text
  have hlines : textLines text = ["1 2", ": sq dup *", "; + sq"] := by decide +kernel
  have hheard : hear text.toUTF8 = (textLines text).map .line := hear_eq_lines (by decide)
  have hplain : ∀ line ∈ textLines text, Command.ofLine? line = none := by
    rw [hlines]
    decide
  have hvalues : evaluate 5 .plain (textLines text) = some (.ok "9") := by
    have htokens : tokenizeLines (textLines text)
        = ["1", "2", ":", "sq", "dup", "*", ";", "+", "sq"] := by
      decide +kernel
    rw [evaluate_eq_feed, htokens]
    rfl
  have hne : textLines text ≠ [] := by
    rw [hlines]
    exact List.cons_ne_nil _ _
  obtain ⟨hreport, hok, -⟩ :=
    dialogue_agrees hne hheard hplain hvalues fun _ => .error .notFound
  obtain ⟨_, front, -, -, -, hshown⟩ := hok "9" rfl
  exact ⟨hreport, front, hshown⟩

/-! ## Scripts that are heard otherwise -/

/-- What a script without a command comes to in three steps at most, which the program tells on its
standard input, and what the dialogue shows of it. -/
structure ScriptComesTo (text : String) (verdict : Except EvalError String) (shown : String) :
    Prop where
  hasLines : textLines text ≠ []
  plain : ∀ line ∈ textLines text, Command.ofLine? line = none
  evaluated : evaluate 3 .plain (textLines text) = some verdict
  told : ∃ report, respond 3 [] (fun _ => .error .notFound) text.toUTF8 = some report
    ∧ report.Tells verdict
  held : transcript 3 text.toUTF8 = some ⟨0, shown⟩

/-- A script of one line that is meant otherwise than it was typed. -/
theorem scriptComesTo_of_mended {text typed meant shown : String}
    {verdict : Except EvalError String} (hlines : textLines text = [typed])
    (hmended : mended? typed.toList = some meant.toList) (hplain : Command.ofLine? typed = none)
    (hverdict : evaluate 3 .plain [typed] = some verdict)
    (hshown : converse 3 fresh [.line meant] = some ⟨0, shown⟩) :
    ScriptComesTo text verdict shown := by
  rw [← hlines] at hverdict
  refine ⟨?_, ?_, hverdict, exists_report hverdict _, ?_⟩
  · rw [hlines]
    exact List.cons_ne_nil _ _
  · rw [hlines]
    exact List.forall_mem_singleton.2 hplain
  · rw [transcript, ← hear, hear_mended hlines hmended, hshown]

/-- **What is heard can come to something else than what stands there.** A backspace makes a number
the name of a word, and the dialogue shows what the word leaves and not the number. It takes back
what is unknown, and the dialogue tells of another failure than the program. And it changes the
name of a definition that is left open, and the prompt shows another than the program tells of. -/
theorem mended_scripts_differ :
    (ScriptComesTo ": 5\x085 6 ; 5\n" (.ok "5") "> 6\n> "
        ∧ ∀ front, "> 6\n> " ≠ front ++ "5" ++ "\n" ++ "> ")
      ∧ ScriptComesTo "1\x08 +\n" (.error (.unknownToken "1\x08")) "> stack underflow\n> "
      ∧ ScriptComesTo ": a\x08b\n" (.error (.malformedDefinition (.unclosed (some "a\x08b"))))
        "> : b ... " := by
  refine ⟨⟨?value, ?last⟩, ?failure, ?unclosed⟩
  case value =>
    obtain ⟨hlines, hmended, htokens⟩ : textLines ": 5\x085 6 ; 5\n" = [": 5\x085 6 ; 5"]
        ∧ mended? ": 5\x085 6 ; 5".toList = some ": 5 6 ; 5".toList
        ∧ tokenizeLines [": 5\x085 6 ; 5"] = [":", "5\x085", "6", ";", "5"] := by
      decide +kernel
    refine scriptComesTo_of_mended hlines hmended (by decide) ?_ (by decide +kernel)
    rw [evaluate_eq_feed, htokens]
    rfl
  case last =>
    -- The fourth character from the end tells the two apart.
    intro front h
    have hend := congrArg (fun shown => shown.toList.reverse[3]?) h
    simp [String.toList_append] at hend
  case failure =>
    obtain ⟨hlines, hmended, htokens⟩ : textLines "1\x08 +\n" = ["1\x08 +"]
        ∧ mended? "1\x08 +".toList = some " +".toList
        ∧ tokenizeLines ["1\x08 +"] = ["1\x08", "+"] := by
      decide +kernel
    refine scriptComesTo_of_mended hlines hmended (by decide) ?_ (by decide +kernel)
    rw [evaluate_eq_feed, htokens]
    rfl
  case unclosed =>
    obtain ⟨hlines, hmended, htokens⟩ : textLines ": a\x08b\n" = [": a\x08b"]
        ∧ mended? ": a\x08b".toList = some ": b".toList
        ∧ tokenizeLines [": a\x08b"] = [":", "a\x08b"] := by
      decide +kernel
    refine scriptComesTo_of_mended hlines hmended (by decide) ?_ (by decide +kernel)
    rw [evaluate_eq_feed, htokens]
    rfl

end Dialogue

end Concatenative
