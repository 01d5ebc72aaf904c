/-
How a source is cut into lines.

Lines matter to those who read a source and to those who report on it. Evaluation does not
see them: the lines of a text have the tokens of the text (`tokenizeLines_textLines`), and to
evaluate lines one after the other is to feed their tokens one after the other
(`evalLines_eq_feed`). A definition stays open from one line to the next, and what comes after
the first failure is not looked at.
-/
import Concatenative.Text.Lines
import Concatenative.Proofs.Settling
import Concatenative.Proofs.Tokenization

set_option autoImplicit false

namespace Concatenative

/-! ## The words of lines -/

namespace Text

theorem isWhiteSpace_feed : isWhiteSpace '\n' = true := by decide

theorem isWhiteSpace_return : isWhiteSpace '\r' = true := by decide

/-- A carriage return at the end of a line belongs to no word. -/
theorem words_withoutReturn (piece : List Char) :
    words (withoutReturn '\r' piece) = words piece := by
  unfold withoutReturn
  split
  · rename_i hlast
    obtain ⟨before, rfl⟩ := List.getLast?_eq_some_iff.1 hlast
    rw [List.dropLast_concat, words_append_cons _ _ _ isWhiteSpace_return, words_nil,
      List.append_nil]
  · rfl

/-- A text without a line feed is one line, unless it is empty. -/
theorem lines_of_not_mem {α : Type} [DecidableEq α] {feed : α} (ret : α) {text : List α}
    (h : feed ∉ text) : lines feed ret text = [text].filter (· ≠ []) := by
  simp [lines, List.splitOn_eq_singleton h]

/-- What holds of every text without a line feed, and of a text with a line in front if it holds
of the text, holds of all texts. The induction is on the length of the text, since a line is cut
off together with the line feed behind it. -/
@[elab_as_elim]
theorem lines_induction {α : Type} [DecidableEq α] (feed : α) {motive : List α → Prop}
    (last : ∀ text, feed ∉ text → motive text)
    (line : ∀ piece rest, feed ∉ piece → motive rest → motive (piece ++ feed :: rest))
    (text : List α) : motive text := by
  induction hn : text.length using Nat.strongRecOn generalizing text with
  | ind n ih =>
    by_cases hfeed : feed ∈ text
    · obtain ⟨piece, rest, rfl, hpiece⟩ := List.eq_append_cons_of_mem hfeed
      have hshorter : rest.length < n := by
        rw [List.length_append, List.length_cons] at hn
        omega
      exact line piece rest hpiece (ih _ hshorter rest rfl)
    · exact last text hfeed

/-- **The lines of a text have the words of the text.** -/
theorem flatMap_words_lines (text : List Char) :
    (lines '\n' '\r' text).flatMap words = words text := by
  induction text using lines_induction '\n' with
  | last text hfeed =>
    rw [lines_of_not_mem _ hfeed]
    by_cases hnil : text = [] <;> simp [hnil]
  | line piece rest hpiece ih =>
    rw [lines_append_cons _ _ _ _ hpiece, List.flatMap_cons, words_withoutReturn, ih,
      words_append_cons _ _ _ isWhiteSpace_feed]

/-- What follows a line feed is cut into lines on its own. -/
theorem lines_append_feed {α : Type} [DecidableEq α] (feed ret : α) (first second : List α) :
    lines feed ret (first ++ feed :: second)
      = lines feed ret (first ++ [feed]) ++ lines feed ret second := by
  induction first using lines_induction feed with
  | last text hfeed =>
    rw [lines_append_cons _ _ _ _ hfeed, lines_append_cons _ _ _ _ hfeed, lines_nil]
    rfl
  | line piece rest hpiece ih =>
    simp only [List.append_assoc, List.cons_append]
    rw [lines_append_cons _ _ _ _ hpiece, lines_append_cons _ _ _ _ hpiece, ih]
    rfl

end Text

/-- The lines of a text have the tokens of the text. -/
theorem tokenizeLines_textLines (text : String) :
    tokenizeLines (Text.textLines text) = tokenize text := by
  have hline : ∀ line : List Char, tokenize (String.ofList line)
      = (Text.words line).map fun word => String.ofList (Text.lowerWord word) := by
    intro line
    rw [tokenize, String.toList_ofList]
  rw [tokenizeLines, Text.textLines, List.flatMap_map, tokenize, ← Text.flatMap_words_lines,
    List.map_flatMap]
  exact congrArg (fun f => List.flatMap f _) (funext hline)

/-! ## Evaluating lines -/

/-- Items that act in sequence themselves act like what they consist of. -/
theorem Outcome.sequence_flatMap {α β γ : Type} (act : Session α → γ → Option (Outcome α))
    (parts : β → List γ) (s : Session α) (items : List β) :
    sequence (fun s item => sequence act s (parts item)) s items
      = sequence act s (items.flatMap parts) := by
  induction items generalizing s with
  | nil => rfl
  | cons item rest ih =>
    rw [sequence_cons, List.flatMap_cons, sequence_append]
    exact congrArg _ (funext fun o => congrArg _ (funext fun s => ih s))

namespace Session

variable {α : Type} [Arithmetic α]

/-- To evaluate lines is to feed their tokens. -/
theorem evalLines_eq_feed (s : Session α) (patience : Nat) (lines : List String) :
    s.evalLines patience lines = s.feed patience (tokenizeLines lines) :=
  Outcome.sequence_flatMap (evalToken patience) tokenize s lines

/-- A line that is cut in two is evaluated like the two parts one after the other. -/
theorem evalLine_of_tokenize_eq {whole first second : String}
    (h : tokenize whole = tokenize first ++ tokenize second) (s : Session α) (patience : Nat) :
    s.evalLine patience whole
      = (s.evalLine patience first).bind (·.andThen (·.evalLine patience second)) := by
  rw [evalLine, evalLine, h]
  exact Outcome.sequence_append _ _ _ _

theorem evalLines_append (s : Session α) (patience : Nat) (lines more : List String) :
    s.evalLines patience (lines ++ more)
      = (s.evalLines patience lines).bind (·.andThen (·.evalLines patience more)) :=
  Outcome.sequence_append _ _ _ _

end Session

theorem evaluate_eq_feed (patience : Nat) (settings : Settings) (lines : List String) :
    evaluate patience settings lines
      = ((Session.new settings).feed patience (tokenizeLines lines)).map Outcome.verdict := by
  rw [evaluate, Session.evalLines_eq_feed]

/-- What comes after a failure does not count. -/
theorem evaluate_append_of_failed {patience : Nat} {settings : Settings} {lines : List String}
    {o : Outcome Cell} {cause : EvalError}
    (h : (Session.new settings).evalLines patience lines = some o) (hfail : o.error = some cause)
    (more : List String) :
    evaluate patience settings (lines ++ more) = some (.error cause) := by
  have hmore : (Session.new settings).evalLines patience (lines ++ more) = some o := by
    rw [Session.evalLines_append, h, Option.bind_some, Outcome.andThen_eq_some_iff]
    exact .inl ⟨by rw [hfail]; exact Option.some_ne_none cause, rfl⟩
  rw [evaluate, hmore, Option.map_some, Outcome.verdict, hfail]

/-- **How a source is cut into lines makes no difference.** White space of any kind and length
separates tokens and nothing else, so a line is evaluated like its parts on the two sides, the
second if the first did not fail. The lines of a text have the tokens of the text. A source is
evaluated by feeding the tokens of its lines to a new session, and comes to the first failure,
or else to the definition left open, or else to the values; so lines with the same tokens come
to the same. In particular a definition can be spread over lines in any way, and once one of
the lines has failed the lines that follow make no difference. -/
theorem line_breaks_invisible :
    (∀ a w b : String, w ≠ "" → (∀ c ∈ w.toList, Text.isWhiteSpace c = true) →
      tokenize (a ++ w ++ b) = tokenize a ++ tokenize b
      ∧ ∀ (s : Session Cell) (patience : Nat), s.evalLine patience (a ++ w ++ b)
          = (s.evalLine patience a).bind (·.andThen (·.evalLine patience b)))
    ∧ (∀ text : String, tokenizeLines (Text.textLines text) = tokenize text)
    ∧ (∀ (patience : Nat) (settings : Settings) (lines : List String),
      evaluate patience settings lines
          = ((Session.new settings).feed patience (tokenizeLines lines)).map
            (fun o : Outcome Cell => match o.error, o.session.unclosed? with
              | some cause, _ => .error cause
              | none, some cause => .error cause
              | none, none => .ok o.session.render)
      ∧ (∀ lines', tokenizeLines lines' = tokenizeLines lines →
          evaluate patience settings lines' = evaluate patience settings lines)
      ∧ ∀ (o : Outcome Cell) (cause : EvalError),
          (Session.new settings).evalLines patience lines = some o → o.error = some cause →
            ∀ more, evaluate patience settings (lines ++ more) = some (.error cause))
    ∧ ∀ (s : Session Cell), s.mode = .interpreting → s.dictionary.get? ":" = none →
      ∀ (name : Token) (body : List Token), ";" ∉ body →
        ∀ lines : List String, tokenizeLines lines = definitionTokens name body →
          ∀ patience, ∃ log,
            s.evalLines (patience + 2) lines = some ⟨s.define name body, none, 0, log⟩ := by
  refine ⟨fun a w b hne hblank => ?cut, tokenizeLines_textLines, fun patience settings lines =>
    ⟨?evaluate, ?same, ?failed⟩, ?definition⟩
  case cut =>
    have htokens := tokenize_append_blank a b hne hblank
    exact ⟨htokens, Session.evalLine_of_tokenize_eq htokens⟩
  case evaluate =>
    rw [evaluate_eq_feed]
    congr 1
    funext o
    rw [Outcome.verdict]
    cases o.error with
    | some cause => rfl
    | none => cases o.session.unclosed? <;> rfl
  case same =>
    intro lines' h
    rw [evaluate_eq_feed, evaluate_eq_feed, h]
  case failed => exact fun o cause ho hfail => evaluate_append_of_failed ho hfail
  case definition =>
    intro s hmode hopening name body hfree lines hlines patience
    rw [Session.evalLines_eq_feed, hlines]
    exact (Session.settles_definition hmode hopening name hfree).feed patience

/-- A definition that is spread over three lines, with an ideographic space and a line separator
among the white space, and the values of the source it stands in. -/
theorem line_breaks_invisible_square :
    let first := ": sq"
    let second := "dup *"
    let lines := [first, second, "; 3 sq"]
    tokenize (first ++ "\u3000\u2028" ++ second) = tokenize first ++ tokenize second
      ∧ tokenizeLines (Text.textLines "a\r\n\nb") = ["a", "b"]
      ∧ evaluate 6 .plain lines = evaluate 6 .plain [": sq dup * ; 3 sq"]
      ∧ evaluate 6 .plain (["1 +"] ++ lines) = some (.error .stackUnderflow)
      ∧ ∃ log, (Session.new .plain : Session Cell).evalLines 2 [first, second, ";"]
          = some ⟨(Session.new .plain : Session Cell).define "sq" ["dup", "*"], none, 0, log⟩ := by
  intro first second lines
  obtain ⟨hcut, htext, hevaluate, hdefinition⟩ := line_breaks_invisible
  refine ⟨?cut, ?text, ?same, ?failed, ?definition⟩
  case cut =>
    exact (hcut first "\u3000\u2028" second (by decide) (List.all_eq_true.1 (by decide))).1
  case text =>
    rw [htext]
    decide +kernel
  case same => exact (hevaluate 6 .plain _).2.1 lines (by decide +kernel)
  case failed =>
    have htokens : tokenize "1 +" = ["1", "+"] := by decide +kernel
    refine (hevaluate 6 .plain ["1 +"]).2.2 ⟨Session.new .plain, some .stackUnderflow, 0, []⟩ _ ?_
      rfl lines
    rw [Session.evalLines_eq_feed, tokenizeLines, List.flatMap_singleton, htokens]
    rfl
  case definition =>
    exact hdefinition _ rfl rfl "sq" ["dup", "*"] (by decide) _ (by decide +kernel) 0

end Concatenative
