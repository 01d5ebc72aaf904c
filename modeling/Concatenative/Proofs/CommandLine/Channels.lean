/-
Files, standard input and evaluation by itself.

The program collects the lines of all its sources and evaluates them in one session. So it
tells what evaluating the contents of the files comes to (`tells_evaluate`), and it cannot
matter whether these contents stand in files or come in on standard input. All of it rests on
tokens: the boundaries of lines and of files are white space, and neither cutting the contents
into lines (`tokenizeLines_textLines`) nor putting them in a row (`tokenize_joined`) joins, splits
or loses a token.

Evaluation by itself keeps no log and the program does, which makes no difference to what comes
of it (`evaluate_verbosity`).
-/
import Concatenative.CommandLine.Report
import Concatenative.Proofs.Cause
import Concatenative.Proofs.CommandLine.Arguments
import Concatenative.Proofs.CommandLine.Directory
import Concatenative.Proofs.Dependence
import Concatenative.Proofs.Hoisting
import Concatenative.Proofs.Text.Encoding

set_option autoImplicit false

namespace Concatenative

/-! ## Evaluation and the log -/

/-- A line has the same outcome in a session that keeps another log. -/
theorem Session.evalLine_same {α : Type} [Arithmetic α] {s s' : Session α} (hs : s.Beside s')
    (hwords : ∀ word, s'.dictionary.get? word = s.dictionary.get? word) (patience : Nat)
    (line : String) :
    Option.Rel Outcome.Same (s.evalLine patience line) (s'.evalLine patience line) := by
  -- A line is a sequence of one call.
  have hanswers := Session.answers_same hs hwords patience [.line line]
  simp only [Session.answers, Session.answer] at hanswers
  cases hfirst : s.evalLine patience line with
  | none =>
    cases hsecond : s'.evalLine patience line with
    | none => exact .none
    | some o' =>
      rw [hfirst, hsecond] at hanswers
      cases hanswers
  | some o =>
    rw [hfirst] at hanswers
    obtain ⟨answers', hanswers', hall⟩ := exists_of_rel_some hanswers
    obtain ⟨o', hsecond, hcons⟩ := Option.bind_eq_some_iff.1 hanswers'
    rw [hsecond]
    cases hcons
    cases hall with
    | cons hsame _ => exact .some hsame

/-- Texts below each other have the tokens of the texts. -/
theorem tokenize_joined_lines (texts : List String) :
    tokenize (joined "\n" texts) = tokenizeLines texts :=
  tokenize_joined (by decide) (List.all_eq_true.1 (by decide)) texts

/-- To evaluate lines is to evaluate them as one, with white space between them. -/
theorem evaluate_eq_evalLine (patience : Nat) (settings : Settings) (lines : List String) :
    evaluate patience settings lines
      = ((Session.new settings).evalLine patience (joined "\n" lines)).map Outcome.verdict := by
  rw [evaluate_eq_feed, Session.evalLine, tokenize_joined_lines]

/-- What a source comes to does not depend on the log that is kept. -/
theorem evaluate_verbosity (patience : Nat) (limit : Option Nat) (verbosity verbosity' : Verbosity)
    (lines : List String) :
    evaluate patience ⟨limit, verbosity'⟩ lines = evaluate patience ⟨limit, verbosity⟩ lines := by
  have hsame : Option.Rel Outcome.Same
      ((Session.new ⟨limit, verbosity⟩ : Session Cell).evalLine patience (joined "\n" lines))
      ((Session.new ⟨limit, verbosity'⟩ : Session Cell).evalLine patience (joined "\n" lines)) := by
    apply Session.evalLine_same
    · exact ⟨rfl, rfl, rfl⟩
    · exact fun _ => rfl
  rw [evaluate_eq_evalLine, evaluate_eq_evalLine]
  exact eq_of_rel (rel_map hsame fun _ _ h => h.verdict_eq.symm)

/-! ## The last line -/

namespace Text

theorem textLines_of_isLine {line : String} (h : IsLine line) :
    textLines (line ++ "\n") = [line] := by
  have hfeed : '\n' ∉ line.toList := fun hmem => (h _ hmem).1 rfl
  have hreturn : line.toList.getLast? ≠ some '\r' :=
    fun hlast => (h _ (List.mem_of_getLast? hlast)).2 rfl
  have hlist : (line ++ "\n").toList = line.toList ++ '\n' :: [] := String.toList_append ..
  rw [textLines, hlist, lines_append_cons _ _ _ _ hfeed, lines_nil, withoutReturn, if_neg hreturn,
    List.map_singleton, String.ofList_toList]

/-- A line that is added to a text that is empty or ends with a line feed is its last one. -/
theorem getLast?_textLines {text line : String} (h : text = "" ∨ ∃ front, text = front ++ "\n")
    (hline : IsLine line) : (textLines (text ++ (line ++ "\n"))).getLast? = some line := by
  rcases h with rfl | ⟨front, rfl⟩
  · rw [String.empty_append, textLines_of_isLine hline]
    rfl
  · have hlist : (front ++ "\n" ++ (line ++ "\n")).toList
        = front.toList ++ '\n' :: (line ++ "\n").toList := by
      simp only [String.toList_append, List.append_assoc]
      rfl
    have hsplit : textLines (front ++ "\n" ++ (line ++ "\n"))
        = (lines '\n' '\r' (front.toList ++ ['\n'])).map String.ofList
          ++ textLines (line ++ "\n") := by
      rw [textLines, hlist, lines_append_feed, List.map_append, textLines]
    rw [hsplit, textLines_of_isLine hline, List.getLast?_concat]

end Text

namespace CommandLine

/-! ## Reports -/

/-- The report of a program that says what its source has come to: the values alone, or what is
wrong below the log. -/
def Report.Tells (report : Report) : Except EvalError String → Prop
  | .ok values => report.code = 0 ∧ report.stdout = values ++ "\n"
  | .error cause =>
    report.code = 1 ∧ report.stdout = ""
      ∧ (Text.textLines report.stderr).getLast? = some ("error: " ++ cause.message)

/-- The log is empty or ends with a line feed. -/
theorem log_eq (records : List (Record Cell)) :
    String.join (records.map logLine) = ""
      ∨ ∃ front, String.join (records.map logLine) = front ++ "\n" := by
  rcases List.eq_nil_or_concat' records with rfl | ⟨before, record, rfl⟩
  · exact .inl rfl
  · have hjoin : String.join ((before ++ [record]).map logLine)
        = String.join (before.map logLine) ++ logLine record := by
      rw [List.map_append, String.join, List.foldl_append]
      rfl
    exact .inr ⟨_, hjoin.trans (String.append_assoc ..).symm⟩

theorem Report.ofOutcome_tells {o : Outcome Cell}
    (h : ∀ cause, o.verdict = .error cause → IsLine cause.message) :
    (Report.ofOutcome o).Tells o.verdict := by
  rw [ofOutcome]
  cases hverdict : o.verdict with
  | ok values => exact ⟨rfl, rfl⟩
  | error cause =>
    have hfront : IsLine "error: " := isLine_of_all (by decide)
    have hline : IsLine ("error: " ++ cause.message) := hfront.append (h cause hverdict)
    have hlast := Text.getLast?_textLines (log_eq o.records) hline
    rw [← String.append_assoc, ← String.append_assoc] at hlast
    exact ⟨rfl, rfl, hlast⟩

/-! ## Sources -/

/-- Texts are read under their names. -/
def Provides (read : String → Except ReadError ByteArray) (sources : List (String × String)) :
    Prop :=
  ∀ source ∈ sources, read source.1 = .ok source.2.toUTF8

/-- Texts that have been written to files are read under their paths. -/
theorem provides_ofFiles {sources : List (String × String)}
    (hplain : ∀ source ∈ sources, IsPlainPath source.1) (hdistinct : (sources.map Prod.fst).Nodup) :
    Provides (Directory.ofFiles (sources.map fun source => (source.1, source.2.toUTF8))).read
      sources := by
  have hfiles : ∀ file ∈ sources.map fun source => (source.1, source.2.toUTF8),
      IsPlainPath file.1 := List.forall_mem_map.2 hplain
  have hpaths : (sources.map fun source => (source.1, source.2.toUTF8)).map Prod.fst
      = sources.map Prod.fst := by
    rw [List.map_map]
    rfl
  intro source hsource
  exact Directory.read_ofFiles hfiles (hpaths ▸ hdistinct) _ (List.mem_map_of_mem hsource)

theorem sourceLines_toUTF8 (name text : String) :
    sourceLines name (.ok text.toUTF8) = .ok (Text.textLines text) := by
  rw [sourceLines]
  simp only [Text.fromUTF8?_toUTF8]

theorem mapM_sourceLines {read : String → Except ReadError ByteArray}
    {sources : List (String × String)} (hread : Provides read sources) :
    (sources.map Prod.fst).mapM (fun name => sourceLines name (read name))
      = .ok (sources.map fun source => Text.textLines source.2) := by
  induction sources with
  | nil => rfl
  | cons source rest ih =>
    obtain ⟨hsource, hrest⟩ := List.forall_mem_cons.1 hread
    rw [List.map_cons, List.mapM_cons, hsource, sourceLines_toUTF8, ih hrest]
    rfl

/-- The lines of files are the lines of one after those of the other. -/
theorem linesOf_names {read : String → Except ReadError ByteArray}
    {sources : List (String × String)} (hne : sources ≠ []) (hread : Provides read sources)
    (stdin : ByteArray) :
    linesOf (sources.map Prod.fst) read stdin
      = .ok ((sources.map Prod.snd).flatMap Text.textLines) := by
  obtain ⟨first, rest, rfl⟩ := List.exists_cons_of_ne_nil hne
  have hlines := mapM_sourceLines hread
  rw [List.map_cons] at hlines ⊢
  rw [linesOf, hlines]
  · simp only [List.flatMap_def, List.map_map]
    rfl
  · exact List.cons_ne_nil _ _

/-- The lines of files have the tokens of their contents. -/
theorem tokenizeLines_flatMap (contents : List String) :
    tokenizeLines (contents.flatMap Text.textLines) = tokenizeLines contents := by
  rw [tokenizeLines, List.flatMap_assoc]
  exact List.flatMap_congr fun text _ => tokenizeLines_textLines text

/-! ## The program -/

/-- What the program answers to a request depends on its lines through their tokens. -/
theorem ofRequest_eq {request : Request} {read : String → Except ReadError ByteArray}
    {stdin : ByteArray} {lines texts : List String}
    (hlines : linesOf request.files read stdin = .ok lines)
    (htokens : tokenizeLines lines = tokenizeLines texts) (patience : Nat) :
    Report.ofRequest patience request read stdin
      = ((Session.new request.settings).evalLines patience texts).map Report.ofOutcome := by
  rw [Report.ofRequest, hlines]
  simp only [Session.evalLines_eq_feed, htokens]

/-- The report on texts tells what evaluating them comes to, whatever log is kept. -/
theorem tells_evaluate (patience : Nat) (settings : Settings) (verbosity : Verbosity)
    (texts : List String) :
    Option.Rel Report.Tells
      (((Session.new settings).evalLines patience texts).map Report.ofOutcome)
      (evaluate patience ⟨settings.maxExpansions, verbosity⟩ texts) := by
  rw [evaluate_verbosity patience settings.maxExpansions settings.verbosity verbosity, evaluate,
    Session.evalLines_eq_feed]
  cases ho : (Session.new settings : Session Cell).feed patience (tokenizeLines texts) with
  | none => exact .none
  | some o =>
    -- The message is one line, because the tokens it quotes have come out of a text.
    refine .some (Report.ofOutcome_tells fun cause hverdict => isLine_of_verdict ?_ ho hverdict)
    intro t ht
    obtain ⟨text, -, htext⟩ := List.mem_flatMap.1 ht
    exact isToken_of_mem_tokenize htext

/-- Files are answered like the texts they hold, and so is standard input that holds these texts
with line feeds between them. -/
theorem respond_eq {options : List String} {request : Request}
    (hoptions : Invocation.ofArguments options = .ok (.evaluation request))
    (hfiles : request.files = []) {read : String → Except ReadError ByteArray}
    {sources : List (String × String)} (hne : sources ≠ [])
    (hnames : ∀ source ∈ sources, IsFileName source.1) (hread : Provides read sources)
    (patience : Nat) (stdin : ByteArray) :
    respond patience (options ++ sources.map Prod.fst) read stdin
        = ((Session.new request.settings).evalLines patience (sources.map Prod.snd)).map
          Report.ofOutcome
      ∧ respond patience options read (joined "\n" (sources.map Prod.snd)).toUTF8
        = ((Session.new request.settings).evalLines patience (sources.map Prod.snd)).map
          Report.ofOutcome := by
  constructor
  · have hnames' : ∀ name ∈ sources.map Prod.fst, IsFileName name := List.forall_mem_map.2 hnames
    rw [respond, ofArguments_append_names hnames' hoptions hfiles]
    exact ofRequest_eq (linesOf_names hne hread stdin) (tokenizeLines_flatMap _) patience
  · have hlines : linesOf request.files read (joined "\n" (sources.map Prod.snd)).toUTF8
        = .ok (Text.textLines (joined "\n" (sources.map Prod.snd))) := by
      rw [hfiles]
      exact sourceLines_toUTF8 "stdin" _
    -- Here the line feeds between the texts are cut at as well, which adds no token.
    have htokens : tokenizeLines (Text.textLines (joined "\n" (sources.map Prod.snd)))
        = tokenizeLines (sources.map Prod.snd) := by
      rw [tokenizeLines_textLines, tokenize_joined_lines]
    rw [respond, hoptions]
    exact ofRequest_eq hlines htokens patience

/-- **The program answers files, standard input and evaluation by itself alike.** With any limit
and any file names behind it, under which texts can be read, the program ends if evaluating the
texts does, each as one line and with whatever log, and tells what this comes to: it leaves the
values and the exit code zero, or nothing and the exit code one, and then the last line of the
error stream says what is wrong. Without the files, and with their texts on standard input one
below the other, its answer is the same, the log included. -/
theorem channels_agree {limit : Option Nat} (hlimit : ∀ n ∈ limit, n < 2 ^ 64)
    {read : String → Except ReadError ByteArray} {sources : List (String × String)}
    (hne : sources ≠ []) (hnames : ∀ source ∈ sources, IsFileName source.1)
    (hread : Provides read sources) (patience : Nat) (stdin : ByteArray) :
    (∀ verbosity : Verbosity, Option.Rel Report.Tells
        (respond patience (limitOption limit ++ sources.map Prod.fst) read stdin)
        (evaluate patience ⟨limit, verbosity⟩ (sources.map Prod.snd)))
      ∧ respond patience (limitOption limit) read (joined "\n" (sources.map Prod.snd)).toUTF8
        = respond patience (limitOption limit ++ sources.map Prod.fst) read stdin := by
  obtain ⟨hfiles, hinput⟩ := respond_eq (ofArguments_limitOption hlimit) rfl hne hnames hread
    patience stdin
  refine ⟨fun verbosity => ?tells, ?input⟩
  case tells =>
    rw [hfiles]
    exact tells_evaluate patience _ verbosity _
  case input => rw [hfiles, hinput]

/-- A definition that begins in one file of a directory, with a carriage return at the end of a
line, and ends in a file of another below it. -/
theorem channels_agree_square :
    let sources := [("head", ": sq dup\r\n"), ("lib/tail", "*\r; 3\nsq")]
    let directory := Directory.ofFiles (sources.map fun source => (source.1, source.2.toUTF8))
    ∃ report, report.Tells (.ok "9")
      ∧ respond 0 ["--max-expansions", "1", "head", "lib/tail"] directory.read .empty
        = some report
      ∧ respond 0 ["--max-expansions", "1"] directory.read ": sq dup\r\n\n*\r; 3\nsq".toUTF8
        = some report := by
  intro sources directory
  have hnames : ∀ source ∈ sources, IsFileName source.1 :=
    List.forall_mem_cons.2 ⟨⟨'h', _, rfl, by decide⟩,
      List.forall_mem_singleton.2 ⟨'l', _, rfl, by decide⟩⟩
  have hread : Provides directory.read sources := provides_ofFiles (by decide) (by decide)
  have hlimit : ∀ n ∈ some 1, n < 2 ^ 64 := by
    rintro n ⟨⟩
    decide
  have hvalues : evaluate 0 ⟨some 1, none⟩ (sources.map Prod.snd) = some (.ok "9") := by
    have htokens : tokenizeLines (sources.map Prod.snd)
        = [":", "sq", "dup", "*", ";", "3", "sq"] := by
      decide +kernel
    rw [evaluate_eq_feed, htokens]
    rfl
  obtain ⟨htells, hinput⟩ := channels_agree hlimit (List.cons_ne_nil _ _) hnames hread 0 .empty
  obtain ⟨report, hanswer, htold⟩ := exists_of_rel_some_right (hvalues ▸ htells none)
  exact ⟨report, htold, hanswer, hinput.trans hanswer⟩

end CommandLine

end Concatenative
