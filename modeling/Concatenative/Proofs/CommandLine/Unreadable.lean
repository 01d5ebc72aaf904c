/-
Nothing is evaluated unless everything can be read.

The program collects the lines of all its sources before it evaluates any of them, so a source
that cannot be read leaves no trace of the others: neither what they would have left nor what
would have been wrong with them, nor that they would never have come to an end. What keeps a
source from being read is `obstacle?`, and the first source with an obstacle is what the program
tells of (`linesOf_first_unreadable`), whatever is known of those behind it.

Standard input is decoded as a whole, although it is a line that is bad. It comes to the same,
since the lines of a text are texts (`Text.fromUTF8?_eq_none_of_byteLines`).

There are names for which this is not all. The empty one is refused as an argument, before anything
is read, and one with a line feed in it is quoted as it stands.
-/
import Concatenative.CommandLine.Report
import Concatenative.Proofs.CommandLine.Arguments
import Concatenative.Proofs.CommandLine.Directory
import Concatenative.Proofs.Text.Encoding

set_option autoImplicit false

namespace Concatenative

/-! ## Bad lines -/

namespace Text

/-- What is decoded is the bytes of a text. -/
theorem eq_toUTF8_of_fromUTF8? {bytes : ByteArray} {text : String}
    (h : String.fromUTF8? bytes = some text) : bytes = text.toUTF8 := by
  rw [String.fromUTF8?] at h
  split at h
  · cases h
    rfl
  · cases h

/-- A line that is no text makes the whole no text. -/
theorem fromUTF8?_eq_none_of_byteLines {bytes : ByteArray}
    (h : ∃ line ∈ byteLines bytes, String.fromUTF8? line = none) :
    String.fromUTF8? bytes = none := by
  obtain ⟨line, hline, hbad⟩ := h
  cases htext : String.fromUTF8? bytes with
  | none => rfl
  | some text =>
    rw [eq_toUTF8_of_fromUTF8? htext, byteLines_toUTF8] at hline
    obtain ⟨part, -, rfl⟩ := List.mem_map.1 hline
    rw [fromUTF8?_toUTF8] at hbad
    cases hbad

end Text

namespace CommandLine

/-! ## Obstacles -/

/-- What keeps a source from being read, if anything does: that there is no getting at its
contents, or that they are no text. -/
def obstacle? : Except ReadError ByteArray → Option ReadError
  | .error cause => some cause
  | .ok bytes => if (String.fromUTF8? bytes).isNone then some .notText else none

@[simp] theorem obstacle?_toUTF8 (text : String) : obstacle? (.ok text.toUTF8) = none := by
  rw [obstacle?, Text.fromUTF8?_toUTF8]
  rfl

theorem obstacle?_of_not_text {bytes : ByteArray} (h : String.fromUTF8? bytes = none) :
    obstacle? (.ok bytes) = some .notText := by
  rw [obstacle?, h]
  rfl

/-- A source with an obstacle cannot be read. -/
theorem sourceLines_of_obstacle {contents : Except ReadError ByteArray} {cause : ReadError}
    (h : obstacle? contents = some cause) (name : String) :
    sourceLines name contents = .error ⟨name, cause⟩ := by
  cases contents with
  | error e =>
    cases h
    rfl
  | ok bytes =>
    rw [obstacle?] at h
    split at h
    case isTrue hnone =>
      cases h
      rw [sourceLines]
      simp only [Option.isNone_iff_eq_none.1 hnone]
    case isFalse => cases h

/-- A source without one can. -/
theorem sourceLines_of_no_obstacle {contents : Except ReadError ByteArray}
    (h : obstacle? contents = none) (name : String) :
    ∃ lines, sourceLines name contents = .ok lines := by
  cases contents with
  | error e => cases h
  | ok bytes =>
    cases htext : String.fromUTF8? bytes with
    | none =>
      rw [obstacle?_of_not_text htext] at h
      cases h
    | some text =>
      refine ⟨Text.textLines text, ?_⟩
      rw [sourceLines]
      simp only [htext]

section

variable {read : String → Except ReadError ByteArray}

/-- If some file cannot be read, one of them is the first. -/
theorem exists_first_unreadable {names : List String}
    (h : ∃ name ∈ names, obstacle? (read name) ≠ none) :
    ∃ front bad rest cause, names = front ++ bad :: rest
      ∧ (∀ name ∈ front, obstacle? (read name) = none) ∧ obstacle? (read bad) = some cause := by
  obtain ⟨name, hname, hne⟩ := h
  have hsome : (names.findSome? fun name => obstacle? (read name)).isSome = true :=
    List.findSome?_isSome_iff.2 ⟨name, hname, Option.isSome_iff_ne_none.2 hne⟩
  obtain ⟨cause, hcause⟩ := Option.isSome_iff_exists.1 hsome
  obtain ⟨front, bad, rest, hsplit, hbad, hfront⟩ := List.findSome?_eq_some_iff.1 hcause
  exact ⟨front, bad, rest, cause, hsplit, hfront, hbad⟩

variable {front : List String} {bad : String} {cause : ReadError}
  (hfront : ∀ name ∈ front, obstacle? (read name) = none)
  (hbad : obstacle? (read bad) = some cause)

include hfront hbad

theorem mapM_first_unreadable (rest : List String) :
    (front ++ bad :: rest).mapM (fun name => sourceLines name (read name))
      = .error ⟨bad, cause⟩ := by
  induction front with
  | nil =>
    rw [List.nil_append, List.mapM_cons, sourceLines_of_obstacle hbad]
    rfl
  | cons name front ih =>
    obtain ⟨hname, hfront⟩ := List.forall_mem_cons.1 hfront
    obtain ⟨lines, hlines⟩ := sourceLines_of_no_obstacle hname name
    rw [List.cons_append, List.mapM_cons, hlines, ih hfront]
    rfl

/-- The first file that cannot be read is what there is to tell of the files. -/
theorem linesOf_first_unreadable (rest : List String) (stdin : ByteArray) :
    linesOf (front ++ bad :: rest) read stdin = .error ⟨bad, cause⟩ := by
  rw [linesOf, mapM_first_unreadable hfront hbad]
  · rfl
  · simp

end

/-! ## The program -/

/-- A source that cannot be read is all that the program tells of. -/
theorem respond_unreadable {arguments : List String} {request : Request}
    (hasked : Invocation.ofArguments arguments = .ok (.evaluation request))
    {read : String → Except ReadError ByteArray} {stdin : ByteArray} {u : UnreadableSource}
    (hlines : linesOf request.files read stdin = .error u) (patience : Nat) :
    respond patience arguments read stdin = some ⟨1, "", u.message⟩ := by
  rw [respond, hasked]
  simp only [Report.ofRequest, hlines, Report.ofUnreadable]

/-- **Nothing is evaluated unless everything can be read.** If the arguments ask for files of
which some cannot be read, there is a first one; and whatever else is in the files before it, as
long as these can be read, whatever becomes of those behind it, and whatever the patience, the
program tells of that file and of nothing else. If they ask for no files, the same is true of
standard input if one of its lines is no text. And names of files can be asked for with any limit
and level in front. -/
theorem nothing_evaluated_unless_all_read :
    (∀ (arguments : List String) (request : Request),
      Invocation.ofArguments arguments = .ok (.evaluation request) →
      (∀ name ∈ request.logLevel, IsLevelName name) →
        (∀ read : String → Except ReadError ByteArray,
          (∃ name ∈ request.files, obstacle? (read name) ≠ none) →
            ∃ front bad rest cause, request.files = front ++ bad :: rest
              ∧ (∀ name ∈ front, obstacle? (read name) = none)
              ∧ obstacle? (read bad) = some cause
              ∧ ∀ patience (read' : String → Except ReadError ByteArray) stdin,
                (∀ name ∈ front, obstacle? (read' name) = none) →
                obstacle? (read' bad) = some cause →
                  respond patience arguments read' stdin
                    = some ⟨1, "", "Error: reading " ++ bad ++ "\n\nCaused by:\n    "
                        ++ cause.message ++ "\n"⟩)
        ∧ (request.files = [] →
          ∀ stdin, (∃ line ∈ Text.byteLines stdin, String.fromUTF8? line = none) →
            ∀ patience read, respond patience arguments read stdin
              = some ⟨1, "", "Error: reading stdin\n\nCaused by:\n    "
                  ++ "stream did not contain valid UTF-8\n"⟩))
    ∧ ∀ (limit : Option Nat) (level : Option String) (names : List String),
      (∀ n ∈ limit, n < 2 ^ 64) → (∀ name ∈ level, IsLevelName name) →
      (∀ name ∈ names, IsFileName name) →
        Invocation.ofArguments (limitOption limit ++ levelOption level ++ names)
          = .ok (.evaluation ⟨limit, level, names⟩) := by
  refine ⟨fun arguments request hasked _ => ⟨fun read hunreadable => ?files,
    fun hnone stdin hbad patience read => ?stdin⟩,
    fun limit level names hlimit hlevel hnames => ?asked⟩
  case files =>
    obtain ⟨front, bad, rest, cause, hsplit, hfront, hbad⟩ := exists_first_unreadable hunreadable
    refine ⟨front, bad, rest, cause, hsplit, hfront, hbad, ?_⟩
    intro patience read' stdin hfront' hbad'
    have hlines := linesOf_first_unreadable hfront' hbad' rest stdin
    rw [← hsplit] at hlines
    exact respond_unreadable hasked hlines patience
  case stdin =>
    have hlines : linesOf request.files read stdin = .error ⟨"stdin", .notText⟩ := by
      have htext := Text.fromUTF8?_eq_none_of_byteLines hbad
      rw [hnone]
      exact sourceLines_of_obstacle (obstacle?_of_not_text htext) "stdin"
    exact respond_unreadable hasked hlines patience
  case asked =>
    exact ofArguments_append_names hnames (ofArguments_options hlimit hlevel) rfl

/-- A word that never comes to an end, and behind it a file that is missing and a directory: the
missing file is told of, at once. And so is a bad line that stands behind good ones. -/
theorem nothing_evaluated_unless_all_read_missing :
    let files := [("loop", ": a a ; a\n".toUTF8), ("lib/sq", ": sq dup * ;\n".toUTF8)]
    let read := (Directory.ofFiles files).read
    let names := ["loop", "gone", "lib"]
    let stdin : ByteArray := ⟨#[0x31, 0x0A, 0xFF, 0x0A]⟩
    (∀ name ∈ names, IsFileName name) ∧ IsLevelName "Trace"
      ∧ (∃ name ∈ names, obstacle? (read name) ≠ none)
      ∧ respond 0 (limitOption (some 3) ++ levelOption (some "Trace") ++ names) read .empty
        = some ⟨1, "", "Error: reading gone\n\nCaused by:\n    "
            ++ "No such file or directory (os error 2)\n"⟩
      ∧ (∃ line ∈ Text.byteLines stdin, String.fromUTF8? line = none)
      ∧ respond 0 [] read stdin
        = some ⟨1, "", "Error: reading stdin\n\nCaused by:\n    "
            ++ "stream did not contain valid UTF-8\n"⟩ := by
  intro files read names stdin
  have hnames : ∀ name ∈ names, IsFileName name := by
    intro name hname
    simp only [names, List.mem_cons, List.not_mem_nil, or_false] at hname
    rcases hname with rfl | rfl | rfl <;> exact ⟨_, _, rfl, by decide⟩
  have hlevel : IsLevelName "Trace" := by
    rw [IsLevelName]
    decide +kernel
  have hloop : obstacle? (read "loop") = none := by
    have hread : read "loop" = .ok ": a a ; a\n".toUTF8 :=
      Directory.read_ofFiles (by decide) (by decide) _ List.mem_cons_self
    rw [hread]
    exact obstacle?_toUTF8 _
  have hgone : obstacle? (read "gone") = some .notFound := by decide +kernel
  have hbad : ∃ name ∈ names, obstacle? (read name) ≠ none :=
    ⟨"gone", by decide, by rw [hgone]; simp⟩
  have hlines : Text.byteLines stdin = [⟨#[0x31]⟩, ⟨#[0xFF]⟩] := rfl
  have hline : ∃ line ∈ Text.byteLines stdin, String.fromUTF8? line = none := by
    rw [hlines]
    exact ⟨⟨#[0xFF]⟩, List.mem_cons_of_mem _ List.mem_cons_self, by decide +kernel⟩
  obtain ⟨hall, hasks⟩ := nothing_evaluated_unless_all_read
  have hasked := hasks (some 3) (some "Trace") names (by simp) (by simpa using hlevel) hnames
  obtain ⟨front, bad, rest, cause, hsplit, hfront, hfirst, htold⟩ :=
    (hall _ _ hasked (by simpa using hlevel)).1 read hbad
  obtain ⟨rfl, rfl⟩ : bad = "gone" ∧ cause = .notFound := by
    change ["loop", "gone", "lib"] = _ at hsplit
    match front with
    | [] =>
      cases hsplit
      cases hloop.symm.trans hfirst
    | [_] =>
      cases hsplit
      exact ⟨rfl, (Option.some.inj (hgone.symm.trans hfirst)).symm⟩
    | _ :: second :: _ =>
      obtain ⟨rfl, -⟩ := List.cons.inj (List.cons.inj hsplit).2
      cases hgone.symm.trans (hfront "gone" (by simp))
  have hnone := hasks none none [] (by simp) (by simp) (by simp)
  exact ⟨hnames, hlevel, hbad, htold 0 read .empty hfront hfirst, hline,
    (hall _ _ hnone (by simp)).2 rfl stdin hline 0 read⟩

/-- **Not every name that cannot be read is told of as one.** The empty name is refused as an
argument. Any other is quoted as it stands, so with a line feed in it the report has a line like
that of an evaluation that failed. -/
theorem names_refused_or_quoted :
    (¬ ∀ (names : List String) (read : String → Except ReadError ByteArray) (stdin : ByteArray)
        (patience : Nat), (∀ name ∈ names, name.toList.head? ≠ some '-') →
      (∃ name ∈ names, obstacle? (read name) ≠ none) →
        ∃ report, respond patience names read stdin = some report ∧ report.code = 1)
    ∧ ¬ ∀ (names : List String) (read : String → Except ReadError ByteArray) (stdin : ByteArray)
        (patience : Nat), (∀ name ∈ names, IsFileName name) →
      (∃ name ∈ names, obstacle? (read name) ≠ none) →
        ∃ report, respond patience names read stdin = some report
          ∧ ∀ line ∈ Text.textLines report.stderr, ¬ "error: ".toList <+: line.toList := by
  constructor
  · intro h
    obtain ⟨report, hreport, hcode⟩ := h [""] (fun _ => .error .notFound) .empty 0 (by decide)
      ⟨"", List.mem_singleton_self _, by simp [obstacle?]⟩
    have hrefused : (respond 0 [""] (fun _ => .error .notFound) .empty).map Report.code
        = some 2 := rfl
    rw [hreport, Option.map_some, hcode] at hrefused
    cases hrefused
  · intro h
    have hname : ∀ name ∈ ["a\nerror: b"], IsFileName name :=
      List.forall_mem_singleton.2 ⟨'a', _, rfl, by decide⟩
    have hmissing : obstacle? (Directory.empty.read "a\nerror: b") = some .notFound := by
      decide +kernel
    obtain ⟨report, hreport, hlines⟩ := h ["a\nerror: b"] Directory.empty.read .empty 0 hname
      ⟨_, List.mem_singleton_self _, by rw [hmissing]; simp⟩
    have hstderr : (respond 0 ["a\nerror: b"] Directory.empty.read .empty).map
        (fun report => Text.textLines report.stderr) = some ["Error: reading a", "error: b", "",
          "Caused by:", "    No such file or directory (os error 2)"] := by
      decide +kernel
    rw [hreport, Option.map_some] at hstderr
    refine hlines "error: b" ?_ (by decide)
    rw [Option.some.inj hstderr]
    decide

end CommandLine

end Concatenative
