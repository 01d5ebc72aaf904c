/-
Tokens that are dealt with one by one.

Most of what is typed expands nothing: numbers are put on the stack, and what stands
inside a definition is taken in as it is, be it a word, a number or nonsense.
`Session.Settles` says of a list of tokens that each is dealt with by one dispatch.
Such a list is fed without failure under any limit (`Settles.feed`), in whatever way
it is cut into lines (`Settles.answers`), and lists that follow each other compose.
-/
import Concatenative.Proofs.Reachability
import Concatenative.Proofs.Vocabulary

set_option autoImplicit false

namespace Concatenative

/-! ## Lists of tokens -/

/-- The tokens of an open definition so far. -/
def Mode.tokens : Mode → List Token
  | interpreting => []
  | naming => [":"]
  | compiling name body => ":" :: name :: body

/-- The tokens of a definition. -/
def definitionTokens (name : Token) (body : List Token) : List Token :=
  ":" :: name :: (body ++ [";"])

/-- The session deals with the tokens one after the other, with one dispatch each, and
is `s'` in the end. -/
inductive Session.Settles {α : Type} [Arithmetic α] : Session α → List Token → Session α → Prop
  | nil {s : Session α} : Settles s [] s
  | cons {s mid s' : Session α} {token : Token} {rest : List Token} {news : List (Record α)}
      (h : s.dispatch token = .settled mid news) (hrest : Settles mid rest s') :
      Settles s (token :: rest) s'

namespace Session

variable {α : Type} [Arithmetic α]

theorem settles_append_iff {s s' : Session α} {first second : List Token} :
    s.Settles (first ++ second) s' ↔ ∃ mid, s.Settles first mid ∧ mid.Settles second s' := by
  induction first generalizing s with
  | nil =>
    constructor
    · exact fun h => ⟨s, .nil, h⟩
    · rintro ⟨mid, ⟨⟩, h⟩
      exact h
  | cons token rest ih =>
    constructor
    · intro h
      cases h with
      | cons hd hrest =>
        obtain ⟨mid, hfirst, hsecond⟩ := ih.1 hrest
        exact ⟨mid, .cons hd hfirst, hsecond⟩
    · rintro ⟨mid, h, hsecond⟩
      cases h with
      | cons hd hfirst => exact .cons hd (ih.2 ⟨mid, hfirst, hsecond⟩)

theorem Settles.trans {s mid s' : Session α} {first second : List Token}
    (h : s.Settles first mid) (h' : mid.Settles second s') : s.Settles (first ++ second) s' :=
  settles_append_iff.2 ⟨mid, h, h'⟩

/-- Tokens that are dealt with are fed without failure and without any expansion,
whatever the limit. -/
theorem Settles.feed {s s' : Session α} {tokens : List Token} (h : s.Settles tokens s')
    (patience : Nat) : ∃ log, s.feed (patience + 2) tokens = some ⟨s', none, 0, log⟩ := by
  induction h with
  | nil => exact ⟨[], rfl⟩
  | cons hd _ ih =>
    obtain ⟨log, hlog⟩ := ih
    exact ⟨_, feed_cons_iff.2 ⟨_, evalToken_settled hd patience, .inr ⟨rfl, _, hlog, rfl⟩⟩⟩

/-- What follows is fed as if it came first. -/
theorem Settles.feed_append {s mid : Session α} {first : List Token} (h : s.Settles first mid)
    (second : List Token) (patience : Nat) :
    ∃ log, s.feed (patience + 2) (first ++ second)
      = (mid.feed (patience + 2) second).map (Outcome.followedBy ⟨mid, none, 0, log⟩) := by
  obtain ⟨log, hlog⟩ := h.feed patience
  refine ⟨log, ?_⟩
  rw [Session.feed, Outcome.sequence_append]
  exact congrArg (Option.bind · _) hlog

/-- Lines are dealt with if their tokens are. -/
theorem Settles.answers {s s' : Session α} {lines : List String}
    (h : s.Settles (tokenizeLines lines) s') (patience : Nat) :
    ∃ outcomes, s.answers (patience + 2) (lines.map .line) = some outcomes
      ∧ (∀ o ∈ outcomes, o.error = none ∧ o.expansions = 0)
      ∧ (s :: outcomes.map Outcome.session).getLast? = some s' := by
  induction lines generalizing s with
  | nil =>
    cases h
    exact ⟨[], rfl, List.forall_mem_nil _, rfl⟩
  | cons line rest ih =>
    rw [tokenizeLines, List.flatMap_cons] at h
    obtain ⟨mid, hline, hrest⟩ := settles_append_iff.1 h
    obtain ⟨log, hlog⟩ := hline.feed patience
    obtain ⟨outcomes, houtcomes, hgood, hlast⟩ := ih hrest
    refine ⟨⟨mid, none, 0, log⟩ :: outcomes, ?_, List.forall_mem_cons.2 ⟨⟨rfl, rfl⟩, hgood⟩, ?_⟩
    · have hanswer : s.answer (patience + 2) (.line line) = some ⟨mid, none, 0, log⟩ := hlog
      rw [List.map_cons, Session.answers, hanswer, Option.bind_some, houtcomes]
      rfl
    · rw [List.map_cons, List.getLast?_cons_cons]
      exact hlast

/-! ## What is dealt with -/

/-- Numbers are put on the stack, as long as none of them is a user word. -/
theorem settles_numbers {s : Session Cell} (hmode : s.mode = .interpreting)
    (hfree : ∀ token, s.dictionary.get? token = none) (cells : List Cell) :
    s.Settles (cells.map Cell.text) { s with stack := cells.reverse ++ s.stack } := by
  induction cells generalizing s with
  | nil => exact .nil
  | cons c rest ih =>
    refine .cons (dispatch_number hmode (hfree c.text)) ?_
    rw [List.reverse_cons, List.append_assoc]
    exact ih hmode hfree

/-- An open definition takes tokens in as long as none of them closes it. -/
theorem settles_body {s : Session α} {name : Token} {body : List Token}
    (hmode : s.mode = .compiling name body) {tokens : List Token} (hfree : ";" ∉ tokens) :
    s.Settles tokens { s with mode := .compiling name (body ++ tokens) } := by
  induction tokens generalizing s body with
  | nil =>
    rw [List.append_nil, ← hmode]
    exact .nil
  | cons token rest ih =>
    rw [List.mem_cons, not_or] at hfree
    refine .cons (dispatch_compiling hmode fun e => hfree.1 e.symm) ?_
    have hrest := ih (s := { s with mode := .compiling name (body ++ [token]) }) rfl hfree.2
    rw [List.append_assoc] at hrest
    exact hrest

/-- The tokens that lead to a mode. -/
theorem settles_mode {s : Session α} (hmode : s.mode = .interpreting) {m : Mode}
    (hopening : m ≠ .interpreting → s.dictionary.get? ":" = none)
    (hfree : ∀ name body, m = .compiling name body → ";" ∉ body) :
    s.Settles m.tokens { s with mode := m } := by
  match m with
  | .interpreting =>
    have hsame : ({ s with mode := .interpreting } : Session α) = s := by rw [← hmode]
    rw [hsame]
    exact .nil
  | .naming => exact .cons (dispatch_opening hmode (hopening (by simp))) .nil
  | .compiling name body =>
    have hopened := dispatch_opening hmode (hopening (by simp))
    have hnamed := dispatch_naming (s := { s with mode := .naming }) rfl name
    refine .cons hopened (.cons hnamed ?_)
    exact settles_body (s := { s with mode := .compiling name [] }) rfl (hfree name body rfl)

/-- A definition adds its word, whatever its name and whatever its body refers to. -/
theorem settles_definition {s : Session α} (hmode : s.mode = .interpreting)
    (hopening : s.dictionary.get? ":" = none) (name : Token) {body : List Token}
    (hfree : ";" ∉ body) :
    s.Settles (definitionTokens name body) (s.define name body) := by
  have hopen : s.Settles (":" :: name :: body) { s with mode := .compiling name body } :=
    settles_mode (m := .compiling name body) hmode (fun _ => hopening) fun _ _ e => by
      cases e
      exact hfree
  have hclose : Settles { s with mode := .compiling name body } [";"] (s.define name body) :=
    .cons (dispatch_closing rfl) .nil
  exact hopen.trans hclose

/-- Definitions in a row add their words, one after the other. Up to the last of them the
opening token must not be a user word. -/
theorem settles_extend {s : Session α} (hmode : s.mode = .interpreting)
    {words : List (Token × List Token)} (hopening : words ≠ [] → s.dictionary.get? ":" = none)
    (hlast : ":" ∉ (words.map Prod.fst).dropLast) (hfree : ∀ word ∈ words, ";" ∉ word.2) :
    s.Settles (words.flatMap fun word => definitionTokens word.1 word.2)
      { s with dictionary := s.dictionary.extend words } := by
  induction words generalizing s with
  | nil => exact .nil
  | cons word rest ih =>
    obtain ⟨name, body⟩ := word
    obtain ⟨hbody, hrest⟩ := List.forall_mem_cons.1 hfree
    rw [List.flatMap_cons]
    refine (settles_definition hmode (hopening (by simp)) name hbody).trans ?_
    have hs : ({ s.define name body with
        dictionary := (s.define name body).dictionary.extend rest } : Session α)
        = { s with dictionary := s.dictionary.extend ((name, body) :: rest) } := by
      rw [define, ← hmode]
      rfl
    rw [← hs]
    refine ih rfl (fun hne => ?_) (fun hmem => hlast ?_) hrest
    · -- Something follows, so this name is not the last and not the opening token.
      have hname : ":" ≠ name := by
        rintro rfl
        refine hlast ?_
        rw [List.map_cons, List.dropLast_cons_of_ne_nil (by simpa using hne)]
        exact List.mem_cons_self
      show (s.dictionary.insert name body).get? ":" = none
      rw [Dictionary.get?_insert, if_neg hname]
      exact hopening (by simp)
    · rw [List.map_cons, List.dropLast_cons_of_ne_nil (List.ne_nil_of_mem
        (List.dropLast_subset _ hmem))]
      exact List.mem_cons_of_mem _ hmem

/-- The definitions of words that are not there yet add them, in order. Up to the last
of them the opening token must not be a user word. -/
theorem settles_definitions {s : Session α} (hmode : s.mode = .interpreting)
    {entries : List (Token × List Token)} {d : Dictionary}
    (hd : d.entries = s.dictionary.entries ++ entries) (hlast : ":" ∉ d.names.dropLast)
    (hfree : ∀ entry ∈ entries, ";" ∉ entry.2) :
    s.Settles (entries.flatMap fun entry => definitionTokens entry.1 entry.2)
      { s with dictionary := d } := by
  have hnames : d.names = s.dictionary.names ++ entries.map Prod.fst := by
    rw [Dictionary.names, hd, List.map_append]
    rfl
  have hdistinct : d.names.Nodup := d.distinct
  rw [hnames] at hdistinct hlast
  have hextend : s.dictionary.extend entries = d :=
    Dictionary.eq_of_entries ((Dictionary.entries_extend_of_new hdistinct).trans hd.symm)
  rw [← hextend]
  refine settles_extend hmode (fun hne => ?_) (fun hmem => hlast ?_) hfree
  · -- At least one name is still to come, so none of those there is the last.
    rw [List.dropLast_append_of_ne_nil (by simpa using hne), List.mem_append, not_or] at hlast
    exact Dictionary.get?_eq_none_iff.2 hlast.1
  · rw [List.dropLast_append_of_ne_nil (List.ne_nil_of_mem (List.dropLast_subset _ hmem))]
    exact List.mem_append_right _ hmem

end Session

end Concatenative
