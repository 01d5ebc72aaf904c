/-
Where definitions stand in a program.

The words of a body are looked up when the body is expanded and not when it is defined, so a
body can refer to words that are defined after it, and a definition can stand anywhere before
the first use of its word. In particular all definitions can be moved to the front, in any
order, if the program ran to the end before.

The proof runs the program as it stands beside its words alone, in a session that has all
definitions from the beginning (`Session.Ahead`). The first dictionary catches up with the
second one by a definition at a time. Until it has, there are words that only the second
session knows. The names of these mean nothing else, so the first session fails if it meets one
at whatever depth, and as long as it does not fail the two are alike (`Ahead.evalToken`).

That the names are neither numbers nor keywords cannot be left out: a definition of `1` or of
`dup` changes the meaning of what stands before it.
-/
import Concatenative.Proofs.Dependence
import Concatenative.Proofs.History
import Concatenative.Proofs.Lines

set_option autoImplicit false

namespace Concatenative

variable {α : Type}

/-! ## Programs -/

/-- A part of a program. -/
inductive Item where
  | definition (name : Token) (body : List Token)
  | word (token : Token)
  deriving DecidableEq

namespace Item

def tokens : Item → List Token
  | definition name body => definitionTokens name body
  | word token => [token]

def definition? : Item → Option (Token × List Token)
  | definition name body => some (name, body)
  | word _ => none

def word? : Item → Option Token
  | definition _ _ => none
  | word token => some token

end Item

/-- A program is a sequence of definitions and of words to be evaluated. -/
abbrev Program := List Item

namespace Program

def tokens (program : Program) : List Token :=
  program.flatMap Item.tokens

theorem tokens_definition (name : Token) (body : List Token) (rest : Program) :
    tokens (.definition name body :: rest) = definitionTokens name body ++ rest.tokens := rfl

/-- The definitions of a program, in order, each with its name and its body. -/
def definitions (program : Program) : List (Token × List Token) :=
  program.filterMap Item.definition?

/-- What a program evaluates outside of its definitions. -/
def words (program : Program) : List Token :=
  program.filterMap Item.word?

/-- The program with its definitions put first, in some order. -/
def hoisted (order : List (Token × List Token)) (program : Program) : List Token :=
  (order.flatMap fun word => definitionTokens word.1 word.2) ++ program.words

end Program

/-- The definitions give names that mean nothing else, and neither open nor close another
definition. -/
def PlainWords (words : List (Token × List Token)) : Prop :=
  ∀ word ∈ words, word.1.IsFree ∧ ":" ∉ word.2 ∧ ";" ∉ word.2

instance (words : List (Token × List Token)) : Decidable (PlainWords words) :=
  inferInstanceAs (Decidable (∀ word ∈ words, word.1.IsFree ∧ ":" ∉ word.2 ∧ ";" ∉ word.2))

/-- A program in which a definition is opened and closed where it looks like it, and no word is
defined twice. -/
structure Program.Plain (program : Program) : Prop where
  distinct : (program.definitions.map Prod.fst).Nodup
  definitions : PlainWords program.definitions
  words : ∀ token ∈ program.words, token ≠ ":" ∧ token ≠ ";"

theorem not_isFree_opening : ¬ Token.IsFree ":" := by decide

/-! ## A session that has all words -/

section

variable {d : Dictionary} {s s' : Session α}

namespace PlainWords

theorem closingFree (hd : PlainWords d.entries) : d.ClosingFree :=
  fun word hword => (hd word hword).2.2

theorem of_get? (hd : PlainWords d.entries) {name : Token} {body : List Token}
    (hget : d.get? name = some body) : name.IsFree ∧ ":" ∉ body ∧ ";" ∉ body :=
  hd _ (Dictionary.mem_of_get?_eq_some hget)

theorem bodies (hd : PlainWords d.entries) {name : Token} {body : List Token}
    (hget : d.get? name = some body) : ∀ part ∈ body, part ≠ ":" := by
  rintro part hpart rfl
  exact (hd.of_get? hget).2.1 hpart

/-- Such definitions can be made in a row. -/
theorem settles [Arithmetic α] {words : List (Token × List Token)} (h : PlainWords words)
    (settings : Settings) :
    (Session.new settings : Session α).Settles
      (words.flatMap fun word => definitionTokens word.1 word.2)
      { Session.new settings with dictionary := Dictionary.empty.extend words } := by
  refine Session.settles_extend rfl (fun _ => rfl) (fun hmem => ?_) fun word hword =>
    (h word hword).2.2
  obtain ⟨word, hword, hname⟩ := List.mem_map.1 (List.dropLast_subset _ hmem)
  exact not_isFree_opening (hname ▸ (h word hword).1)

end PlainWords

/-- A token that does not open a definition leaves a session where it was, if no body opens
one either. -/
theorem Session.resting_of_evalToken [Arithmetic α] (hmode : s.mode = .interpreting)
    (hbodies : ∀ name body, s.dictionary.get? name = some body → ∀ part ∈ body, part ≠ ":")
    {token : Token} (htoken : token ≠ ":") {patience : Nat} {o : Outcome α}
    (h : s.evalToken patience token = some o) : o.session.Resting s.dictionary := by
  have hkept : Kept (· ≠ ":") (Resting (α := α) s.dictionary) :=
    Resting.kept (fun hne => absurd rfl hne) hbodies
  exact hkept.evalToken ⟨rfl, hmode⟩ htoken h

/-- The first session has come to know some words of the dictionary, which the second one has
known from the beginning. Otherwise they are alike, and no definition is open. -/
structure Session.Ahead (d : Dictionary) (s s' : Session α) : Prop extends Session.Beside s s' where
  interpreting : s.mode = .interpreting
  known : ∀ name body, s.dictionary.get? name = some body → d.get? name = some body
  all : s'.dictionary = d

namespace Session.Ahead

theorem new (d : Dictionary) (settings : Settings) :
    Ahead (α := α) d (.new settings) { Session.new settings with dictionary := d } where
  stack := rfl
  mode := rfl
  limit := rfl
  interpreting := rfl
  known := fun _ _ e => nomatch e
  all := rfl

theorem opening (hd : PlainWords d.entries) (h : s.Ahead d s') :
    s.dictionary.get? ":" = none := by
  refine Option.eq_none_iff_forall_ne_some.2 fun body hget => ?_
  exact not_isFree_opening (hd.of_get? (h.known _ _ hget)).1

/-- The first session catches up with a definition. -/
theorem define (h : s.Ahead d s') {name : Token} {body : List Token}
    (hget : d.get? name = some body) : (s.define name body).Ahead d s' where
  stack := h.stack
  mode := h.mode.trans h.interpreting
  limit := h.limit
  interpreting := rfl
  known := by
    intro name' body' h'
    have hinsert : (s.dictionary.insert name body).get? name' = some body' := h'
    rw [Dictionary.get?_insert] at hinsert
    split at hinsert
    · next hname => rw [hname, hget, hinsert]
    · exact h.known name' body' hinsert
  all := h.all

/-- The words that only the second session knows mean nothing to the first one. -/
theorem agrees (hd : PlainWords d.entries) (h : s.Ahead d s') :
    s.Agrees (· ≠ ":") Token.IsFree s' := by
  refine ⟨h.toBeside, fun token _ => ?_, fun name body hcompiling => ?_⟩
  · rw [h.all]
    cases hfirst : s.dictionary.get? token with
    | some body =>
      have hall := h.known token body hfirst
      exact .inl ⟨hall, fun _ e => hd.bodies (hall.trans e)⟩
    | none =>
      cases hall : d.get? token with
      | some body =>
        -- Only the second session knows the word, which is why its name has to be free.
        exact .inr ⟨rfl, (hd.of_get? hall).1⟩
      | none => exact .inl ⟨rfl, fun _ e => nomatch e⟩
  · rw [h.interpreting] at hcompiling
    cases hcompiling

variable [Arithmetic α]

/-- A token that does not fail leads to the same in the second session. Its expansion may come
to words at any depth, but the first session knows them all, since it would have failed
otherwise. -/
theorem evalToken (hd : PlainWords d.entries) (h : s.Ahead d s') {token : Token}
    (htoken : token ≠ ":") {patience : Nat} {o : Outcome α}
    (heval : s.evalToken patience token = some o) (hok : o.error = none) :
    ∃ patience' o', s'.evalToken patience' token = some o' ∧ o.Same o'
      ∧ o.session.Ahead d o'.session := by
  -- The two part only where the first session fails, and it does not.
  have hknown : ¬ (Run.start s token).FailsWithin
      (fun cause => ∃ t, Token.IsFree t ∧ cause = .unknownToken t) (s.steps patience) := by
    rintro ⟨_, ho, cause, hcause, -⟩
    cases ho.symm.trans heval
    rw [hok] at hcause
    cases hcause
  have hrel := (h.agrees hd).complete (fun _ hfree => hfree) htoken hknown
  rw [show (Run.start s token).complete (s.steps patience) = some o from heval] at hrel
  obtain ⟨o', ho', houtcomes⟩ := exists_of_rel_some hrel
  obtain ⟨patience', heval'⟩ := evalToken_of_complete (h.all ▸ hd.closingFree) ho'
  have hbeside : o.session.Beside o'.session := (houtcomes.ok hok).toBeside
  have hfirst : o.session.Resting s.dictionary :=
    resting_of_evalToken h.interpreting (fun _ _ hget => hd.bodies (h.known _ _ hget)) htoken heval
  have hsecond : o'.session.Resting s'.dictionary :=
    resting_of_evalToken (h.mode.trans h.interpreting)
      (fun _ _ hget => hd.bodies (h.all ▸ hget)) htoken heval'
  refine ⟨patience', o', heval', houtcomes.same, hbeside, hfirst.mode, ?_, ?_⟩
  · rw [hfirst.dictionary]
    exact h.known
  · rw [hsecond.dictionary, h.all]

/-- A program that does not fail leads to the same as its words in the second session. The
induction is on the program: with a definition the second session has nothing to do, and with a
word both evaluate it. -/
theorem feed (hd : PlainWords d.entries) {program : Program}
    (hdefinitions : ∀ word ∈ program.definitions, d.get? word.1 = some word.2)
    (hwords : ∀ token ∈ program.words, token ≠ ":") (h : s.Ahead d s') {patience : Nat}
    {o : Outcome α} (hfeed : s.feed patience program.tokens = some o) (hok : o.error = none) :
    ∃ patience' o', s'.feed patience' program.words = some o' ∧ o.Same o' := by
  induction program generalizing s s' patience o with
  | nil =>
    cases hfeed
    exact ⟨0, .start s', rfl, rfl, rfl, h.stack, h.mode⟩
  | cons item rest ih =>
    cases item with
    | definition name body =>
      obtain ⟨hget : d.get? name = some body, hrest⟩ := List.forall_mem_cons.1 hdefinitions
      have hsettles := settles_definition h.interpreting (h.opening hd) name (hd.of_get? hget).2.2
      -- Each token of the definition takes two steps, so there must be patience for these.
      obtain ⟨log, hlog⟩ := hsettles.feed_append (Program.tokens rest) patience
      have hmore := feed_mono hfeed (Nat.le_add_right patience 2)
      rw [Program.tokens_definition, hlog] at hmore
      obtain ⟨second, hsecond, rfl⟩ := Option.map_eq_some_iff.1 hmore
      obtain ⟨patience', o', hfeed', hsame⟩ := ih hrest hwords (h.define hget) hsecond hok
      exact ⟨patience', o', hfeed', hsame.error,
        hsame.expansions.trans (Nat.zero_add _).symm, hsame.stack, hsame.mode⟩
    | word token =>
      obtain ⟨htoken, hrest⟩ := List.forall_mem_cons.1 hwords
      obtain ⟨first, hfirst, ⟨hfailed, rfl⟩ | ⟨hfirstok, second, hsecond, rfl⟩⟩ :=
        feed_cons_iff.1 hfeed
      · exact absurd hok hfailed
      · obtain ⟨patience₁, first', hfirst', hsame₁, hahead⟩ := h.evalToken hd htoken hfirst hfirstok
        obtain ⟨patience₂, second', hsecond', hsame₂⟩ := ih hdefinitions hrest hahead hsecond hok
        refine ⟨max patience₁ patience₂, first'.followedBy second', feed_cons_iff.2
          ⟨first', evalToken_mono hfirst' (Nat.le_max_left _ _),
            .inr ⟨hsame₁.error.trans hfirstok, second',
              feed_mono hsecond' (Nat.le_max_right _ _), rfl⟩⟩, hsame₂.error, ?_,
          hsame₂.stack, hsame₂.mode⟩
        show first'.expansions + second'.expansions = first.expansions + second.expansions
        rw [hsame₁.expansions, hsame₂.expansions]

end Session.Ahead

end

/-! ## Definitions first -/

/-- Outcomes that differ in their dictionaries only come to the same. -/
theorem Outcome.Same.verdict_eq {o o' : Outcome Cell} (h : o.Same o') :
    o'.verdict = o.verdict := by
  simp only [verdict, Session.unclosed?, Session.render, h.error, h.mode, h.stack]

theorem Outcome.error_of_verdict {o : Outcome Cell} {values : String}
    (h : o.verdict = .ok values) : o.error = none := by
  rw [verdict] at h
  cases herror : o.error with
  | none => rfl
  | some cause =>
    rw [herror] at h
    cases h

/-- A program that does not fail leads to the same with its definitions first. -/
theorem Session.feed_hoisted [Arithmetic α] {program : Program} (hplain : program.Plain)
    {order : List (Token × List Token)} (horder : order.Perm program.definitions)
    {settings : Settings} {patience : Nat} {o : Outcome α}
    (h : (Session.new settings).feed patience program.tokens = some o) (hok : o.error = none) :
    ∃ patience' o', (Session.new settings).feed patience' (program.hoisted order) = some o'
      ∧ o.Same o' := by
  have hdistinct : (order.map Prod.fst).Nodup :=
    (horder.map Prod.fst).nodup_iff.2 hplain.distinct
  have horderPlain : PlainWords order :=
    fun word hword => hplain.definitions word (horder.mem_iff.1 hword)
  have hentries : (Dictionary.empty.extend order).entries = order :=
    Dictionary.entries_extend_of_new hdistinct
  -- The definitions make the dictionary that the second session of `Ahead` begins with.
  have hahead := Ahead.new (α := α) (Dictionary.empty.extend order) settings
  obtain ⟨patience', o', hfeed, hsame⟩ := hahead.feed (hentries.symm ▸ horderPlain)
    (fun word hword => Dictionary.get?_extend_of_mem _ hdistinct (horder.mem_iff.2 hword))
    (fun token htoken => (hplain.words token htoken).1) h hok
  have hsettles := horderPlain.settles (α := α) settings
  obtain ⟨log, hlog⟩ := hsettles.feed_append program.words patience'
  rw [feed_mono hfeed (Nat.le_add_right patience' 2), Option.map_some] at hlog
  exact ⟨patience' + 2, _, hlog, hsame.error,
    (Nat.zero_add _).trans hsame.expansions, hsame.stack, hsame.mode⟩

/-- **Definitions can be moved to the front.** Take a program whose definitions give different
names, none of them a number or a keyword, and in which the opening and the closing token stand
for definitions only. If it is evaluated without failure, under a limit or without one, then
with all its definitions first, in any order, and its other tokens behind it is evaluated
without failure as well, with the same number of expansions and to the same values. So lines
that come to some values come to the same values if they are arranged in this way. -/
theorem definitions_hoist {program : Program} (hplain : program.Plain)
    {order : List (Token × List Token)} (horder : order.Perm program.definitions)
    (settings : Settings) :
    (∀ (patience : Nat) (o : Outcome Cell),
      (Session.new settings).feed patience program.tokens = some o → o.error = none →
      ∃ patience' o', (Session.new settings).feed patience' (program.hoisted order) = some o'
        ∧ o.Same o' ∧ o'.verdict = o.verdict)
    ∧ ∀ lines lines' : List String, tokenizeLines lines = program.tokens →
      tokenizeLines lines' = program.hoisted order →
      ∀ (patience : Nat) (values : String), evaluate patience settings lines = some (.ok values) →
        ∃ patience', evaluate patience' settings lines' = some (.ok values) := by
  refine ⟨?tokens, ?lines⟩
  case tokens =>
    intro patience o h hok
    obtain ⟨patience', o', h', hsame⟩ := Session.feed_hoisted hplain horder h hok
    exact ⟨patience', o', h', hsame, hsame.verdict_eq⟩
  case lines =>
    intro lines lines' hlines hlines' patience values h
    rw [evaluate_eq_feed, hlines] at h
    obtain ⟨o, ho, hverdict⟩ := Option.map_eq_some_iff.1 h
    obtain ⟨patience', o', ho', hsame⟩ :=
      Session.feed_hoisted hplain horder ho (Outcome.error_of_verdict hverdict)
    refine ⟨patience', ?_⟩
    rw [evaluate_eq_feed, hlines', ho', Option.map_some, hsame.verdict_eq, hverdict]

/-- The word that `twice` expands to is defined after `twice`, and after a number. -/
theorem definitions_hoist_twice :
    let program : Program := [.definition "twice" ["double", "double"], .word "3",
      .definition "double" ["dup", "+"], .word "twice"]
    let settings : Settings := ⟨some 3, none⟩
    program.Plain
    ∧ program.definitions.reverse.Perm program.definitions
    ∧ evaluate 0 settings [": twice double double ; 3", ": double dup + ; twice"]
      = some (.ok "12")
    ∧ ∃ patience, evaluate patience settings
        [": double dup + ; : twice double double ;", "3 twice"] = some (.ok "12") := by
  intro program settings
  have hplain : program.Plain := ⟨by decide, by decide, by decide⟩
  have hlines : tokenizeLines [": twice double double ; 3", ": double dup + ; twice"]
      = program.tokens := by
    decide +kernel
  have hvalues : evaluate 0 settings [": twice double double ; 3", ": double dup + ; twice"]
      = some (.ok "12") := by
    rw [evaluate_eq_feed, hlines]
    rfl
  refine ⟨hplain, List.reverse_perm _, hvalues, ?_⟩
  exact (definitions_hoist hplain (List.reverse_perm _) settings).2 _ _ hlines (by decide +kernel)
    0 "12" hvalues

end Concatenative
