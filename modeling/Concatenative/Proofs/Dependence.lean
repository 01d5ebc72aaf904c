/-
What evaluation wants to know of a dictionary.

A dictionary is asked about the tokens that come to be dispatched, and of what it answers
only the tokens of the bodies come to be dispatched in turn. So if two dictionaries agree on a
set of tokens that is closed in this sense, evaluation within the set cannot tell them apart.
`Dictionary.Agrees` is such an agreement, and `Lockstep.agreeing` makes of it a comparison of
runs. The set has to be closed and not merely contain the words reached: a definition that is
completed on the way makes a body of tokens that have come by, and these must be in the set
for the agreement to go on.

A weaker agreement does as well, if the first dictionary may know less: a token that only the
second one knows cannot have been evaluated in the first, unless it is a number or a keyword.
That form is for `Concatenative.Proofs.Hoisting`.

With all tokens in the set the two dictionaries are the same map. No definition, no failure and
no clearing ends that, so sessions with the same map stay together in whatever follows
(`Session.answers_same`).
-/
import Concatenative.Proofs.Coupling
import Concatenative.Proofs.Recursion
import Concatenative.Proofs.Settling

set_option autoImplicit false

namespace Concatenative

variable {α : Type}

/-! ## Dictionaries that agree -/

/-- The token is no number and no keyword, so it means something as a user word only. -/
def Token.IsFree (token : Token) : Prop :=
  Cell.ofLiteral? token = none ∧ Keyword.ofToken? token = none

instance (token : Token) : Decidable token.IsFree :=
  inferInstanceAs (Decidable (_ ∧ _))

/-- The two dictionaries agree on every token that is `Proper`, and where they have a body its
tokens are proper again. The first one need not know the tokens that are `Late`. -/
def Dictionary.Agrees (Proper Late : Token → Prop) (d d' : Dictionary) : Prop :=
  ∀ token, Proper token →
    (d'.get? token = d.get? token
        ∧ ∀ body, d.get? token = some body → ∀ part ∈ body, Proper part)
      ∨ d.get? token = none ∧ Late token

namespace Dictionary.Agrees

variable {Proper Late : Token → Prop} {d d' : Dictionary}

/-- A definition that is made on both sides keeps the agreement. -/
theorem insert (h : d.Agrees Proper Late d') (name : Token) {body : List Token}
    (hbody : ∀ part ∈ body, Proper part) :
    (d.insert name body).Agrees Proper Late (d'.insert name body) := by
  intro token htoken
  rw [get?_insert, get?_insert]
  by_cases hname : token = name
  · rw [if_pos hname, if_pos hname]
    refine .inl ⟨rfl, fun body' e => ?_⟩
    cases e
    exact hbody
  · rw [if_neg hname, if_neg hname]
    exact h token htoken

end Dictionary.Agrees

/-- Sessions that have everything in common that evaluation depends on, but for their
dictionaries. -/
structure Session.Beside (s s' : Session α) : Prop where
  stack : s'.stack = s.stack
  mode : s'.mode = s.mode
  limit : s'.settings.maxExpansions = s.settings.maxExpansions

/-- Sessions that lie beside each other and whose dictionaries agree. -/
structure Session.Agrees (Proper Late : Token → Prop) (s s' : Session α) : Prop
    extends Session.Beside s s' where
  dictionary : s.dictionary.Agrees Proper Late s'.dictionary
  compiled : ∀ name body, s.mode = .compiling name body → ∀ part ∈ body, Proper part

namespace Session.Agrees

variable {Proper Late : Token → Prop} {s s' : Session α}

theorem cleared (h : s.Agrees Proper Late s') : s.cleared.Agrees Proper Late s'.cleared :=
  ⟨⟨rfl, rfl, h.limit⟩, h.dictionary, fun _ _ e => nomatch e⟩

variable [Arithmetic α]

/-- What becomes of two tokens that are the same, in sessions that agree. -/
abbrev Steps (Proper Late : Token → Prop) : Step α → Step α → Prop :=
  Step.Alike (Session.Agrees Proper Late) (fun t t' => t' = t ∧ Proper t) Eq

omit [Arithmetic α] in
theorem take (h : s.Agrees Proper Late s') (effect : Except EvalError (List α)) :
    Steps Proper Late (s.take effect) (s'.take effect) := by
  cases effect with
  | error cause => exact .failure rfl
  | ok stack => exact .settled ⟨⟨rfl, h.mode, h.limit⟩, h.dictionary, h.compiled⟩

theorem execute (h : s.Agrees Proper Late s') (k : Keyword) :
    Steps Proper Late (s.execute k) (s'.execute k) := by
  cases k with
  | operator op =>
    rw [execute_operator, execute_operator, h.stack]
    exact h.take _
  | shuffle move =>
    rw [execute_shuffle, execute_shuffle, h.stack]
    exact h.take _
  | openDefinition =>
    exact .settled ⟨⟨h.stack, rfl, h.limit⟩, h.dictionary, fun _ _ e => nomatch e⟩
  | closeDefinition => exact .failure rfl

/-- A token is interpreted alike, unless the first session does not know it at all. -/
theorem interpret (h : s.Agrees Proper Late s')
    (hlate : ∀ token, Late token → token.IsFree) {token : Token} (htoken : Proper token) :
    Steps Proper Late (s.interpret token) (s'.interpret token)
      ∨ Late token ∧ s.interpret token = .failure (.unknownToken token) := by
  rcases h.dictionary token htoken with ⟨hget, hbodies⟩ | ⟨hnone, hunknown⟩
  · refine .inl ?_
    unfold Session.interpret
    rw [hget]
    cases hbody : s.dictionary.get? token with
    | some body =>
      exact .expansion (List.forall₂_same.2 fun part hpart => ⟨rfl, hbodies body hbody part hpart⟩)
    | none =>
      cases Cell.ofLiteral? token with
      | some value =>
        refine .settled ⟨⟨?_, h.mode, h.limit⟩, h.dictionary, h.compiled⟩
        rw [h.stack]
      | none =>
        cases Keyword.ofToken? token with
        | some k => exact h.execute k
        | none => exact .failure rfl
  · obtain ⟨hliteral, hkeyword⟩ := hlate token hunknown
    refine .inr ⟨hunknown, ?_⟩
    simp only [Session.interpret, hnone, hliteral, hkeyword]

theorem dispatch (h : s.Agrees Proper Late s')
    (hlate : ∀ token, Late token → token.IsFree) {token : Token} (htoken : Proper token) :
    Steps Proper Late (s.dispatch token) (s'.dispatch token)
      ∨ Late token ∧ s.dispatch token = .failure (.unknownToken token) := by
  cases hmode : s.mode with
  | interpreting =>
    simp only [Session.dispatch, h.mode, hmode]
    exact h.interpret hlate htoken
  | naming =>
    rw [dispatch_naming hmode, dispatch_naming (h.mode.trans hmode)]
    refine .inl (.settled ⟨⟨h.stack, rfl, h.limit⟩, h.dictionary, fun name body e => ?_⟩)
    cases e
    exact List.forall_mem_nil _
  | compiling name body =>
    have hbody := h.compiled name body hmode
    by_cases hclose : token = ";"
    · rw [hclose, dispatch_closing hmode, dispatch_closing (h.mode.trans hmode)]
      refine .inl (.settled ⟨⟨h.stack, rfl, h.limit⟩, h.dictionary.insert name hbody, ?_⟩)
      intro name' body' e
      cases e
    · rw [dispatch_compiling hmode hclose, dispatch_compiling (h.mode.trans hmode) hclose]
      refine .inl (.settled ⟨⟨h.stack, rfl, h.limit⟩, h.dictionary, fun name' body' e => ?_⟩)
      cases e
      intro part hpart
      rcases List.mem_append.1 hpart with hpart | hpart
      · exact hbody part hpart
      · rw [List.mem_singleton.1 hpart]
        exact htoken

end Session.Agrees

/-- Agreement of dictionaries as a comparison of runs. It ends when the first side meets a token
that it does not know yet. -/
def Lockstep.agreeing [Arithmetic α] (Proper Late : Token → Prop)
    (hlate : ∀ token, Late token → token.IsFree) : Lockstep α α where
  sessions := Session.Agrees Proper Late
  tokens token token' := token' = token ∧ Proper token
  causes := Eq
  stopsLeft cause := ∃ token, Late token ∧ cause = .unknownToken token
  stopsRight _ := False
  limit_eq hs := hs.limit
  exceeded _ _ := rfl
  dispatch := by
    rintro s s' token _ hs ⟨rfl, htoken⟩
    rcases hs.dispatch hlate htoken with hstep | ⟨hunknown, hd⟩
    · exact .inl hstep
    · exact .inr (.inl ⟨_, hd, _, hunknown, rfl⟩)

/-! ## Outcomes that agree -/

/-- Outcomes that have everything in common but the dictionaries of their sessions. -/
structure Outcome.Same (o o' : Outcome α) : Prop where
  error : o'.error = o.error
  expansions : o'.expansions = o.expansions
  stack : o'.session.stack = o.session.stack
  mode : o'.session.mode = o.session.mode

section

variable [Arithmetic α] {Proper Late : Token → Prop}
  {hlate : ∀ token, Late token → token.IsFree}

theorem Lockstep.Outcomes.same {o o' : Outcome α}
    (h : (Lockstep.agreeing Proper Late hlate).Outcomes o o') : o.Same o' := by
  have herror : o'.error = o.error := eq_of_rel h.error
  by_cases hok : o.error = none
  · have hs : o.session.Agrees Proper Late o'.session := h.ok hok
    exact ⟨herror, h.expansions, hs.stack, hs.mode⟩
  · obtain ⟨s, s', -, ho, ho'⟩ := h.failed hok
    refine ⟨herror, h.expansions, ?_, ?_⟩ <;> rw [ho, ho'] <;> rfl

theorem Lockstep.Results.same {o o' : Outcome α}
    (h : (Lockstep.agreeing Proper Late hlate).Results o o') : o.Same o' :=
  have hs : o.session.Agrees Proper Late o'.session := h.session
  ⟨eq_of_rel h.error, h.expansions, hs.stack, hs.mode⟩

/-- As long as the first side knows every token it meets, runs end together. -/
theorem Session.Agrees.complete {s s' : Session α} (h : s.Agrees Proper Late s')
    (hlate : ∀ token, Late token → token.IsFree)
    {token : Token} (htoken : Proper token) {steps : Nat}
    (hknown : ¬ (Run.start s token).FailsWithin
      (fun cause => ∃ t, Late t ∧ cause = .unknownToken t) steps) :
    Option.Rel (Lockstep.agreeing Proper Late hlate).Outcomes ((Run.start s token).complete steps)
      ((Run.start s' token).complete steps) := by
  have hstart : (Lockstep.agreeing Proper Late hlate).Runs (.start s token) (.start s' token) :=
    Lockstep.runs_start h ⟨rfl, htoken⟩
  refine Lockstep.complete hstart hknown ?_
  rintro ⟨_, -, _, -, hfalse⟩
  exact hfalse

end

/-! ## Steps enough -/

namespace Session

variable [Arithmetic α]

/-- What holds of two runs whatever the steps holds of two calls, though with a limit these are
given steps according to their dictionaries. -/
theorem evalToken_rel {R : Outcome α → Outcome α → Prop} {s s' : Session α} {token : Token}
    (hs : s.dictionary.ClosingFree) (hs' : s'.dictionary.ClosingFree)
    (hlimit : s'.settings.maxExpansions = s.settings.maxExpansions)
    (h : ∀ steps, Option.Rel R ((Run.start s token).complete steps)
      ((Run.start s' token).complete steps)) (patience : Nat) :
    Option.Rel R (s.evalToken patience token) (s'.evalToken patience token) := by
  cases hmax : s.settings.maxExpansions with
  | none =>
    rw [evalToken, evalToken, steps_of_no_limit hmax, steps_of_no_limit (hlimit.trans hmax)]
    exact h patience
  | some limit =>
    -- Both calls have steps enough, so they end as the runs do with as many as the first has.
    obtain ⟨o, ho⟩ := evalToken_returns hs hmax token
    obtain ⟨o', ho'⟩ := evalToken_returns hs' (hlimit.trans hmax) token
    have hrel := h (s.steps patience)
    rw [show (Run.start s token).complete (s.steps patience) = some o from ho patience] at hrel
    obtain ⟨o'', ho'', hR⟩ := exists_of_rel_some hrel
    obtain rfl : o'' = o' := Run.complete_functional ho'' (ho' patience)
    rw [ho, ho']
    exact .some hR

/-- A call ends if its run does. -/
theorem evalToken_of_complete {s : Session α} (hs : s.dictionary.ClosingFree) {token : Token}
    {steps : Nat} {o : Outcome α} (h : (Run.start s token).complete steps = some o) :
    ∃ patience, s.evalToken patience token = some o := by
  cases hmax : s.settings.maxExpansions with
  | none => exact ⟨steps, by rw [evalToken, steps_of_no_limit hmax, h]⟩
  | some limit =>
    obtain ⟨o', ho'⟩ := evalToken_returns hs hmax token
    obtain rfl : o' = o := Run.complete_functional (ho' 0) h
    exact ⟨0, ho' 0⟩

end Session

/-! ## The words that can be reached -/

/-- The body of the user word `x` contains the token `y`. -/
def Dictionary.Contains (d : Dictionary) (x y : Token) : Prop :=
  ∃ body, d.get? x = some body ∧ y ∈ body

namespace Session

variable [Arithmetic α] {s s' : Session α} {token : Token}

/-- Two runs that are over with the dispatch of their token. -/
theorem same_of_settled {t t' : Session α} {news news' : List (Record α)}
    (hd : s.dispatch token = .settled t news) (hd' : s'.dispatch token = .settled t' news')
    (hstack : t'.stack = t.stack) (hmode : t'.mode = t.mode) (steps : Nat) :
    Option.Rel Outcome.Same ((Run.start s token).complete steps)
      ((Run.start s' token).complete steps) := by
  match steps with
  | 0 => exact .none
  | 1 =>
    rw [Run.complete, Run.complete, Run.advance_settled rfl hd, Run.advance_settled rfl hd']
    exact .none
  | n + 2 =>
    rw [Run.complete, Run.complete, Run.advance_settled rfl hd, Run.advance_settled rfl hd']
    exact .some ⟨rfl, rfl, hstack, hmode⟩

/-- In an open definition the dictionary is not asked at all. -/
theorem complete_same_of_open (hs : s.Beside s') (hopen : s.mode ≠ .interpreting) (steps : Nat) :
    Option.Rel Outcome.Same ((Run.start s token).complete steps)
      ((Run.start s' token).complete steps) := by
  cases h : s.mode with
  | interpreting => exact absurd h hopen
  | naming =>
    exact same_of_settled (dispatch_naming h token) (dispatch_naming (hs.mode.trans h) token)
      hs.stack rfl steps
  | compiling name body =>
    have h' := hs.mode.trans h
    by_cases hclose : token = ";"
    · subst hclose
      exact same_of_settled (dispatch_closing h) (dispatch_closing h') hs.stack rfl steps
    · exact same_of_settled (dispatch_compiling h hclose) (dispatch_compiling h' hclose)
        hs.stack rfl steps

/-- A run depends on the dictionary only through the words that can be reached. -/
theorem complete_same (hs : s.Beside s')
    (hreach : ∀ word, Relation.ReflTransGen s.dictionary.Contains token word →
      s'.dictionary.get? word = s.dictionary.get? word) (steps : Nat) :
    Option.Rel Outcome.Same ((Run.start s token).complete steps)
      ((Run.start s' token).complete steps) := by
  by_cases hopen : s.mode = .interpreting
  · -- The set is what can be reached from the token, and it is closed under taking bodies.
    have hagree : s.Agrees (Relation.ReflTransGen s.dictionary.Contains token)
        (fun _ => False) s' := by
      refine ⟨hs, fun word hword => .inl ⟨hreach word hword, ?_⟩, ?_⟩
      · exact fun body hbody part hpart => hword.tail ⟨body, hbody, hpart⟩
      · intro name body e
        rw [hopen] at e
        cases e
    refine rel_mono (fun _ _ => Lockstep.Outcomes.same)
      (hagree.complete (fun _ hfalse => hfalse.elim) .refl ?_)
    rintro ⟨_, -, _, -, _, hfalse, -⟩
    exact hfalse
  · exact complete_same_of_open hs hopen steps

/-! ## The same words -/

/-- Sessions with the same words, in whatever order, cannot be told apart by any calls. -/
theorem answers_same (hs : s.Beside s')
    (hwords : ∀ word, s'.dictionary.get? word = s.dictionary.get? word) (patience : Nat)
    (calls : List Call) :
    Option.Rel (List.Forall₂ Outcome.Same) (s.answers patience calls)
      (s'.answers patience calls) := by
  -- All tokens are in the set, so whatever is defined later stays in it.
  have hlasting : (Lockstep.agreeing (α := α) (fun _ => True) (fun _ => False)
      fun _ hfalse => hfalse.elim).Lasting := by
    refine ⟨?_, fun _ hfalse => hfalse, fun hs => hs.cleared, fun patience hs => ?_⟩
    · rintro _ ⟨_, hfalse, -⟩
      exact hfalse
    · have hget : ∀ word, _ := fun word => (hs.dictionary word trivial).resolve_right (·.2)
      rw [steps, steps, hs.limit, Dictionary.longestBody_congr fun word => (hget word).1]
  have hagree : s.Agrees (fun _ => True) (fun _ => False) s' :=
    ⟨hs, fun word _ => .inl ⟨hwords word, fun _ _ _ _ => trivial⟩, fun _ _ _ _ _ => trivial⟩
  have hcalls : List.Forall₂ (Call.Alike fun t t' => t' = t ∧ True) calls calls :=
    List.forall₂_same.2 fun c _ => Call.Alike.refl (fun _ => ⟨rfl, trivial⟩) c
  refine rel_mono (fun _ _ h => ?_) (hlasting.answers hagree hcalls patience)
  exact h.imp fun _ _ => Lockstep.Results.same

end Session

/-- **Evaluation depends on the dictionary only through the words that can be reached.** Take
two sessions with the same stack, mode and limit, and a token. If the dictionaries agree on the
token and on all that can be reached from it through the bodies of the first one, the runs end
together, with the same failure or none, and with the same stack and mode; and so do the calls,
in sessions whose bodies do not contain the closing token, which are all the reachable ones. If
one dictionary has the entries of the other in another order, no calls can tell the sessions
apart. So words with different names, the opening token not among them, can be defined in any
order. -/
theorem evaluation_sees_reachable_words [Arithmetic α] :
    (∀ s s' : Session α, s.Beside s' → ∀ token : Token,
      (∀ word, Relation.ReflTransGen s.dictionary.Contains token word →
        s'.dictionary.get? word = s.dictionary.get? word) →
      (∀ steps, Option.Rel Outcome.Same ((Run.start s token).complete steps)
        ((Run.start s' token).complete steps))
      ∧ (s.dictionary.ClosingFree → s'.dictionary.ClosingFree → ∀ patience,
        Option.Rel Outcome.Same (s.evalToken patience token) (s'.evalToken patience token)))
    ∧ (∀ (settings : Settings) (s : Session α), s.Reachable settings → s.dictionary.ClosingFree)
    ∧ (∀ s s' : Session α, s.Beside s' → s.dictionary.entries.Perm s'.dictionary.entries →
      ∀ (patience : Nat) (calls : List Call), Option.Rel (List.Forall₂ Outcome.Same)
        (s.answers patience calls) (s'.answers patience calls))
    ∧ ∀ (s : Session α) (words words' : List (Token × List Token)), s.mode = .interpreting →
      s.dictionary.get? ":" = none → (words.map Prod.fst).Nodup → ":" ∉ words.map Prod.fst →
      (∀ word ∈ words, ";" ∉ word.2) → words.Perm words' →
      ∀ patience, ∃ o o',
        s.feed (patience + 2) (words.flatMap fun word => definitionTokens word.1 word.2) = some o
        ∧ s.feed (patience + 2) (words'.flatMap fun word => definitionTokens word.1 word.2)
          = some o'
        ∧ o.error = none ∧ o.Same o'
        ∧ ∀ (later : Nat) (calls : List Call), Option.Rel (List.Forall₂ Outcome.Same)
          (o.session.answers later calls) (o'.session.answers later calls) := by
  refine ⟨fun s s' hs token hreach => ⟨?runs, ?calls⟩, fun _ _ h => h.closingFree.stored,
    ?order, ?definitions⟩
  case runs => exact Session.complete_same hs hreach
  case calls =>
    intro hfree hfree'
    exact Session.evalToken_rel hfree hfree' hs.limit (Session.complete_same hs hreach)
  case order =>
    intro s s' hs hperm
    exact Session.answers_same hs (Dictionary.get?_eq_of_perm hperm)
  case definitions =>
    intro s words words' hmode hopening hnodup hnames hbodies hperm patience
    have hnames' : ":" ∉ words'.map Prod.fst := fun hmem =>
      hnames ((hperm.map Prod.fst).mem_iff.2 hmem)
    have hsettles : s.Settles (words.flatMap fun word => definitionTokens word.1 word.2)
        { s with dictionary := s.dictionary.extend words } :=
      Session.settles_extend hmode (fun _ => hopening)
        (fun hmem => hnames (List.dropLast_subset _ hmem)) hbodies
    have hsettles' : s.Settles (words'.flatMap fun word => definitionTokens word.1 word.2)
        { s with dictionary := s.dictionary.extend words' } :=
      Session.settles_extend hmode (fun _ => hopening)
        (fun hmem => hnames' (List.dropLast_subset _ hmem))
        fun word hword => hbodies word (hperm.mem_iff.2 hword)
    obtain ⟨log, hfeed⟩ := hsettles.feed patience
    obtain ⟨log', hfeed'⟩ := hsettles'.feed patience
    refine ⟨_, _, hfeed, hfeed', rfl, ⟨rfl, rfl, rfl, rfl⟩, ?_⟩
    exact Session.answers_same ⟨rfl, rfl, rfl⟩
      (Dictionary.get?_extend_of_perm s.dictionary hperm hnodup)

/-- Beside a word that is not mentioned, and in another order, two words lead to the same. -/
theorem evaluation_sees_reachable_words_successor :
    let s : Session Cell :=
      (((Session.new .plain).define "next" ["one", "+"]).define "one" ["1"]).define "loop" ["loop"]
    let s' : Session Cell := ((Session.new .plain).define "one" ["1"]).define "next" ["one", "+"]
    (∀ word, Relation.ReflTransGen s.dictionary.Contains "next" word →
      s'.dictionary.get? word = s.dictionary.get? word)
    ∧ (∀ steps, Option.Rel Outcome.Same ((Run.start s "next").complete steps)
      ((Run.start s' "next").complete steps))
    ∧ ∃ o o', (Session.new .plain : Session Cell).feed 2
          [":", "next", "one", "+", ";", ":", "one", "1", ";"] = some o
      ∧ (Session.new .plain).feed 2 [":", "one", "1", ";", ":", "next", "one", "+", ";"] = some o'
      ∧ o.session.dictionary.names = ["next", "one"]
      ∧ o'.session.dictionary.names = ["one", "next"]
      ∧ Option.Rel (List.Forall₂ Outcome.Same) (o.session.answers 6 [.token "7", .token "next"])
        (o'.session.answers 6 [.token "7", .token "next"]) := by
  intro s s'
  obtain ⟨hruns, -, -, hdefinitions⟩ := evaluation_sees_reachable_words (α := Cell)
  have hreach : ∀ word, Relation.ReflTransGen s.dictionary.Contains "next" word →
      word ≠ "loop" := by
    intro word hword
    induction hword with
    | refl => decide
    | tail _ hnext ih =>
      obtain ⟨body, hget, hmem⟩ := hnext
      have hentry := Dictionary.mem_of_get?_eq_some hget
      rcases List.mem_cons.1 hentry with h | hentry
      · cases h
        rintro rfl
        exact absurd hmem (by decide)
      rcases List.mem_cons.1 hentry with h | hentry
      · cases h
        rintro rfl
        exact absurd hmem (by decide)
      · cases List.mem_singleton.1 hentry
        exact absurd rfl ih
  have hsame : ∀ word, Relation.ReflTransGen s.dictionary.Contains "next" word →
      s'.dictionary.get? word = s.dictionary.get? word := by
    intro word hword
    have hne := hreach word hword
    simp only [s, s', Session.define, Session.new, Dictionary.get?_insert, Dictionary.get?_empty,
      if_neg hne]
    by_cases hone : word = "one"
    · simp [hone]
    · simp [hone]
  refine ⟨hsame, (hruns s s' ⟨rfl, rfl, rfl⟩ "next" hsame).1, ?_⟩
  obtain ⟨o, o', ho, ho', -, -, hlater⟩ := hdefinitions (Session.new .plain)
    [("next", ["one", "+"]), ("one", ["1"])] [("one", ["1"]), ("next", ["one", "+"])]
    rfl rfl (by decide) (by decide) (by decide) (.swap _ _ _) 0
  refine ⟨o, o', ho, ho', ?_, ?_, hlater 6 _⟩
  · cases ho
    decide
  · cases ho'
    decide

end Concatenative
