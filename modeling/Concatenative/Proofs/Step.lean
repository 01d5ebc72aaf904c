/-
What one step can do, said once.

Every property of a session that holds through a whole run rests on the same two
questions: what becomes of a token, and how a run goes on or ends. `Session.Becomes`
answers the first and `Run.advance_running` and `Run.advance_ended` answer the
second. Later modules argue from these and do not open `dispatch` or `advance`
again.

`Run.Reaches` and `Run.complete_iff` then turn a number of steps into a path of
states, so that a lemma on whole runs is an induction on the path.
-/
import Concatenative.Evaluation
import Mathlib.Logic.Relation

set_option autoImplicit false

namespace Concatenative

variable {α : Type}

/-! ## Dispatch -/

namespace Session

/-- What can become of a token: there are five ways to deal with it, and besides
those it can be expanded or fail. -/
inductive Becomes (s : Session α) (token : Token) : Step α → Prop
  /-- A number or a keyword that only touches the stack. -/
  | carriedOut (stack : List α) (hmode : s.mode = .interpreting)
      (hfree : s.dictionary.get? token = none) :
      Becomes s token (.settled { s with stack := stack } [])
  | opened (hmode : s.mode = .interpreting) (hfree : s.dictionary.get? token = none)
      (htoken : token = ":") :
      Becomes s token (.settled { s with mode := .naming } [])
  | named (hmode : s.mode = .naming) :
      Becomes s token (.settled { s with mode := .compiling token [] } [])
  | closed {name : Token} {body : List Token} (hmode : s.mode = .compiling name body)
      (htoken : token = ";") :
      Becomes s token (.settled (s.define name body) (s.definitionNews name body))
  | appended {name : Token} {body : List Token} (hmode : s.mode = .compiling name body)
      (htoken : token ≠ ";") :
      Becomes s token (.settled { s with mode := .compiling name (body ++ [token]) } [])
  | expanded {body : List Token} (hmode : s.mode = .interpreting)
      (hget : s.dictionary.get? token = some body) :
      Becomes s token (.expansion body)
  /-- Of all tokens the closing one alone can be stray. -/
  | failed {cause : EvalError} (hmode : s.mode = .interpreting)
      (hfree : s.dictionary.get? token = none)
      (hstray : cause = .malformedDefinition .unopened → token = ";") :
      Becomes s token (.failure cause)

variable [Arithmetic α]

/-- An operator touches the stack or fails. -/
theorem calculate_cases (s : Session α) (op : Operator) :
    (∃ stack, s.calculate op = .settled { s with stack := stack } [])
      ∨ ∃ cause, s.calculate op = .failure cause ∧ cause ≠ .malformedDefinition .unopened := by
  unfold calculate
  split
  · split
    · exact .inl ⟨_, rfl⟩
    · exact .inr ⟨_, rfl, by simp⟩
  · exact .inr ⟨_, rfl, by simp⟩

/-- What becomes of a keyword that no user word has taken. -/
theorem execute_becomes (s : Session α) (k : Keyword) (hmode : s.mode = .interpreting)
    (hfree : s.dictionary.get? k.text = none) : s.Becomes k.text (s.execute k) := by
  match k with
  | .operator op =>
    -- An operator can fail, though not in the way a stray closing token does.
    rcases s.calculate_cases op with ⟨stack, h⟩ | ⟨cause, h, hne⟩
    · rw [execute, h]
      exact .carriedOut stack hmode hfree
    · rw [execute, h]
      exact .failed hmode hfree fun e => absurd e hne
  | .shuffle move =>
    rw [execute]
    split
    · exact .carriedOut _ hmode hfree
    · exact .failed hmode hfree fun e => nomatch e
  | .openDefinition => exact .opened hmode hfree rfl
  | .closeDefinition => exact .failed hmode hfree fun _ => rfl

/-- What becomes of a token that is carried out. -/
theorem interpret_becomes (s : Session α) (token : Token) (hmode : s.mode = .interpreting) :
    s.Becomes token (s.interpret token) := by
  cases hget : s.dictionary.get? token with
  | some body =>
    simp only [interpret, hget]
    exact .expanded hmode hget
  | none =>
    cases hlit : Cell.ofLiteral? token with
    | some value =>
      simp only [interpret, hget, hlit]
      exact .carriedOut _ hmode hget
    | none =>
      cases hkey : Keyword.ofToken? token with
      | some k =>
        simp only [interpret, hget, hlit, hkey]
        obtain rfl : token = k.text := Keyword.ofToken?_eq_some_iff.1 hkey
        exact s.execute_becomes k hmode hget
      | none =>
        simp only [interpret, hget, hlit, hkey]
        exact .failed hmode hget fun e => nomatch e

/-- Nothing else becomes of a token. -/
theorem dispatch_becomes (s : Session α) (token : Token) : s.Becomes token (s.dispatch token) := by
  unfold dispatch
  split
  · rename_i hmode
    exact s.interpret_becomes token hmode
  · rename_i hmode
    exact .named hmode
  · rename_i name body hmode
    split
    · rename_i ht
      exact .closed hmode ht
    · rename_i ht
      exact .appended hmode ht

theorem becomes_of_dispatch {s : Session α} {token : Token} {step : Step α}
    (h : s.dispatch token = step) : s.Becomes token step :=
  h ▸ s.dispatch_becomes token

theorem causes_of_execute {s : Session α} {k : Keyword} {cause : EvalError}
    (h : s.execute k = .failure cause) :
    cause = .stackUnderflow ∨ (∃ fault, cause = .arithmetic fault)
      ∨ cause = .malformedDefinition .unopened := by
  match k with
  | .operator op =>
    rw [execute, calculate] at h
    split at h
    · split at h <;> cases h
      exact .inr (.inl ⟨_, rfl⟩)
    · cases h
      exact .inl rfl
  | .shuffle move =>
    rw [execute] at h
    split at h <;> cases h
    exact .inl rfl
  | .openDefinition => cases h
  | .closeDefinition =>
    cases h
    exact .inr (.inr rfl)

/-- What a token can fail for by itself. -/
theorem causes_of_dispatch {s : Session α} {token : Token} {cause : EvalError}
    (h : s.dispatch token = .failure cause) :
    (cause = .stackUnderflow ∨ (∃ fault, cause = .arithmetic fault)
      ∨ cause = .malformedDefinition .unopened) ∨ cause = .unknownToken token := by
  unfold dispatch at h
  split at h
  · unfold interpret at h
    split at h
    · cases h
    · split at h
      · cases h
      · split at h
        · exact .inl (causes_of_execute h)
        · cases h
          exact .inr rfl
  · cases h
  · split at h <;> cases h

/-- Dealing with a token leaves the settings alone. -/
theorem settings_of_dispatch {s s' : Session α} {token : Token} {news : List (Record α)}
    (h : s.dispatch token = .settled s' news) : s'.settings = s.settings := by
  cases becomes_of_dispatch h <;> rfl

/-- A token that is dealt with leaves the dictionary alone or closes a definition. -/
theorem same_dictionary_or_closed {s s' : Session α} {token : Token} {news : List (Record α)}
    (h : s.dispatch token = .settled s' news) :
    s'.dictionary = s.dictionary
      ∨ ∃ name body, token = ";" ∧ s.mode = .compiling name body ∧ s' = s.define name body := by
  cases becomes_of_dispatch h with
  | @closed name body hmode htoken => exact .inr ⟨name, body, htoken, hmode, rfl⟩
  | _ => exact .inl rfl

/-! The equations for a given mode, for use in the other direction. -/

theorem dispatch_naming {s : Session α} (h : s.mode = .naming) (token : Token) :
    s.dispatch token = .settled { s with mode := .compiling token [] } [] := by
  simp only [dispatch, h]

/-- No keyword is a number, so a keyword that no user word has taken is carried out as what it
is. -/
theorem dispatch_keyword {s : Session α} (h : s.mode = .interpreting) (k : Keyword)
    (hget : s.dictionary.get? k.text = none) : s.dispatch k.text = s.execute k := by
  have hkey : Keyword.ofToken? k.text = some k := Keyword.ofToken?_eq_some_iff.2 rfl
  simp only [dispatch, h, interpret, hget, k.ofLiteral?_text, hkey]

theorem dispatch_opening {s : Session α} (h : s.mode = .interpreting)
    (hget : s.dictionary.get? ":" = none) :
    s.dispatch ":" = .settled { s with mode := .naming } [] :=
  dispatch_keyword h .openDefinition hget

theorem dispatch_literal {s : Session α} (h : s.mode = .interpreting) {token : Token} {c : Cell}
    (hget : s.dictionary.get? token = none) (hlit : Cell.ofLiteral? token = some c) :
    s.dispatch token = .settled { s with stack := Arithmetic.ofCell c :: s.stack } [] := by
  simp only [dispatch, h, interpret, hget, hlit]

theorem dispatch_number {s : Session α} (h : s.mode = .interpreting) {c : Cell}
    (hget : s.dictionary.get? c.text = none) :
    s.dispatch c.text = .settled { s with stack := Arithmetic.ofCell c :: s.stack } [] :=
  dispatch_literal h hget (Cell.ofLiteral?_text c)

theorem dispatch_unknown {s : Session α} (h : s.mode = .interpreting) {token : Token}
    (hget : s.dictionary.get? token = none) (hlit : Cell.ofLiteral? token = none)
    (hkey : Keyword.ofToken? token = none) : s.dispatch token = .failure (.unknownToken token) := by
  simp only [dispatch, h, interpret, hget, hlit, hkey]

theorem dispatch_closing {s : Session α} {name : Token} {body : List Token}
    (h : s.mode = .compiling name body) :
    s.dispatch ";" = .settled (s.define name body) (s.definitionNews name body) := by
  simp only [dispatch, h]
  exact if_pos rfl

theorem dispatch_compiling {s : Session α} {name token : Token} {body : List Token}
    (h : s.mode = .compiling name body) (hne : token ≠ ";") :
    s.dispatch token = .settled { s with mode := .compiling name (body ++ [token]) } [] := by
  simp only [dispatch, h]
  exact if_neg hne

theorem dispatch_user_word {s : Session α} {token : Token} {body : List Token}
    (h : s.mode = .interpreting) (hget : s.dictionary.get? token = some body) :
    s.dispatch token = .expansion body := by
  simp only [dispatch, h, interpret, hget]

end Session

/-! ## Steps of a run -/

/-- Whether the settings let a token lead to `count` expansions. -/
def Settings.Allows (settings : Settings) (count : Nat) : Prop :=
  ∀ limit, settings.maxExpansions = some limit → count ≤ limit

theorem Settings.allows_of_no_limit {settings : Settings} (h : settings.maxExpansions = none)
    (count : Nat) : settings.Allows count := by
  intro limit e
  rw [h] at e
  cases e

theorem Settings.allows_or_lt (settings : Settings) (count : Nat) :
    settings.Allows count ∨ ∃ limit, settings.maxExpansions = some limit ∧ limit < count := by
  cases h : settings.maxExpansions with
  | none => exact .inl (allows_of_no_limit h count)
  | some limit =>
    rcases Nat.lt_or_ge limit count with hlt | hge
    · exact .inr ⟨limit, rfl, hlt⟩
    · exact .inl fun limit' e => by rw [h] at e; cases e; exact hge

namespace Run

@[simp] theorem note_session (r : Run α) (news : List (Record α)) :
    (r.note news).session = r.session := rfl

/-- The run with the body of `word` in its place, which is one expansion more. -/
def expanded (r : Run α) (word : Token) (body rest : List Token) : Run α :=
  { r with pending := body ++ rest, expansions := r.expansions + 1 }.note [.expanding word body]

variable [Arithmetic α]

/-! One equation for each thing that can become of the first pending token. -/

theorem advance_nil {r : Run α} (hp : r.pending = []) : r.advance = .ended r.finish := by
  simp only [advance, hp]

theorem advance_settled {r : Run α} {token : Token} {rest : List Token} {s : Session α}
    {news : List (Record α)} (hp : r.pending = token :: rest)
    (hd : r.session.dispatch token = .settled s news) :
    r.advance = .running { (r.note [.dispatched r.session.stack token]).note news with
      session := s, pending := rest } := by
  simp only [advance, hp, note_session, hd]

theorem advance_expansion {r : Run α} {token : Token} {rest body : List Token}
    (hp : r.pending = token :: rest) (hd : r.session.dispatch token = .expansion body)
    (ha : r.session.settings.Allows (r.expansions + 1)) :
    r.advance
      = .running ((r.note [.dispatched r.session.stack token]).expanded token body rest) := by
  simp only [advance, hp, note_session, hd, expand]
  split
  · rfl
  · rename_i limit hlimit
    exact if_pos (ha limit hlimit)

theorem advance_expansion_refused {r : Run α} {token : Token} {rest body : List Token}
    {limit : Nat} (hp : r.pending = token :: rest)
    (hd : r.session.dispatch token = .expansion body)
    (hlimit : r.session.settings.maxExpansions = some limit) (hlt : limit < r.expansions + 1) :
    r.advance = .ended (((r.note [.dispatched r.session.stack token]).expanded token body rest).fail
      (.expansionLimit limit)) := by
  simp only [advance, hp, note_session, hd, expand, hlimit]
  exact if_neg (Nat.not_le.2 hlt)

theorem advance_failure {r : Run α} {token : Token} {rest : List Token} {cause : EvalError}
    (hp : r.pending = token :: rest) (hd : r.session.dispatch token = .failure cause) :
    r.advance = .ended ((r.note [.dispatched r.session.stack token]).fail cause) := by
  simp only [advance, hp, note_session, hd]

/-- How a run goes on: the first pending token is dealt with, or its body takes its
place and the settings allow one expansion more. -/
theorem advance_running {r r' : Run α} (h : r.advance = .running r') :
    ∃ token rest, r.pending = token :: rest
      ∧ ((∃ news, r.session.dispatch token = .settled r'.session news
          ∧ r'.pending = rest ∧ r'.expansions = r.expansions)
        ∨ ∃ body, r.session.dispatch token = .expansion body ∧ r'.session = r.session
          ∧ r'.pending = body ++ rest ∧ r'.expansions = r.expansions + 1
          ∧ r.session.settings.Allows r'.expansions) := by
  cases hp : r.pending with
  | nil =>
    rw [advance_nil hp] at h
    cases h
  | cons token rest =>
    refine ⟨token, rest, rfl, ?_⟩
    cases hd : r.session.dispatch token with
    | settled s news =>
      rw [advance_settled hp hd] at h
      cases h
      exact .inl ⟨news, rfl, rfl, rfl⟩
    | expansion body =>
      rcases r.session.settings.allows_or_lt (r.expansions + 1) with ha | ⟨limit, hlimit, hlt⟩
      · rw [advance_expansion hp hd ha] at h
        cases h
        exact .inr ⟨body, rfl, rfl, rfl, rfl, ha⟩
      · rw [advance_expansion_refused hp hd hlimit hlt] at h
        cases h
    | failure cause =>
      rw [advance_failure hp hd] at h
      cases h

/-! The same for a run whose first pending token is known, and what becomes of it. -/

theorem running_of_settled {r r' : Run α} {token : Token} {rest : List Token} {s : Session α}
    {news : List (Record α)} (hp : r.pending = token :: rest)
    (hd : r.session.dispatch token = .settled s news) (hadv : r.advance = .running r') :
    r'.session = s ∧ r'.pending = rest ∧ r'.expansions = r.expansions := by
  rw [advance_settled hp hd] at hadv
  cases hadv
  exact ⟨rfl, rfl, rfl⟩

theorem running_of_expansion {r r' : Run α} {token : Token} {rest body : List Token}
    (hp : r.pending = token :: rest) (hd : r.session.dispatch token = .expansion body)
    (hadv : r.advance = .running r') :
    r'.session = r.session ∧ r'.pending = body ++ rest ∧ r'.expansions = r.expansions + 1 := by
  obtain ⟨_, _, hp', ⟨_, hd', -⟩ | ⟨_, hd', hs, hbody, hexp, -⟩⟩ := advance_running hadv
  · obtain ⟨rfl, -⟩ := List.cons.inj (hp.symm.trans hp')
    cases hd.symm.trans hd'
  · obtain ⟨rfl, rfl⟩ := List.cons.inj (hp.symm.trans hp')
    cases hd.symm.trans hd'
    exact ⟨hs, hbody, hexp⟩

/-- How a run ends: nothing is left to do, or the first pending token fails, by
itself or by being one expansion too many. -/
theorem advance_ended {r : Run α} {o : Outcome α} (h : r.advance = .ended o) :
    (r.pending = [] ∧ o = r.finish)
      ∨ ∃ token rest cause, r.pending = token :: rest
        ∧ o.session = r.session.cleared ∧ o.error = some cause
        ∧ (r.session.dispatch token = .failure cause
          ∨ ∃ body limit, r.session.dispatch token = .expansion body
            ∧ r.session.settings.maxExpansions = some limit ∧ limit < r.expansions + 1
            ∧ cause = .expansionLimit limit) := by
  cases hp : r.pending with
  | nil =>
    rw [advance_nil hp] at h
    cases h
    exact .inl ⟨rfl, rfl⟩
  | cons token rest =>
    refine .inr ⟨token, rest, ?_⟩
    cases hd : r.session.dispatch token with
    | settled s news =>
      rw [advance_settled hp hd] at h
      cases h
    | expansion body =>
      rcases r.session.settings.allows_or_lt (r.expansions + 1) with ha | ⟨limit, hlimit, hlt⟩
      · rw [advance_expansion hp hd ha] at h
        cases h
      · rw [advance_expansion_refused hp hd hlimit hlt] at h
        cases h
        exact ⟨_, rfl, rfl, rfl, .inr ⟨body, limit, rfl, hlimit, hlt, rfl⟩⟩
    | failure cause =>
      rw [advance_failure hp hd] at h
      cases h
      exact ⟨cause, rfl, rfl, rfl, .inl rfl⟩

/-! ## Paths -/

/-- `r` goes on as `r'`. -/
def Next (r r' : Run α) : Prop :=
  r.advance = .running r'

/-- `r` comes to `r'` in some number of steps. -/
def Reaches : Run α → Run α → Prop :=
  Relation.ReflTransGen Next

/-- A run ends within some number of steps if it comes to a state in which it ends. -/
theorem complete_iff {r : Run α} {o : Outcome α} :
    (∃ steps, r.complete steps = some o) ↔ ∃ last, r.Reaches last ∧ last.advance = .ended o := by
  constructor
  · rintro ⟨steps, h⟩
    induction steps generalizing r with
    | zero => cases h
    | succ n ih =>
      unfold complete at h
      split at h
      · rename_i outcome hadv
        cases h
        exact ⟨r, .refl, hadv⟩
      · rename_i next hadv
        obtain ⟨last, hreach, hend⟩ := ih h
        exact ⟨last, .head hadv hreach, hend⟩
  · rintro ⟨last, hreach, hend⟩
    -- From the last state backwards, every state needs one step more.
    induction hreach using Relation.ReflTransGen.head_induction_on with
    | refl => exact ⟨1, by simp only [complete, hend]⟩
    | head hnext _ ih =>
      obtain ⟨steps, h⟩ := ih
      exact ⟨steps + 1, by rw [complete, show _ = _ from hnext]; exact h⟩

/-- A run has one outcome. -/
theorem complete_functional {r : Run α} {o o' : Outcome α} {n m : Nat}
    (h : r.complete n = some o) (h' : r.complete m = some o') : o = o' := by
  have hmax := complete_mono h (Nat.le_max_left n m)
  have hmax' := complete_mono h' (Nat.le_max_right n m)
  exact Option.some.inj (hmax.symm.trans hmax')

/-- The settings stay what they are throughout a run. -/
theorem settings_of_advance {r r' : Run α} (h : r.advance = .running r') :
    r'.session.settings = r.session.settings := by
  obtain ⟨token, rest, -, ⟨news, hd, -⟩ | ⟨body, -, hs, -⟩⟩ := advance_running h
  · exact Session.settings_of_dispatch hd
  · rw [hs]

/-- With nothing pending a run has come to its last state. -/
theorem eq_of_reaches_of_nil {r r' : Run α} (hp : r.pending = []) (h : r.Reaches r') : r' = r := by
  rcases Relation.ReflTransGen.cases_head h with heq | ⟨mid, hnext, -⟩
  · exact heq.symm
  · rw [Next, advance_nil hp] at hnext
    cases hnext

/-- What every step keeps holds wherever a run comes. -/
theorem Reaches.keeps {r r' : Run α} (h : r.Reaches r') (Holds : Run α → Prop)
    (hstep : ∀ a b, a.advance = .running b → Holds a → Holds b) (hr : Holds r) : Holds r' := by
  induction h with
  | refl => exact hr
  | tail _ hnext ih => exact hstep _ _ hnext ih

theorem Reaches.settings_eq {r r' : Run α} (h : r.Reaches r') :
    r'.session.settings = r.session.settings :=
  h.keeps (fun a => a.session.settings = r.session.settings)
    (fun _ _ hadv hs => (settings_of_advance hadv).trans hs) rfl

theorem settings_of_complete {r : Run α} {o : Outcome α} {steps : Nat}
    (h : r.complete steps = some o) : o.session.settings = r.session.settings := by
  obtain ⟨last, hreach, hend⟩ := complete_iff.1 ⟨steps, h⟩
  rcases advance_ended hend with ⟨-, rfl⟩ | ⟨_, _, _, -, hs, -⟩
  · exact hreach.settings_eq
  · rw [hs]
    exact hreach.settings_eq

end Run

/-! ## Evaluating tokens -/

/-- More patience for each item is more patience for the list. -/
theorem Outcome.sequence_mono {β : Type} {fewer more : Session α → β → Option (Outcome α)}
    (hact : ∀ s item o, fewer s item = some o → more s item = some o) {s : Session α}
    {items : List β} {o : Outcome α} (h : sequence fewer s items = some o) :
    sequence more s items = some o := by
  induction items generalizing s o with
  | nil => exact h
  | cons item rest ih =>
    rw [sequence_cons_eq_some_iff] at h ⊢
    obtain ⟨first, hfirst, hfail | ⟨hok, second, hsecond, ho⟩⟩ := h
    · exact ⟨first, hact s item first hfirst, .inl hfail⟩
    · exact ⟨first, hact s item first hfirst, .inr ⟨hok, second, ih hsecond, ho⟩⟩

namespace Session

variable [Arithmetic α]

theorem evalToken_mono {s : Session α} {token : Token} {o : Outcome α} {fewer more : Nat}
    (h : s.evalToken fewer token = some o) (hle : fewer ≤ more) :
    s.evalToken more token = some o := by
  refine Run.complete_mono h ?_
  unfold steps
  split
  · exact Nat.le_refl _
  · exact hle

theorem feed_mono {s : Session α} {tokens : List Token} {o : Outcome α} {fewer more : Nat}
    (h : s.feed fewer tokens = some o) (hle : fewer ≤ more) : s.feed more tokens = some o :=
  Outcome.sequence_mono (fun _ _ _ h => evalToken_mono h hle) h

omit [Arithmetic α] in
theorem le_steps {s : Session α} {n patience : Nat} (hn : n ≤ 2) (hle : n ≤ patience) :
    n ≤ s.steps patience := by
  unfold steps
  split
  · omega
  · exact hle

/-- A token that is dealt with is evaluated in two steps, whatever the limit: one to
dispatch it and one to notice the end. -/
theorem evalToken_settled {s s' : Session α} {token : Token} {news : List (Record α)}
    (hd : s.dispatch token = .settled s' news) (patience : Nat) :
    s.evalToken (patience + 2) token
      = some ⟨s', none, 0,
          (((Run.start s token).note [.dispatched s.stack token]).note news).log⟩ := by
  have htwo : (Run.start s token).complete 2 = some ⟨s', none, 0,
      (((Run.start s token).note [.dispatched s.stack token]).note news).log⟩ := by
    rw [Run.complete, Run.advance_settled rfl hd]
    rfl
  exact Run.complete_mono htwo (le_steps (Nat.le_refl 2) (by omega))

theorem evalToken_failure {s : Session α} {token : Token} {cause : EvalError}
    (hd : s.dispatch token = .failure cause) (patience : Nat) :
    s.evalToken (patience + 1) token
      = some (((Run.start s token).note [.dispatched s.stack token]).fail cause) := by
  have hone : (Run.start s token).complete 1
      = some (((Run.start s token).note [.dispatched s.stack token]).fail cause) := by
    rw [Run.complete, Run.advance_failure rfl hd]
    rfl
  exact Run.complete_mono hone (le_steps (by decide) (by omega))

/-- To feed a token and then a list is to evaluate the token and, unless it fails,
to feed the list from there. -/
theorem feed_cons_iff {s : Session α} {token : Token} {rest : List Token} {o : Outcome α}
    {patience : Nat} :
    s.feed patience (token :: rest) = some o
      ↔ ∃ first, s.evalToken patience token = some first
        ∧ ((first.error ≠ none ∧ o = first)
          ∨ (first.error = none
            ∧ ∃ second, first.session.feed patience rest = some second
              ∧ o = first.followedBy second)) :=
  Outcome.sequence_cons_eq_some_iff (evalToken patience)

/-- The path of states behind an evaluated token. -/
theorem path_of_evalToken {s : Session α} {token : Token} {o : Outcome α} {patience : Nat}
    (h : s.evalToken patience token = some o) :
    ∃ last, (Run.start s token).Reaches last ∧ last.advance = .ended o :=
  Run.complete_iff.1 ⟨_, h⟩

end Session

end Concatenative
