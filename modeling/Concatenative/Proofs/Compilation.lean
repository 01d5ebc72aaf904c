/-
What typing a definition does, token by token.

From the opening token to the closing one nothing is looked up. So it makes no difference what
the name is (a number, a keyword, the opening or the closing token itself, a word there is
already) nor what the body refers to, and there is nothing that could be expanded or fail. All
that changes on the way is the mode, which takes the body in, and the closing token then binds
the name.

The work is in two inductions. One goes along the body with the part of it that has been taken in
(`Session.passesThrough_body`), and the other along the entries of the dictionary, for the place
at which the name is bound (`bindEntry_of_lookup`). That the closing token is not in the body is
needed in the first one only, and the opening token must be no user word for the first step.
-/
import Concatenative.Proofs.Settling
import Mathlib.Data.List.Infix

set_option autoImplicit false

namespace Concatenative

/-! ## The place of a word -/

/-- A name that is bound is bound anew in its place. -/
theorem bindEntry_of_lookup {name : Token} {old : List Token}
    {entries : List (Token × List Token)} (h : entries.lookup name = some old)
    (body : List Token) :
    ∃ before after, entries = before ++ (name, old) :: after
      ∧ bindEntry name body entries = before ++ (name, body) :: after := by
  obtain ⟨before, after, rfl, hbefore⟩ := List.lookup_eq_some_iff.1 h
  refine ⟨before, after, rfl, ?_⟩
  -- What stands before is not the entry, since the look-up has passed it by.
  clear h
  induction before with
  | nil => exact if_pos rfl
  | cons entry rest ih =>
    obtain ⟨hentry, hrest⟩ := List.forall_mem_cons.1 hbefore
    have hne : entry.1 ≠ name := fun e => bne_iff_ne.1 hentry e.symm
    rw [List.cons_append, bindEntry, if_neg hne, ih hrest]
    rfl

/-! ## Sessions on the way -/

namespace Session

variable {α : Type} [Arithmetic α]

/-- The tokens are evaluated one after the other, all of them without failure and without any
expansion, and after each of them the session is the one given. -/
def PassesThrough (s : Session α) (tokens : List Token) (sessions : List (Session α)) : Prop :=
  ∀ patience, ∃ outcomes, s.answers (patience + 2) (tokens.map .token) = some outcomes
    ∧ (∀ o ∈ outcomes, o.error = none ∧ o.expansions = 0)
    ∧ outcomes.map Outcome.session = sessions

theorem passesThrough_nil (s : Session α) : s.PassesThrough [] [] := by
  intro patience
  exact ⟨[], rfl, List.forall_mem_nil _, rfl⟩

/-- A token that is dealt with leads to the next session. -/
theorem passesThrough_cons {s mid : Session α} {token : Token} {rest : List Token}
    {sessions : List (Session α)} {news : List (Record α)}
    (hd : s.dispatch token = .settled mid news) (hrest : mid.PassesThrough rest sessions) :
    s.PassesThrough (token :: rest) (mid :: sessions) := by
  intro patience
  obtain ⟨outcomes, houtcomes, hgood, hsessions⟩ := hrest patience
  obtain ⟨log, hfirst⟩ : ∃ log, s.evalToken (patience + 2) token = some ⟨mid, none, 0, log⟩ :=
    ⟨_, evalToken_settled hd patience⟩
  refine ⟨⟨mid, none, 0, log⟩ :: outcomes, ?_, List.forall_mem_cons.2 ⟨⟨rfl, rfl⟩, hgood⟩, ?_⟩
  · rw [List.map_cons, Session.answers, Session.answer, hfirst, Option.bind_some, houtcomes]
    rfl
  · rw [List.map_cons, hsessions]

/-- The rest of a body, up to and with the closing token. The induction is on what is still to
come, and `body` is what the definition has taken in by then. -/
theorem passesThrough_body {s : Session α} {name : Token} {body : List Token}
    (hmode : s.mode = .compiling name body) {rest : List Token} (hfree : ";" ∉ rest) :
    s.PassesThrough (rest ++ [";"])
      ((rest.inits.tail.map fun before => { s with mode := .compiling name (body ++ before) })
        ++ [s.define name (body ++ rest)]) := by
  induction rest generalizing s body with
  | nil =>
    rw [List.append_nil]
    exact passesThrough_cons (dispatch_closing hmode) (passesThrough_nil _)
  | cons token rest ih =>
    rw [List.mem_cons, not_or] at hfree
    have htoken : token ≠ ";" := fun e => hfree.1 e.symm
    have hrest := ih (s := { s with mode := .compiling name (body ++ [token]) }) rfl hfree.2
    have hall := passesThrough_cons (dispatch_compiling hmode htoken) hrest
    -- What comes next is taken in behind this token.
    have hinits : (token :: rest).inits.tail
        = [token] :: rest.inits.tail.map (token :: ·) := by
      rw [List.inits_cons, List.tail_cons]
      cases rest <;> rfl
    have hbody : ∀ before, body ++ [token] ++ before = body ++ token :: before :=
      fun before => List.append_assoc body [token] before
    simp only [hbody] at hall
    rw [hinits, List.map_cons, List.map_map]
    exact hall

/-- A definition, from the opening token to the closing one. -/
theorem passesThrough_definition {s : Session α} (hmode : s.mode = .interpreting)
    (hopening : s.dictionary.get? ":" = none) (name : Token) {body : List Token}
    (hfree : ";" ∉ body) :
    s.PassesThrough (definitionTokens name body)
      ({ s with mode := .naming }
        :: (body.inits.map fun before => { s with mode := .compiling name before })
        ++ [s.define name body]) := by
  have hnamed : Session.dispatch { s with mode := .naming } name
      = .settled { s with mode := .compiling name [] } [] := dispatch_naming rfl name
  have hbody := passesThrough_body (s := { s with mode := .compiling name [] }) rfl hfree
  have hall := passesThrough_cons (dispatch_opening hmode hopening)
    (passesThrough_cons hnamed hbody)
  have hinits : body.inits = [] :: body.inits.tail := by cases body <;> rfl
  rw [hinits]
  exact hall

end Session

/-- **Typing a definition always works and does one thing.** Where no definition is open and the
opening token is no user word, whatever the settings, the name and the body, as long as the
closing token is not in it: every token of the definition is evaluated without failure and
without any expansion. After the opening token the session waits for the name, and after the
name and each token of the body the definition has taken in what came so far, with nothing else
changed. In the end the mode is as it was at first and the name is bound to the body, in its
place if it was bound before and behind all other words if not, and all other entries stay. -/
theorem definition_has_one_effect {α : Type} [Arithmetic α] {s : Session α}
    (hmode : s.mode = .interpreting) (hopening : s.dictionary.get? ":" = none) (name : Token)
    {body : List Token} (hfree : ";" ∉ body) :
    ∃ d : Dictionary,
      (∀ patience, ∃ outcomes,
        s.answers (patience + 2) ((":" :: name :: (body ++ [";"])).map .token) = some outcomes
        ∧ (∀ o ∈ outcomes, o.error = none ∧ o.expansions = 0)
        ∧ outcomes.map Outcome.session
          = { s with mode := .naming }
            :: (body.inits.map fun before => { s with mode := .compiling name before })
            ++ [{ s with dictionary := d, mode := .interpreting }])
      ∧ (∀ old, s.dictionary.get? name = some old → ∃ before after,
        s.dictionary.entries = before ++ (name, old) :: after
          ∧ d.entries = before ++ (name, body) :: after)
      ∧ (s.dictionary.get? name = none → d.entries = s.dictionary.entries ++ [(name, body)]) := by
  refine ⟨s.dictionary.insert name body, ?tokens, ?bound, ?new⟩
  case tokens => exact Session.passesThrough_definition hmode hopening name hfree
  case bound => exact fun old hold => bindEntry_of_lookup hold body
  case new =>
    intro hnew
    exact Dictionary.entries_insert_of_not_mem (Dictionary.get?_eq_none_iff.1 hnew) body

/-- The closing token gets another body where nothing may be expanded: it is the name, the body
has the opening token and an unknown word in it, and the word stays between its neighbours. -/
theorem definition_has_one_effect_closing :
    let s : Session Cell :=
      { ((((Session.new ⟨some 0, none⟩ : Session Cell).define "a" ["1"]).define ";" ["7"]).define
          "b" []) with
        stack := [⟨5, by decide, by decide⟩] }
    s.mode = .interpreting ∧ s.dictionary.get? ":" = none ∧ ";" ∉ [":", "nosuchword", "b"]
      ∧ ∃ d : Dictionary,
        (∃ outcomes, s.answers 2 ([":", ";", ":", "nosuchword", "b", ";"].map .token)
            = some outcomes
          ∧ (outcomes.map Outcome.session).getLast?
            = some { s with dictionary := d, mode := .interpreting })
        ∧ ∃ before after,
          [("a", ["1"]), (";", ["7"]), ("b", [])] = before ++ (";", ["7"]) :: after
            ∧ d.entries = before ++ (";", [":", "nosuchword", "b"]) :: after := by
  intro s
  have hfree : ";" ∉ [":", "nosuchword", "b"] := by decide
  refine ⟨rfl, rfl, hfree, ?_⟩
  obtain ⟨d, tokens, bound, -⟩ := definition_has_one_effect (s := s) rfl rfl ";" hfree
  obtain ⟨outcomes, houtcomes, -, hsessions⟩ := tokens 0
  refine ⟨d, ⟨outcomes, houtcomes, ?_⟩, bound ["7"] rfl⟩
  rw [hsessions, List.getLast?_concat]

end Concatenative
