/-
Definitions are not completed from within.

Only the closing token completes a definition, and no body contains it: while a body
is being compiled the closing token would end it, and before that the body is empty.
So what an expansion puts in front of the pending tokens can open a definition but
never close one, and the dictionary stays as it is while a word is being expanded.

`Session.ClosingFree` is the invariant of sessions and `Run.InFlight` the one of runs.
`Session.OpeningLast` is its counterpart for the opening token, which can be a user word
itself: with it the user has no means left to open another definition.
`Run.reaches_start_cases` is where they meet: a run that evaluates one token has not
begun, is in flight, or was over with its first step, which closed a definition.
-/
import Concatenative.Proofs.Reachability

set_option autoImplicit false

namespace Concatenative

variable {α : Type}

/-! ## Bodies -/

/-- No body contains the closing token, neither one that is stored nor the one that
is being compiled. -/
structure Session.ClosingFree (s : Session α) : Prop where
  stored : ∀ entry ∈ s.dictionary.entries, ";" ∉ entry.2
  compiled : ∀ name body, s.mode = .compiling name body → ";" ∉ body

namespace Session.ClosingFree

theorem new (settings : Settings) : (Session.new settings : Session α).ClosingFree where
  stored := fun _ h => nomatch h
  compiled := fun _ _ h => nomatch h

theorem cleared {s : Session α} (h : s.ClosingFree) : s.cleared.ClosingFree where
  stored := h.stored
  compiled := fun _ _ h => nomatch h

theorem body {s : Session α} (h : s.ClosingFree) {name : Token} {body : List Token}
    (hget : s.dictionary.get? name = some body) : ";" ∉ body :=
  h.stored _ (Dictionary.mem_of_get?_eq_some hget)

variable [Arithmetic α]

theorem settled {s s' : Session α} (h : s.ClosingFree) {token : Token} {news : List (Record α)}
    (hd : s.dispatch token = .settled s' news) : s'.ClosingFree := by
  cases becomes_of_dispatch hd with
  | carriedOut stack hmode hfree => exact ⟨h.stored, fun name body e => h.compiled name body e⟩
  | opened hmode hfree htoken => exact ⟨h.stored, fun _ _ e => nomatch e⟩
  | named hmode =>
    refine ⟨h.stored, fun name body e => ?_⟩
    cases e
    exact List.not_mem_nil
  | @closed name body hmode htoken =>
    refine ⟨fun entry hentry => ?_, fun _ _ e => nomatch e⟩
    rcases Dictionary.mem_of_mem_insert hentry with rfl | hentry
    · exact h.compiled name body hmode
    · exact h.stored entry hentry
  | @appended name body hmode htoken =>
    refine ⟨h.stored, fun name' body' e => ?_⟩
    cases e
    intro hmem
    rcases List.mem_append.1 hmem with hmem | hmem
    · exact h.compiled name body hmode hmem
    · -- A closing token would have closed the definition.
      exact htoken (List.mem_singleton.1 hmem).symm

theorem kept : Session.Kept (α := α) (fun _ => True) Session.ClosingFree where
  settled := fun h _ hd => h.settled hd
  body := fun _ _ _ _ => trivial
  cleared := cleared

end Session.ClosingFree

theorem Session.Reachable.closingFree [Arithmetic α] {settings : Settings} {s : Session α}
    (h : s.Reachable settings) : s.ClosingFree :=
  ClosingFree.kept.reachable (.new settings) h

/-! ## The opening token -/

/-- If the opening token is a user word, it is the youngest, and no definition is
open. -/
structure Session.OpeningLast {α : Type} (s : Session α) : Prop where
  last : ":" ∉ s.dictionary.names.dropLast
  between : ":" ∈ s.dictionary.names → s.mode = .interpreting

namespace Session.OpeningLast

theorem new (settings : Settings) : (Session.new settings : Session α).OpeningLast where
  last := List.not_mem_nil
  between := fun h => nomatch h

theorem cleared {s : Session α} (h : s.OpeningLast) : s.cleared.OpeningLast where
  last := h.last
  between := fun _ => rfl

/-- While a definition is open the opening token is no user word. -/
theorem not_mem_names {s : Session α} (h : s.OpeningLast) (hmode : s.mode ≠ .interpreting) :
    ":" ∉ s.dictionary.names :=
  fun hmem => hmode (h.between hmem)

variable [Arithmetic α]

theorem settled {s s' : Session α} (h : s.OpeningLast) {token : Token} {news : List (Record α)}
    (hd : s.dispatch token = .settled s' news) : s'.OpeningLast := by
  cases becomes_of_dispatch hd with
  | carriedOut stack hmode hfree => exact ⟨h.last, h.between⟩
  | opened hmode hfree ht =>
    have hunused : ":" ∉ s.dictionary.names := Dictionary.get?_eq_none_iff.1 (ht ▸ hfree)
    exact ⟨h.last, fun hmem => absurd hmem hunused⟩
  | named hmode =>
    have hunused := h.not_mem_names (by rw [hmode]; simp)
    exact ⟨h.last, fun hmem => absurd hmem hunused⟩
  | @closed name body hmode ht =>
    have hunused := h.not_mem_names (by rw [hmode]; simp)
    refine ⟨?_, fun _ => rfl⟩
    show ":" ∉ (s.dictionary.insert name body).names.dropLast
    rw [Dictionary.names_insert]
    split
    · exact h.last
    · -- The name that was last is so no more, but it is not the opening token.
      rw [List.dropLast_concat]
      exact hunused
  | @appended name body hmode ht =>
    have hunused := h.not_mem_names (by rw [hmode]; simp)
    exact ⟨h.last, fun hmem => absurd hmem hunused⟩

theorem kept : Session.Kept (α := α) (fun _ => True) Session.OpeningLast where
  settled := fun h _ hd => h.settled hd
  body := fun _ _ _ _ => trivial
  cleared := cleared

end Session.OpeningLast

theorem Session.Reachable.openingLast [Arithmetic α] {settings : Settings} {s : Session α}
    (h : s.Reachable settings) : s.OpeningLast :=
  OpeningLast.kept.reachable (.new settings) h

/-! ## Runs -/

/-- A run in which the dictionary is `d` and nothing pending can change it. -/
structure Run.InFlight (d : Dictionary) (r : Run α) : Prop where
  dictionary : r.session.dictionary = d
  pending : ";" ∉ r.pending
  closingFree : r.session.ClosingFree

namespace Run

variable [Arithmetic α]

theorem InFlight.next {d : Dictionary} {r r' : Run α} (h : r.InFlight d)
    (hadv : r.advance = .running r') : r'.InFlight d := by
  obtain ⟨token, rest, hp, hcases⟩ := advance_running hadv
  have hpending := h.pending
  rw [hp, List.mem_cons, not_or] at hpending
  rcases hcases with ⟨news, hd, hrest, -⟩ | ⟨body, hd, hs, hbody, -, -⟩
  · refine ⟨?_, hrest ▸ hpending.2, h.closingFree.settled hd⟩
    rcases Session.same_dictionary_or_closed hd with hsame | ⟨_, _, htoken, -⟩
    · rw [hsame, h.dictionary]
    · exact absurd htoken.symm hpending.1
  · refine ⟨hs ▸ h.dictionary, ?_, hs ▸ h.closingFree⟩
    cases Session.becomes_of_dispatch hd with
    | expanded hmode hget =>
      rw [hbody, List.mem_append, not_or]
      exact ⟨h.closingFree.body hget, hpending.2⟩

/-- The first step of a run: afterwards it is in flight, or a definition is closed
and nothing is pending. -/
theorem inFlight_or_closed_of_start {s : Session α} (hs : s.ClosingFree) {token : Token}
    {r : Run α} (hadv : (start s token).advance = .running r) :
    r.InFlight s.dictionary
      ∨ ∃ name body, token = ";" ∧ s.mode = .compiling name body
        ∧ r.session = s.define name body ∧ r.pending = [] ∧ r.expansions = 0 := by
  obtain ⟨token', rest, hp, hcases⟩ := advance_running hadv
  obtain ⟨rfl, rfl⟩ := List.cons.inj hp
  rcases hcases with ⟨news, hd, hrest, hexp⟩ | ⟨body, hd, hsame, hbody, -, -⟩
  · rcases Session.same_dictionary_or_closed hd with hdict | ⟨name, body, ht, hmode, hdef⟩
    · exact .inl ⟨hdict, hrest ▸ List.not_mem_nil, hs.settled hd⟩
    · exact .inr ⟨name, body, ht, hmode, hdef, hrest, hexp⟩
  · refine .inl ⟨by rw [hsame]; rfl, ?_, hsame ▸ hs⟩
    cases Session.becomes_of_dispatch hd with
    | expanded hmode hget =>
      rw [hbody, List.append_nil]
      exact hs.body hget

/-- Every state of a run that evaluates one token: it has not begun, is in flight, or
was over with its first step, which closed a definition. -/
theorem reaches_start_cases {s : Session α} (hs : s.ClosingFree) {token : Token} {r : Run α}
    (h : (start s token).Reaches r) :
    r = start s token ∨ r.InFlight s.dictionary
      ∨ ∃ name body, token = ";" ∧ s.mode = .compiling name body
        ∧ r.session = s.define name body ∧ r.pending = [] ∧ r.expansions = 0 := by
  induction h with
  | refl => exact .inl rfl
  | tail _ hnext ih =>
    rcases ih with rfl | hflight | ⟨_, _, -, -, -, hp, -⟩
    · exact .inr (inFlight_or_closed_of_start hs hnext)
    · exact .inr (.inl (hflight.next hnext))
    · -- With the definition closed nothing is pending, so no step follows.
      rw [Next, advance_nil hp] at hnext
      cases hnext

/-- A closing token is pending only as the token of the call. -/
theorem eq_start_or_closing_not_mem {s : Session α} (hs : s.ClosingFree) {token : Token}
    {r : Run α} (h : (start s token).Reaches r) : r = start s token ∨ ";" ∉ r.pending := by
  rcases reaches_start_cases hs h with rfl | hflight | ⟨_, _, -, -, -, hnil, -⟩
  · exact .inl rfl
  · exact .inr hflight.pending
  · rw [hnil]
    exact .inr List.not_mem_nil

/-- As long as something is pending, the dictionary is that from before the call. -/
theorem dictionary_of_pending {s : Session α} (hs : s.ClosingFree) {token : Token} {r : Run α}
    (h : (start s token).Reaches r) (hp : r.pending ≠ []) :
    r.session.dictionary = s.dictionary := by
  rcases reaches_start_cases hs h with rfl | hflight | ⟨_, _, -, -, -, hnil, -⟩
  · rfl
  · exact hflight.dictionary
  · exact absurd hnil hp

end Run

/-! ## Calls -/

namespace Session

variable [Arithmetic α]

/-- What a call does to the dictionary: nothing, unless its own token closes a
definition, and then nothing is expanded and nothing fails. -/
theorem evalToken_dictionary_cases {s : Session α} (hs : s.ClosingFree) {token : Token}
    {patience : Nat} {o : Outcome α} (h : s.evalToken patience token = some o) :
    o.session.dictionary = s.dictionary
      ∨ ∃ name body, token = ";" ∧ s.mode = .compiling name body
        ∧ o.session = s.define name body ∧ o.error = none ∧ o.expansions = 0 := by
  obtain ⟨last, hreach, hend⟩ := path_of_evalToken h
  rcases Run.advance_ended hend with ⟨-, rfl⟩ | ⟨_, _, _, hp, hsession, -⟩
  · rcases Run.reaches_start_cases hs hreach with
      rfl | hflight | ⟨name, body, ht, hmode, hdef, -, hexp⟩
    · exact .inl rfl
    · exact .inl hflight.dictionary
    · exact .inr ⟨name, body, ht, hmode, hdef, rfl, hexp⟩
  · rw [hsession]
    exact .inl (Run.dictionary_of_pending hs hreach (by rw [hp]; exact List.cons_ne_nil _ _))

/-- A closing token is stray only as the token of a call. -/
theorem of_evalToken_unopened {s : Session α} (hs : s.ClosingFree) {token : Token}
    {patience : Nat} {o : Outcome α} (h : s.evalToken patience token = some o)
    (herr : o.error = some (.malformedDefinition .unopened)) :
    token = ";" ∧ s.mode = .interpreting ∧ s.dictionary.get? ";" = none := by
  obtain ⟨last, hreach, hend⟩ := path_of_evalToken h
  rcases Run.advance_ended hend with ⟨-, rfl⟩ | ⟨t, rest, cause, hp, -, he, hcause⟩
  · cases herr
  · rw [he] at herr
    cases herr
    rcases hcause with hd | ⟨_, _, -, -, -, hcause⟩
    · cases becomes_of_dispatch hd with
      | failed hmode hfree hstray =>
        obtain rfl := hstray rfl
        rcases Run.eq_start_or_closing_not_mem hs hreach with rfl | hclosing
        · exact ⟨(List.cons.inj hp).1, hmode, hfree⟩
        · exact absurd (hp ▸ List.mem_cons_self) hclosing
    · cases hcause

end Session

/-- **The dictionary does not change while a word is expanded.** In every reachable
session no body contains the closing token. Hence a call changes the dictionary only
if its own token closes a definition, which is then all it does; wherever a token is
still to be dispatched the dictionary is that from before the call; a call that
expands a word leaves the dictionary as it was; and the closing token is stray only
as the token of a call between definitions, if it is no user word. -/
theorem dictionary_unchanged_in_expansion [Arithmetic α] {settings : Settings} {s : Session α}
    (h : s.Reachable settings) :
    ((∀ entry ∈ s.dictionary.entries, ";" ∉ entry.2)
      ∧ ∀ name body, s.mode = .compiling name body → ";" ∉ body)
    ∧ ∀ token,
      (∀ patience o, s.evalToken patience token = some o →
        o.session.dictionary ≠ s.dictionary →
          token = ";" ∧ ∃ name body, s.mode = .compiling name body)
      ∧ (∀ name body, token = ";" → s.mode = .compiling name body →
        (∀ patience, ∃ log, s.evalToken (patience + 2) token
          = some ⟨{ s with dictionary := s.dictionary.insert name body, mode := .interpreting },
              none, 0, log⟩)
        ∧ ∀ r, (Run.start s token).Reaches r → r = Run.start s token ∨ r.pending = [])
      ∧ (∀ r, (Run.start s token).Reaches r → r.pending ≠ [] →
        r.session.dictionary = s.dictionary)
      ∧ (∀ patience o, s.evalToken patience token = some o → o.expansions ≠ 0 →
        o.session.dictionary = s.dictionary)
      ∧ ∀ patience o, s.evalToken patience token = some o →
        o.error = some (.malformedDefinition .unopened) →
          token = ";" ∧ s.mode = .interpreting ∧ s.dictionary.get? ";" = none := by
  have hs := h.closingFree
  refine ⟨⟨hs.stored, hs.compiled⟩, fun token => ⟨?changes, ?closes, ?lookups, ?expands, ?stray⟩⟩
  case changes =>
    intro patience o ho hne
    rcases Session.evalToken_dictionary_cases hs ho with hsame | ⟨name, body, ht, hmode, -⟩
    · exact absurd hsame hne
    · exact ⟨ht, name, body, hmode⟩
  case closes =>
    rintro name body rfl hmode
    have hd := Session.dispatch_closing hmode
    refine ⟨fun patience => ⟨_, Session.evalToken_settled hd patience⟩, fun r hr => ?_⟩
    rcases Relation.ReflTransGen.cases_head hr with rfl | ⟨mid, hfirst, hrest⟩
    · exact .inl rfl
    · rw [Run.Next, Run.advance_settled rfl hd] at hfirst
      cases hfirst
      exact .inr (by rw [Run.eq_of_reaches_of_nil rfl hrest])
  case lookups => exact fun r hr hp => Run.dictionary_of_pending hs hr hp
  case expands =>
    intro patience o ho hexp
    rcases Session.evalToken_dictionary_cases hs ho with hsame | ⟨_, _, -, -, -, -, hzero⟩
    · exact hsame
    · exact absurd hzero hexp
  case stray => exact fun patience o ho herr => Session.of_evalToken_unopened hs ho herr

/-- Even a word whose body opens a definition leaves the dictionary as it was. -/
theorem dictionary_unchanged_in_expansion_begin :
    let s : Session Cell := (Session.new .plain).define "begin" [":", "x"]
    s.Reachable .plain
      ∧ (∃ o, s.evalToken 4 "begin" = some o ∧ o.expansions = 1)
      ∧ ∀ patience o, s.evalToken patience "begin" = some o → o.expansions ≠ 0 →
        o.session.dictionary = s.dictionary := by
  intro s
  have htokens : tokenize ": BEGIN : x ;" = [":", "begin", ":", "x", ";"] := by
    decide +kernel
  have hline : (Session.new .plain : Session Cell).evalLine 2 ": BEGIN : x ;"
      = some ⟨s, none, 0, []⟩ := by
    rw [Session.evalLine, htokens]
    rfl
  have hs : s.Reachable .plain := .call (c := .line _) .new hline
  obtain ⟨-, -, -, expands, -⟩ := (dictionary_unchanged_in_expansion hs).2 "begin"
  exact ⟨hs, ⟨_, rfl, rfl⟩, expands⟩

end Concatenative
