/-
What a token can fail for, and how that reads.

A token fails by itself or through what it is expanded to, and there are a few causes for it
(`EvalError.StemsFrom`). That a definition is left open is not among them: this is found at the
end of a source only. And if a cause mentions a token, it is one that was dispatched, so it has
come out of the source, at once or by way of a body. Such a token has no white space in it, and
so whatever is wrong with a source is told on one line (`message_isLine`).
-/
import Concatenative.Proofs.Lines
import Concatenative.Proofs.Restoration

set_option autoImplicit false

namespace Concatenative

variable {α : Type}

/-! ## Causes -/

/-- A token with the property, or one it leads to, can fail for this. -/
def EvalError.StemsFrom (Proper : Token → Prop) : EvalError → Prop
  | stackUnderflow => True
  | arithmetic _ => True
  | unknownToken token => Proper token
  | malformedDefinition .unopened => True
  | malformedDefinition (.unclosed _) => False
  | expansionLimit _ => True

namespace Session

variable [Arithmetic α] {Proper : Token → Prop}

/-- A token that cannot be carried out fails for a cause that mentions it or no token at all. -/
theorem stemsFrom_of_dispatch {s : Session α} {token : Token} {cause : EvalError}
    (h : s.dispatch token = .failure cause) (htoken : Proper token) : cause.StemsFrom Proper := by
  rcases causes_of_dispatch h with (rfl | ⟨_, rfl⟩ | rfl) | rfl
  · trivial
  · trivial
  · trivial
  · exact htoken

namespace Kept

variable {Holds : Session α → Prop}

theorem stemsFrom_of_evalToken (hk : Kept Proper Holds) {s : Session α} {token : Token}
    {patience : Nat} {o : Outcome α} {cause : EvalError} (hs : Holds s) (ht : Proper token)
    (h : s.evalToken patience token = some o) (hfail : o.error = some cause) :
    cause.StemsFrom Proper := by
  obtain ⟨last, hreach, hend⟩ := path_of_evalToken h
  have hpending := (hk.reaches hreach hs (by simpa [Run.start] using ht)).2
  rcases Run.advance_ended hend with ⟨-, rfl⟩ | ⟨failing, rest, cause', hp, -, he, hcause⟩
  · cases hfail
  · obtain rfl : cause' = cause := Option.some.inj (he.symm.trans hfail)
    rcases hcause with hd | ⟨_, limit, -, -, -, rfl⟩
    · refine stemsFrom_of_dispatch hd (hpending failing ?_)
      rw [hp]
      exact List.mem_cons_self
    · trivial

theorem stemsFrom_of_feed (hk : Kept Proper Holds) {s : Session α} {tokens : List Token}
    {patience : Nat} {o : Outcome α} {cause : EvalError} (hs : Holds s)
    (ht : ∀ t ∈ tokens, Proper t) (h : s.feed patience tokens = some o)
    (hfail : o.error = some cause) : cause.StemsFrom Proper := by
  induction tokens generalizing s o with
  | nil =>
    cases h
    cases hfail
  | cons token rest ih =>
    obtain ⟨htoken, hrest⟩ := List.forall_mem_cons.1 ht
    obtain ⟨first, hfirst, ⟨-, rfl⟩ | ⟨-, second, hsecond, rfl⟩⟩ := feed_cons_iff.1 h
    · exact hk.stemsFrom_of_evalToken hs htoken hfirst hfail
    · exact ih (hk.evalToken hs htoken hfirst) hrest hsecond hfail

end Kept

/-- Evaluating a source never fails for a definition that is left open. -/
theorem ne_unclosed_of_feed {s : Session α} {tokens : List Token} {patience : Nat}
    {o : Outcome α} (h : s.feed patience tokens = some o) (name : Option Token) :
    o.error ≠ some (.malformedDefinition (.unclosed name)) := by
  have hkept : Kept (α := α) (fun _ => True) fun _ => True :=
    ⟨fun _ _ _ => trivial, fun _ _ _ _ => trivial, fun _ => trivial⟩
  exact fun hfail => hkept.stemsFrom_of_feed trivial (fun _ _ => trivial) h hfail

end Session

/-! ## Messages -/

open Text

/-- The text has no line feed and no carriage return in it. -/
def IsLine (text : String) : Prop :=
  ∀ c ∈ text.toList, c ≠ '\n' ∧ c ≠ '\r'

theorem isLine_of_all {text : String}
    (h : text.toList.all (fun c => c != '\n' && c != '\r') = true) : IsLine text := by
  intro c hc
  simpa using List.all_eq_true.1 h c hc

theorem IsLine.append {a b : String} (ha : IsLine a) (hb : IsLine b) : IsLine (a ++ b) := by
  intro c hc
  rw [String.toList_append, List.mem_append] at hc
  rcases hc with hc | hc
  · exact ha c hc
  · exact hb c hc

theorem isLine_of_noSpace {text : String} (h : ∀ c ∈ text.toList, isWhiteSpace c = false) :
    IsLine text := by
  intro c hc
  have hspace := h c hc
  constructor
  · rintro rfl
    rw [isWhiteSpace_feed] at hspace
    cases hspace
  · rintro rfl
    rw [isWhiteSpace_return] at hspace
    cases hspace

theorem IsToken.isLine {t : String} (h : IsToken t) : IsLine t := by
  have hmem : t ∈ tokenize t := by
    rw [show tokenize t = [t] from h]
    exact List.mem_singleton_self t
  obtain ⟨word, hword, heq⟩ := List.mem_map.1 hmem
  refine isLine_of_noSpace fun c hc => ?_
  rw [← heq, String.toList_ofList] at hc
  exact isWhiteSpace_of_mem_lowerWord (of_mem_words hword).2 hc

theorem isLine_repr (n : Nat) : IsLine n.repr := by
  refine isLine_of_noSpace fun c hc => ?_
  rw [Nat.toList_repr] at hc
  exact (of_isDigit (Nat.isDigit_of_mem_toDigits (by decide) (by decide) hc)).1

/-- The tokens that a message quotes. -/
def EvalError.quotes : EvalError → List Token
  | unknownToken token => [token]
  | malformedDefinition (.unclosed (some name)) => [name]
  | _ => []

/-- A failure quotes no tokens but those it stems from. -/
theorem EvalError.StemsFrom.forall_mem_quotes {Proper : Token → Prop} {cause : EvalError}
    (h : cause.StemsFrom Proper) : ∀ t ∈ cause.quotes, Proper t := by
  cases cause with
  | stackUnderflow => exact List.forall_mem_nil _
  | arithmetic _ => exact List.forall_mem_nil _
  | unknownToken token => exact List.forall_mem_singleton.2 h
  | malformedDefinition cause =>
    cases cause with
    | unopened => exact List.forall_mem_nil _
    | unclosed _ => exact h.elim
  | expansionLimit _ => exact List.forall_mem_nil _

/-- **What is wrong is told on one line**, if the tokens that are quoted are such as come out of
a text. -/
theorem EvalError.message_isLine {cause : EvalError} (h : ∀ t ∈ cause.quotes, IsToken t) :
    IsLine cause.message := by
  match cause with
  | .stackUnderflow => exact isLine_of_all (by decide)
  | .arithmetic .divisionByZero => exact isLine_of_all (by decide)
  | .arithmetic .overflow => exact isLine_of_all (by decide)
  | .unknownToken token =>
    have htoken : IsLine token := (h token List.mem_cons_self).isLine
    have hfront : IsLine "can't understand " := isLine_of_all (by decide)
    exact hfront.append htoken
  | .malformedDefinition .unopened => exact isLine_of_all (by decide)
  | .malformedDefinition (.unclosed none) => exact isLine_of_all (by decide)
  | .malformedDefinition (.unclosed (some name)) =>
    have hname : IsLine name := (h name List.mem_cons_self).isLine
    have hfront : IsLine "definition of " := isLine_of_all (by decide)
    have hback : IsLine " is missing ;" := isLine_of_all (by decide)
    have hkind : IsLine "malformed definition: " := isLine_of_all (by decide)
    exact hkind.append ((hfront.append hname).append hback)
  | .expansionLimit limit =>
    have hfront : IsLine "more than " := isLine_of_all (by decide)
    have hback : IsLine " expansions" := isLine_of_all (by decide)
    exact (hfront.append (isLine_repr limit)).append hback

/-- What is wrong with a source is a failure or else a definition that is open at its end. -/
theorem Outcome.of_verdict_error {o : Outcome Cell} {cause : EvalError}
    (h : o.verdict = .error cause) :
    o.error = some cause
      ∨ o.error = none
        ∧ (o.session.mode = .naming ∧ cause = .malformedDefinition (.unclosed none)
          ∨ ∃ name body, o.session.mode = .compiling name body
            ∧ cause = .malformedDefinition (.unclosed (some name))) := by
  rw [verdict] at h
  cases hfail : o.error with
  | some cause' =>
    rw [hfail] at h
    exact .inl (congrArg some (Except.error.inj h))
  | none =>
    rw [hfail, Session.unclosed?] at h
    refine .inr ⟨rfl, ?_⟩
    cases hmode : o.session.mode with
    | interpreting =>
      rw [hmode] at h
      cases h
    | naming =>
      rw [hmode] at h
      exact .inl ⟨rfl, (Except.error.inj h).symm⟩
    | compiling name body =>
      rw [hmode] at h
      exact .inr ⟨name, body, rfl, (Except.error.inj h).symm⟩

/-- What is wrong with the tokens of a text is told on one line. -/
theorem isLine_of_verdict {settings : Settings} {tokens : List Token} {patience : Nat}
    {o : Outcome Cell} {cause : EvalError} (ht : ∀ t ∈ tokens, IsToken t)
    (h : (Session.new settings).feed patience tokens = some o)
    (hverdict : o.verdict = .error cause) : IsLine cause.message := by
  have hnew : (Session.new settings : Session Cell).Spellable :=
    ⟨List.forall_mem_nil _, List.forall_mem_nil _⟩
  refine EvalError.message_isLine ?_
  rcases Outcome.of_verdict_error hverdict with hfail | ⟨-, ⟨-, rfl⟩ | ⟨name, body, hmode, rfl⟩⟩
  · exact (Session.Spellable.kept.stemsFrom_of_feed hnew ht h hfail).forall_mem_quotes
  · exact List.forall_mem_nil _
  · -- The name of an open definition is among the tokens of the mode.
    have hopened := (Session.Spellable.kept.feed hnew ht h).opened
    rw [hmode] at hopened
    exact List.forall_mem_singleton.2 (hopened name (List.mem_cons_of_mem _ List.mem_cons_self))

end Concatenative
