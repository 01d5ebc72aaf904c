/-
User words under other names.

A token is asked three questions, in this order: is it a user word, is it a number, is it a
keyword? Besides, while a body is compiled, it is asked whether it is the closing token. So what
a user word is called makes no difference as long as the answers stay the same, which is what
`Renaming` asks for: different tokens keep different names, and numbers and keywords keep theirs.
That a user word may be called like a number or a keyword is no obstacle, since such a name is
renamed to itself.

Everything that is made of tokens is renamed along (`Session.rename`, `EvalError.rename`), and
then dispatch commutes with renaming (`Session.dispatch_rename`). As a comparison of runs this is
`Lockstep.renaming`, which nothing ends, not even a failure.
-/
import Concatenative.Proofs.Dependence
import Mathlib.Logic.Equiv.Basic

set_option autoImplicit false

namespace Concatenative

variable {α : Type}

/-! ## Renamings -/

/-- New names for tokens. Different tokens get different names, and numbers and keywords keep
theirs. -/
structure Renaming where
  name : Token → Token
  injective : Function.Injective name
  literal : ∀ token, (Cell.ofLiteral? token).isSome → name token = token
  keyword : ∀ k : Keyword, name k.text = k.text

instance : CoeFun Renaming fun _ => Token → Token :=
  ⟨Renaming.name⟩

namespace Renaming

variable (ρ : Renaming)

theorem eq_iff {t t' : Token} : ρ t = ρ t' ↔ t = t' :=
  ρ.injective.eq_iff

/-- A token that keeps its name is not the new name of another one. -/
theorem eq_fixed_iff {t fixed : Token} (h : ρ fixed = fixed) : ρ t = fixed ↔ t = fixed := by
  constructor
  · intro e
    exact ρ.injective (e.trans h.symm)
  · rintro rfl
    exact h

theorem ofLiteral? (t : Token) : Cell.ofLiteral? (ρ t) = Cell.ofLiteral? t := by
  by_cases hold : (Cell.ofLiteral? t).isSome
  · rw [ρ.literal t hold]
  · by_cases hnew : (Cell.ofLiteral? (ρ t)).isSome
    · -- A new name that is a number is its own new name, so it is the old one.
      have hsame : t = ρ t := (ρ.eq_fixed_iff (ρ.literal (ρ t) hnew)).1 rfl
      exact congrArg Cell.ofLiteral? hsame.symm
    · rw [Option.not_isSome_iff_eq_none.1 hold, Option.not_isSome_iff_eq_none.1 hnew]

theorem ofToken? (t : Token) : Keyword.ofToken? (ρ t) = Keyword.ofToken? t := by
  refine Option.ext fun k => ?_
  rw [Keyword.ofToken?_eq_some_iff, Keyword.ofToken?_eq_some_iff, ρ.eq_fixed_iff (ρ.keyword k)]

/-- Two tokens that are no numbers and no keywords, each under the name of the other. -/
def exchange (a b : Token) (ha : a.IsFree) (hb : b.IsFree) : Renaming where
  name := Equiv.swap a b
  injective := (Equiv.swap a b).injective
  literal := by
    intro t ht
    refine Equiv.swap_apply_of_ne_of_ne ?_ ?_
    · rintro rfl
      rw [ha.1] at ht
      cases ht
    · rintro rfl
      rw [hb.1] at ht
      cases ht
  keyword := by
    intro k
    have hk : Keyword.ofToken? k.text = some k := Keyword.ofToken?_eq_some_iff.2 rfl
    refine Equiv.swap_apply_of_ne_of_ne ?_ ?_
    · intro h
      rw [h, ha.2] at hk
      cases hk
    · intro h
      rw [h, hb.2] at hk
      cases hk

end Renaming

/-! ## What is made of tokens, renamed -/

namespace Dictionary

theorem bindEntry_rename (ρ : Renaming) (name : Token) (body : List Token)
    (entries : List (Token × List Token)) :
    bindEntry (ρ name) (body.map ρ) (entries.map fun entry => (ρ entry.1, entry.2.map ρ))
      = (bindEntry name body entries).map fun entry => (ρ entry.1, entry.2.map ρ) := by
  induction entries with
  | nil => rfl
  | cons entry rest ih =>
    simp only [List.map_cons, bindEntry, ρ.eq_iff, ih]
    split <;> rfl

theorem lookup_rename (ρ : Renaming) (token : Token) (entries : List (Token × List Token)) :
    (entries.map fun entry => (ρ entry.1, entry.2.map ρ)).lookup (ρ token)
      = (entries.lookup token).map (List.map ρ) := by
  induction entries with
  | nil => rfl
  | cons entry rest ih =>
    obtain ⟨name, body⟩ := entry
    by_cases h : token = name
    · simp [h]
    · have hbeq : (token == name) = false := by simpa using h
      have hbeq' : (ρ token == ρ name) = false := by simpa [ρ.eq_iff] using h
      simp only [List.map_cons, List.lookup_cons, hbeq, hbeq', ih]

/-- The dictionary with its words and what they mention renamed, in the same order. -/
def rename (ρ : Renaming) (d : Dictionary) : Dictionary where
  entries := d.entries.map fun entry => (ρ entry.1, entry.2.map ρ)
  distinct := by
    have hnames : (d.entries.map fun entry => (ρ entry.1, entry.2.map ρ)).map Prod.fst
        = (d.entries.map Prod.fst).map ρ := by
      rw [List.map_map, List.map_map]
      rfl
    rw [hnames]
    exact d.distinct.map ρ.injective

theorem get?_rename (ρ : Renaming) (d : Dictionary) (token : Token) :
    (d.rename ρ).get? (ρ token) = (d.get? token).map (List.map ρ) :=
  lookup_rename ρ token d.entries

theorem rename_insert (ρ : Renaming) (d : Dictionary) (name : Token) (body : List Token) :
    (d.rename ρ).insert (ρ name) (body.map ρ) = (d.insert name body).rename ρ :=
  eq_of_entries (bindEntry_rename ρ name body d.entries)

theorem longestBody_rename (ρ : Renaming) (d : Dictionary) :
    (d.rename ρ).longestBody = d.longestBody := by
  simp only [longestBody, rename, List.foldl_map, List.length_map]

end Dictionary

/-- The mode with the tokens of an open definition renamed. -/
def Mode.rename (ρ : Renaming) : Mode → Mode
  | interpreting => interpreting
  | naming => naming
  | compiling name body => compiling (ρ name) (body.map ρ)

/-- The cause with the name of an open definition renamed. -/
def DefinitionError.rename (ρ : Renaming) : DefinitionError → DefinitionError
  | unopened => unopened
  | unclosed name => unclosed (name.map ρ)

/-- The cause with the token it mentions renamed. -/
def EvalError.rename (ρ : Renaming) : EvalError → EvalError
  | stackUnderflow => stackUnderflow
  | arithmetic cause => arithmetic cause
  | unknownToken token => unknownToken (ρ token)
  | malformedDefinition cause => malformedDefinition (cause.rename ρ)
  | expansionLimit limit => expansionLimit limit

namespace Session

/-- The session with its words renamed. The values have nothing to do with names. -/
def rename (ρ : Renaming) (s : Session α) : Session α :=
  ⟨s.dictionary.rename ρ, s.stack, s.mode.rename ρ, s.settings⟩

theorem rename_new (ρ : Renaming) (settings : Settings) :
    (new settings : Session α).rename ρ = new settings := rfl

theorem rename_cleared (ρ : Renaming) (s : Session α) :
    s.cleared.rename ρ = (s.rename ρ).cleared := rfl

theorem rename_define (ρ : Renaming) (s : Session α) (name : Token) (body : List Token) :
    (s.rename ρ).define (ρ name) (body.map ρ) = (s.define name body).rename ρ := by
  rw [define, define, rename, rename, Dictionary.rename_insert]
  rfl

/-- A definition that is left open is reported under its new name. -/
theorem unclosed?_rename (ρ : Renaming) (s : Session α) :
    (s.rename ρ).unclosed? = s.unclosed?.map (EvalError.rename ρ) := by
  obtain ⟨d, stack, mode, settings⟩ := s
  cases mode <;> rfl

theorem steps_rename (ρ : Renaming) (s : Session α) (patience : Nat) :
    (s.rename ρ).steps patience = s.steps patience := by
  rw [steps, steps, rename, Dictionary.longestBody_rename]

/-! ## Dispatch -/

/-- What becomes of two tokens of which the second one is the first one renamed. -/
abbrev StepsRenamed (ρ : Renaming) : Step α → Step α → Prop :=
  Step.Alike (fun s s' => s' = s.rename ρ) (fun t t' => t' = ρ t) (fun c c' => c' = c.rename ρ)

/-- An effect on the stack has nothing to do with names, unless it fails and mentions one. -/
theorem take_rename (ρ : Renaming) (s : Session α) {effect : Except EvalError (List α)}
    (h : ∀ cause, effect = .error cause → cause.rename ρ = cause) :
    StepsRenamed ρ (s.take effect) ((s.rename ρ).take effect) := by
  cases effect with
  | ok stack => exact .settled rfl
  | error cause => exact .failure (h cause rfl).symm

theorem rename_of_shuffle (ρ : Renaming) {move : Shuffle} {stack : List α} {cause : EvalError}
    (h : move.effect stack = .error cause) : cause.rename ρ = cause := by
  rw [Shuffle.effect] at h
  split at h <;> cases h
  rfl

variable [Arithmetic α]

theorem rename_of_operator (ρ : Renaming) {op : Operator} {stack : List α} {cause : EvalError}
    (h : op.effect stack = .error cause) : cause.rename ρ = cause := by
  unfold Operator.effect Operator.result at h
  split at h
  · rename_i right left rest
    cases hcalc : Arithmetic.calculate op left right with
    | ok value =>
      rw [hcalc] at h
      cases h
    | error e =>
      rw [hcalc] at h
      cases h
      rfl
  · cases h
    rfl

theorem execute_rename (ρ : Renaming) (s : Session α) (k : Keyword) :
    StepsRenamed ρ (s.execute k) ((s.rename ρ).execute k) := by
  cases k with
  | operator op =>
    rw [execute_operator, execute_operator]
    exact take_rename ρ s fun _ => rename_of_operator ρ
  | shuffle move =>
    rw [execute_shuffle, execute_shuffle]
    exact take_rename ρ s fun _ => rename_of_shuffle ρ
  | openDefinition => exact .settled rfl
  | closeDefinition => exact .failure rfl

theorem interpret_rename (ρ : Renaming) (s : Session α) (token : Token) :
    StepsRenamed ρ (s.interpret token) ((s.rename ρ).interpret (ρ token)) := by
  have hget : (s.rename ρ).dictionary.get? (ρ token)
      = (s.dictionary.get? token).map (List.map ρ) := Dictionary.get?_rename ρ s.dictionary token
  unfold interpret
  rw [hget, ρ.ofLiteral?, ρ.ofToken?]
  cases s.dictionary.get? token with
  | some body =>
    exact .expansion (List.forall₂_map_right_iff.2 (List.forall₂_same.2 fun _ _ => rfl))
  | none =>
    cases Cell.ofLiteral? token with
    | some value => exact .settled rfl
    | none =>
      cases Keyword.ofToken? token with
      | some k => exact s.execute_rename ρ k
      | none => exact .failure rfl

/-- **Dispatch does not see what user words are called.** -/
theorem dispatch_rename (ρ : Renaming) (s : Session α) (token : Token) :
    StepsRenamed ρ (s.dispatch token) ((s.rename ρ).dispatch (ρ token)) := by
  cases hmode : s.mode with
  | interpreting =>
    have hmode' : (s.rename ρ).mode = .interpreting := by rw [rename, hmode]; rfl
    simp only [dispatch, hmode, hmode']
    exact s.interpret_rename ρ token
  | naming =>
    have hmode' : (s.rename ρ).mode = .naming := by rw [rename, hmode]; rfl
    rw [dispatch_naming hmode, dispatch_naming hmode']
    exact .settled rfl
  | compiling name body =>
    have hmode' : (s.rename ρ).mode = .compiling (ρ name) (body.map ρ) := by
      rw [rename, hmode]
      rfl
    have hclosing : ρ token = ";" ↔ token = ";" := ρ.eq_fixed_iff (ρ.keyword .closeDefinition)
    by_cases hclose : token = ";"
    · rw [hclosing.2 hclose, hclose, dispatch_closing hmode, dispatch_closing hmode']
      exact .settled (s.rename_define ρ name body)
    · rw [dispatch_compiling hmode hclose,
        dispatch_compiling hmode' fun h => hclose (hclosing.1 h)]
      refine .settled ?_
      simp only [rename, Mode.rename, List.map_append, List.map_singleton]

end Session

/-! ## Runs and calls -/

variable [Arithmetic α]

/-- Renaming as a comparison of runs. Nothing ends it. -/
def Lockstep.renaming (ρ : Renaming) : Lockstep α α where
  sessions s s' := s' = s.rename ρ
  tokens t t' := t' = ρ t
  causes c c' := c' = c.rename ρ
  stopsLeft _ := False
  stopsRight _ := False
  limit_eq := by
    rintro s _ rfl
    rfl
  exceeded _ _ := rfl
  dispatch := by
    rintro s _ token _ rfl rfl
    exact .inl (s.dispatch_rename ρ token)

theorem Lockstep.renaming_lasting (ρ : Renaming) : (Lockstep.renaming (α := α) ρ).Lasting where
  left _ h := h
  right _ h := h
  cleared := by
    rintro s _ rfl
    exact (s.rename_cleared ρ).symm
  steps := by
    rintro s _ patience rfl
    exact s.steps_rename ρ patience

/-- The second outcome is the first one under new names: what can be seen of a session after a
call, and what the end of the source would make of it. -/
structure Outcome.Renamed (ρ : Renaming) (o o' : Outcome α) : Prop where
  error : o'.error = o.error.map (EvalError.rename ρ)
  expansions : o'.expansions = o.expansions
  stack : o'.session.stack = o.session.stack
  mode : o'.session.mode = o.session.mode.rename ρ
  entries : o'.session.dictionary.entries
    = o.session.dictionary.entries.map fun entry => (ρ entry.1, entry.2.map ρ)
  unclosed : o'.session.unclosed? = o.session.unclosed?.map (EvalError.rename ρ)

theorem Lockstep.Results.renamed {ρ : Renaming} {o o' : Outcome α}
    (h : (Lockstep.renaming ρ).Results o o') : o.Renamed ρ o' := by
  have herror : o'.error = o.error.map (EvalError.rename ρ) := by
    obtain ⟨s, error, count, log⟩ := o
    obtain ⟨s', error', count', log'⟩ := o'
    cases h.error with
    | some hcause => exact congrArg some hcause
    | none => rfl
  have hsession : o'.session = o.session.rename ρ := h.session
  refine ⟨herror, h.expansions, ?_, ?_, ?_, ?_⟩
  · rw [hsession]
    rfl
  · rw [hsession]
    rfl
  · rw [hsession]
    rfl
  · rw [hsession, Session.unclosed?_rename]

/-- **User words can be renamed.** Feed tokens one by one to a new session, going on after
failures, and feed the renamed tokens to another one under the same settings. The calls
correspond: they end or do not end together, with the same number of expansions, and the second
fails if the first does and for the same cause, renamed. After each call the stacks are the
same, the mode and the dictionary are the renamed ones, the latter in the same order, and if the
source ended there the same would be wrong with it, under the new name. -/
theorem words_can_be_renamed (ρ : Renaming) (settings : Settings) (tokens : List Token)
    (patience : Nat) :
    Option.Rel (List.Forall₂ (Outcome.Renamed ρ))
      ((Session.new settings : Session α).answers patience (tokens.map .token))
      ((Session.new settings : Session α).answers patience
        (tokens.map fun token => .token (ρ token))) := by
  have hcalls : List.Forall₂ (Call.Alike fun t t' => t' = ρ t) (tokens.map .token)
      (tokens.map fun token => .token (ρ token)) := by
    rw [List.forall₂_map_left_iff, List.forall₂_map_right_iff]
    exact List.forall₂_same.2 fun _ _ => .token rfl
  have hnew : (Session.new settings : Session α) = (Session.new settings).rename ρ :=
    (Session.rename_new ρ settings).symm
  refine rel_mono (fun _ _ h => ?_)
    ((Lockstep.renaming_lasting ρ).answers hnew hcalls patience)
  exact h.imp fun _ _ => Lockstep.Results.renamed

/-- Two words under each other's names. One of them is defined, a keyword is redefined by means of
it, the other one is not known, and at last its definition is left open. -/
theorem words_can_be_renamed_square :
    let ρ := Renaming.exchange "sq" "cube" (by decide) (by decide)
    let tokens := [":", "sq", "dup", "*", ";", ":", "+", "sq", ";", "7", "+", "cube", ":", "cube"]
    (tokens.map ρ
      = [":", "cube", "dup", "*", ";", ":", "+", "cube", ";", "7", "+", "sq", ":", "sq"])
    ∧ ∃ outcomes outcomes' : List (Outcome Cell),
      (Session.new .plain).answers 6 (tokens.map .token) = some outcomes
      ∧ (Session.new .plain).answers 6 (tokens.map fun token => .token (ρ token)) = some outcomes'
      ∧ List.Forall₂ (Outcome.Renamed ρ) outcomes outcomes'
      ∧ outcomes.filterMap Outcome.error = [.unknownToken "cube"]
      ∧ outcomes'.filterMap Outcome.error = [.unknownToken "sq"]
      ∧ (outcomes'.getLast?.bind fun o => o.session.unclosed?)
        = some (.malformedDefinition (.unclosed (some "sq"))) := by
  intro ρ tokens
  obtain ⟨outcomes', houtcomes', hall⟩ :=
    exists_of_rel_some (words_can_be_renamed ρ .plain tokens 6 :
      Option.Rel (List.Forall₂ (Outcome.Renamed ρ))
        ((Session.new .plain : Session Cell).answers 6 (tokens.map .token)) _)
  have hend : ((Session.new .plain : Session Cell).answers 6
      (tokens.map fun token => .token (ρ token))).map (fun outcomes =>
        (outcomes.filterMap Outcome.error, outcomes.getLast?.bind fun o => o.session.unclosed?))
      = some ([.unknownToken "sq"], some (.malformedDefinition (.unclosed (some "sq")))) := by
    decide +kernel
  rw [houtcomes', Option.map_some, Option.some.injEq, Prod.mk.injEq] at hend
  exact ⟨by decide +kernel, _, outcomes', rfl, houtcomes', hall, by decide, hend.1, hend.2⟩

end Concatenative
