/-
A session written down is a session.

Its stack, the definition lines of its dictionary and its mode are text, and a new
session that reads this text becomes the old one. Two facts about the old session
are needed besides those about tokens and bodies. Everything in it has come out of
a line (`Session.Spellable`), so that it survives being written and cut up again. And
if the opening token has become a user word, it is the youngest one and no definition
is open (`Session.OpeningLast`), so that up to the end the opening token still opens
definitions in the session that reads.

Reading never expands a word, whatever the dictionary, because each token is either
read before there are words or read as part of a definition: all of it settles
(`Session.settles_savedLines`).
-/
import Concatenative.Proofs.Definition
import Concatenative.Proofs.Settling
import Concatenative.Proofs.Tokenization
import Mathlib.Data.List.Basic

set_option autoImplicit false

namespace Concatenative

/-! ## What has come out of lines -/

/-- Everything in a session that is made of tokens can be written and read back. -/
structure Session.Spellable {α : Type} (s : Session α) : Prop where
  stored : ∀ entry ∈ s.dictionary.entries, ∀ t ∈ entry.1 :: entry.2, IsToken t
  opened : ∀ t ∈ s.mode.tokens, IsToken t

theorem isToken_opening : IsToken ":" := by
  decide +kernel

theorem isToken_closing : IsToken ";" := by
  decide +kernel

/-- The text of an open definition is that of its tokens. -/
theorem tokenize_modeText {m : Mode} (h : ∀ t ∈ m.tokens, IsToken t) :
    tokenize m.text = m.tokens := by
  have hspelled : m.text = spelled m.tokens := by
    -- An empty body is written without a space before it.
    match m with
    | .interpreting => rfl
    | .naming => rfl
    | .compiling name [] =>
      simp [Mode.text, Mode.tokens, spelled, joined, String.intercalate_cons_cons]
    | .compiling name (t :: ts) =>
      simp [Mode.text, Mode.tokens, spelled, joined, String.intercalate_cons_cons,
        String.append_assoc]
  rw [hspelled, tokenize_spelled h]

/-- A definition line is read as the definition. -/
theorem tokenize_definitionLine {name : Token} {body : List Token}
    (h : ∀ t ∈ name :: body, IsToken t) :
    tokenize (Dictionary.definitionLine name body) = definitionTokens name body := by
  have hname : tokenize name = [name] := h name List.mem_cons_self
  have hbody : tokenize (spelled body) = body :=
    tokenize_spelled fun t ht => h t (List.mem_cons_of_mem _ ht)
  have hopening : tokenize ":" = [":"] := isToken_opening
  have hclosing : tokenize ";" = [";"] := isToken_closing
  have hline : Dictionary.definitionLine name body
      = ":" ++ " " ++ name ++ " " ++ spelled body ++ " " ++ ";" := by
    simp [Dictionary.definitionLine, String.append_assoc]
  rw [hline, tokenize_append_space, tokenize_append_space, tokenize_append_space, hopening,
    hname, hbody, hclosing]
  rfl

theorem tokenize_render (s : Session Cell) :
    tokenize s.render = s.stack.reverse.map Cell.text := by
  refine tokenize_spelled fun t ht => ?_
  obtain ⟨c, -, rfl⟩ := List.mem_map.1 ht
  exact isToken_decimal c.val

/-! ## Which sessions can be written -/

namespace Session

variable {α : Type} [Arithmetic α]

theorem Spellable.settled {s s' : Session α} (h : s.Spellable) {token : Token}
    (htoken : IsToken token) {news : List (Record α)}
    (hd : s.dispatch token = .settled s' news) : s'.Spellable := by
  have hopened := h.opened
  cases becomes_of_dispatch hd with
  | carriedOut stack hmode hfree => exact ⟨h.stored, h.opened⟩
  | opened hmode hfree ht => exact ⟨h.stored, List.forall_mem_singleton.2 isToken_opening⟩
  | named hmode =>
    refine ⟨h.stored, ?_⟩
    exact List.forall_mem_cons.2 ⟨isToken_opening, List.forall_mem_singleton.2 htoken⟩
  | @closed name body hmode ht =>
    rw [hmode] at hopened
    refine ⟨fun entry hentry => ?_, List.forall_mem_nil _⟩
    rcases Dictionary.mem_of_mem_insert hentry with rfl | hentry
    · exact fun t ht => hopened t (List.mem_cons_of_mem _ ht)
    · exact h.stored entry hentry
  | @appended name body hmode ht =>
    rw [hmode] at hopened
    refine ⟨h.stored, fun t ht => ?_⟩
    have hsplit : t ∈ (":" :: name :: body) ++ [token] := ht
    rcases List.mem_append.1 hsplit with ht | ht
    · exact hopened t ht
    · exact List.mem_singleton.1 ht ▸ htoken

theorem Spellable.kept : Kept (α := α) IsToken Spellable where
  settled := fun h htoken hd => h.settled htoken hd
  body := by
    intro s token body h hd t ht
    cases becomes_of_dispatch hd with
    | expanded hmode hget =>
      exact h.stored _ (Dictionary.mem_of_get?_eq_some hget) t (List.mem_cons_of_mem _ ht)
  cleared := fun h => ⟨h.stored, List.forall_mem_nil _⟩

theorem ReachableByLines.spellable {settings : Settings} {s : Session α}
    (h : s.ReachableByLines settings) : s.Spellable :=
  Spellable.kept.reachableByLines (fun _ _ ht => isToken_of_mem_tokenize ht)
    ⟨List.forall_mem_nil _, List.forall_mem_nil _⟩ h

/-! ## Saving and restoring -/

/-- A session as lines of source text: its values, its words and its open definition. -/
def savedLines (s : Session Cell) : List String :=
  s.render :: (s.dictionary.definitionLines ++ [s.mode.text])

theorem tokenizeLines_savedLines {s : Session Cell} (h : s.Spellable) :
    tokenizeLines s.savedLines
      = s.stack.reverse.map Cell.text
        ++ (s.dictionary.entries.flatMap fun entry => definitionTokens entry.1 entry.2)
        ++ s.mode.tokens := by
  have hlines : s.dictionary.definitionLines.flatMap tokenize
      = s.dictionary.entries.flatMap fun entry => definitionTokens entry.1 entry.2 := by
    rw [Dictionary.definitionLines, List.flatMap_map]
    exact List.flatMap_congr fun entry hentry => tokenize_definitionLine (h.stored entry hentry)
  rw [tokenizeLines, savedLines, List.flatMap_cons, List.flatMap_append, List.flatMap_singleton,
    tokenize_render, hlines, tokenize_modeText h.opened, List.append_assoc]

/-- Written down and read by a new session, a session comes back, but for the
settings. -/
theorem settles_savedLines {s : Session Cell} (hspellable : s.Spellable)
    (hfree : s.ClosingFree) (hlast : s.OpeningLast) (settings : Settings) :
    (Session.new settings).Settles (tokenizeLines s.savedLines)
      { s with settings := settings } := by
  have hvalues : (Session.new settings).Settles (s.stack.reverse.map Cell.text)
      ⟨.empty, s.stack, .interpreting, settings⟩ := by
    have hnumbers := settles_numbers (s := new settings) rfl Dictionary.get?_empty s.stack.reverse
    have hstack : s.stack.reverse.reverse ++ (new settings : Session Cell).stack = s.stack := by
      rw [List.reverse_reverse]
      exact List.append_nil s.stack
    rw [hstack] at hnumbers
    exact hnumbers
  have hwords : Settles ⟨.empty, s.stack, .interpreting, settings⟩
      (s.dictionary.entries.flatMap fun entry => definitionTokens entry.1 entry.2)
      ⟨s.dictionary, s.stack, .interpreting, settings⟩ :=
    settles_definitions rfl rfl hlast.last hfree.stored
  have hmode : Settles ⟨s.dictionary, s.stack, .interpreting, settings⟩ s.mode.tokens
      { s with settings := settings } :=
    settles_mode rfl (fun h => Dictionary.get?_eq_none_iff.2 (hlast.not_mem_names h)) hfree.compiled
  rw [tokenizeLines_savedLines hspellable]
  exact (hvalues.trans hwords).trans hmode

end Session

/-- **A session can be saved as text and restored.** Of a session that lines have led
to, whatever failed on the way: the row of its values, the definition lines of its
words and the text of its mode, evaluated line by line in a new session under any
settings, are all accepted without any expansion, and the new session becomes the old
one, but for the settings. -/
theorem savedLines_restore {settings : Settings} {s : Session Cell}
    (h : s.ReachableByLines settings) (settings' : Settings) (patience : Nat) :
    ∃ outcomes, (Session.new settings').answers (patience + 2) (s.savedLines.map .line)
        = some outcomes
      ∧ (∀ o ∈ outcomes, o.error = none ∧ o.expansions = 0)
      ∧ (outcomes.map Outcome.session).getLast? = some { s with settings := settings' } := by
  have hsettles := Session.settles_savedLines h.spellable h.reachable.closingFree
    h.reachable.openingLast settings'
  obtain ⟨outcomes, houtcomes, hgood, hsession⟩ := hsettles.answers patience
  refine ⟨outcomes, houtcomes, hgood, ?_⟩
  -- There is a first line at least, so the last session is the one after the last line.
  cases outcomes with
  | nil =>
    rw [Session.savedLines, List.map_cons, Session.answers, Option.bind_eq_some_iff] at houtcomes
    obtain ⟨o, -, ho⟩ := houtcomes
    obtain ⟨rest, -, hcons⟩ := Option.map_eq_some_iff.1 ho
    cases hcons
  | cons o rest =>
    rw [List.map_cons, List.getLast?_cons_cons] at hsession
    exact hsession

/-- A session that has redefined the opening token comes back, even where nothing may
be expanded. -/
theorem savedLines_restore_opening_word :
    let s : Session Cell :=
      { (Session.new .plain : Session Cell).define "sq" ["dup", "*"] with
        stack := [⟨7, by decide, by decide⟩] }
    let s' := s.define ":" ["1"]
    s'.ReachableByLines .plain
      ∧ ∃ outcomes, (Session.new ⟨some 0, none⟩).answers 2 (s'.savedLines.map .line)
          = some outcomes
        ∧ (∀ o ∈ outcomes, o.error = none ∧ o.expansions = 0)
        ∧ (outcomes.map Outcome.session).getLast?
          = some { s' with settings := ⟨some 0, none⟩ } := by
  intro s s'
  have htokens : tokenize ": SQ dup * ; 7 : : 1 ;"
      = [":", "sq", "dup", "*", ";", "7", ":", ":", "1", ";"] := by
    decide +kernel
  have hline : (Session.new .plain : Session Cell).evalLine 2 ": SQ dup * ; 7 : : 1 ;"
      = some ⟨s', none, 0, []⟩ := by
    rw [Session.evalLine, htokens]
    rfl
  have hs : s'.ReachableByLines .plain := .line .new hline
  exact ⟨hs, savedLines_restore hs ⟨some 0, none⟩ 0⟩

end Concatenative
