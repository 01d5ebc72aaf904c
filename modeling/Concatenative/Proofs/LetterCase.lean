/-
The case of ASCII letters makes no difference.

A source is read in lower case, but lower-casing a word is not a matter of one character after the
other: what becomes of a capital sigma is read off its neighbours, and these may be letters whose
case has been changed. It is asked of them whether they are cased and whether they are
case-ignorable, and never in which case they are. So there are five questions that cutting and
lower-casing ask about a character, and a letter of ASCII answers all of them alike in both cases
(`toLower_of_isUpper`).

From there on it is a matter of carrying the comparison along: through what a sigma sees
(`Recased.lowerSigma_eq`), through a word (`lowerAfter_recased`), through the cut of a text into
words (`words_recased`). The tokens are then the same (`tokenize_recased`), and nothing behind
them can tell.
-/
import Concatenative.Proofs.Lines
import Mathlib.Data.List.Forall2

set_option autoImplicit false

namespace Concatenative

namespace Text

/-! ## Characters -/

/-- One character in place of another: the same one, or a letter of ASCII in the other case. -/
def Recased (c d : Char) : Prop :=
  d = c ∨ (c.isUpper = true ∧ d = c.toLower) ∨ (d.isUpper = true ∧ c = d.toLower)

instance (c d : Char) : Decidable (Recased c d) :=
  inferInstanceAs (Decidable (_ ∨ _))

/-- A capital letter of ASCII and its small letter have the same image, are white space, cased and
case-ignorable alike, and are no sigma. -/
theorem toLower_of_isUpper {c : Char} (h : c.isUpper = true) :
    lowerChar c.toLower = lowerChar c ∧ isWhiteSpace c.toLower = isWhiteSpace c
      ∧ isCased c.toLower = isCased c ∧ isCaseIgnorable c.toLower = isCaseIgnorable c
      ∧ c.toLower ≠ 'Σ' ∧ c ≠ 'Σ' := by
  have hascii : c.toNat < 0x80 := by
    have hrange : 'A'.val ≤ c.val ∧ c.val ≤ 'Z'.val := of_decide_eq_true h
    have hlast : c.toNat ≤ 90 := UInt32.le_iff_toNat_le.1 hrange.2
    omega
  exact ascii_forall (P := fun c => c.isUpper = true →
    lowerChar c.toLower = lowerChar c ∧ isWhiteSpace c.toLower = isWhiteSpace c
      ∧ isCased c.toLower = isCased c ∧ isCaseIgnorable c.toLower = isCaseIgnorable c
      ∧ c.toLower ≠ 'Σ' ∧ c ≠ 'Σ') (by decide +kernel) hascii h

/-- What a capital letter and its small letter have in common is left alone by recasing. -/
theorem Recased.congr {β : Type} {f : Char → β} {c d : Char} (h : Recased c d)
    (hf : ∀ c : Char, c.isUpper = true → f c.toLower = f c) : f d = f c := by
  rcases h with rfl | ⟨hc, rfl⟩ | ⟨hd, rfl⟩
  · rfl
  · exact hf c hc
  · exact (hf d hd).symm

namespace Recased

variable {c d : Char} (h : Recased c d)

include h

theorem lowerChar_eq : lowerChar d = lowerChar c :=
  h.congr fun _ hc => (toLower_of_isUpper hc).1

theorem isWhiteSpace_eq : isWhiteSpace d = isWhiteSpace c :=
  h.congr fun _ hc => (toLower_of_isUpper hc).2.1

theorem isCased_eq : isCased d = isCased c :=
  h.congr fun _ hc => (toLower_of_isUpper hc).2.2.1

theorem isCaseIgnorable_eq : isCaseIgnorable d = isCaseIgnorable c :=
  h.congr fun _ hc => (toLower_of_isUpper hc).2.2.2.1

/-- A sigma stays where it is, and none is made. -/
theorem eq_sigma_iff : d = 'Σ' ↔ c = 'Σ' := by
  apply Iff.of_eq
  apply h.congr (f := (· = 'Σ'))
  intro c hc
  obtain ⟨hlower, hupper⟩ := (toLower_of_isUpper hc).2.2.2.2
  simp [hlower, hupper]

end Recased

/-! ## Words -/

theorem meetsCased_cons (c : Char) (cs : List Char) :
    meetsCased (c :: cs) = if isCaseIgnorable c then meetsCased cs else isCased c := by
  by_cases h : isCaseIgnorable c <;> simp [meetsCased, h]

/-- Whether a sigma meets a cased character does not depend on the case of what it meets. -/
theorem meetsCased_recased {cs ds : List Char} (h : List.Forall₂ Recased cs ds) :
    meetsCased ds = meetsCased cs := by
  induction h with
  | nil => rfl
  | cons hfirst _ ih =>
    rw [meetsCased_cons, meetsCased_cons, hfirst.isCaseIgnorable_eq, hfirst.isCased_eq, ih]

theorem lowerSigma_recased {before before' after after' : List Char}
    (hbefore : List.Forall₂ Recased before before') (hafter : List.Forall₂ Recased after after') :
    lowerSigma before' after' = lowerSigma before after := by
  rw [lowerSigma, lowerSigma, meetsCased_recased hbefore, meetsCased_recased hafter]

/-- **A word has the same image whatever the case of its ASCII letters.** The induction is on the
word from the left, and the neighbours that have been passed are recased as well. -/
theorem lowerAfter_recased {before before' word word' : List Char}
    (hbefore : List.Forall₂ Recased before before') (h : List.Forall₂ Recased word word') :
    lowerAfter before' word' = lowerAfter before word := by
  induction h generalizing before before' with
  | nil => rfl
  | @cons c d after after' hfirst hafter ih =>
    have hrest := ih (.cons hfirst hbefore)
    by_cases hsigma : c = 'Σ'
    · have hsigma' : d = 'Σ' := hfirst.eq_sigma_iff.2 hsigma
      rw [lowerAfter, lowerAfter, if_pos hsigma, if_pos hsigma', hrest,
        lowerSigma_recased hbefore hafter]
    · have hsigma' : d ≠ 'Σ' := mt hfirst.eq_sigma_iff.1 hsigma
      rw [lowerAfter, lowerAfter, if_neg hsigma, if_neg hsigma', hrest, hfirst.lowerChar_eq]

theorem forall₂_modifyHead {α β : Type} {R : α → β → Prop} {f : α → α} {g : β → β} {xs : List α}
    {ys : List β} (h : List.Forall₂ R xs ys) (hfg : ∀ x y, R x y → R (f x) (g y)) :
    List.Forall₂ R (xs.modifyHead f) (ys.modifyHead g) := by
  cases h with
  | nil => exact .nil
  | cons hfirst hrest => exact .cons (hfg _ _ hfirst) hrest

theorem splitOnP_recased {text text' : List Char} (h : List.Forall₂ Recased text text') :
    List.Forall₂ (List.Forall₂ Recased) (text.splitOnP isWhiteSpace)
      (text'.splitOnP isWhiteSpace) := by
  induction h with
  | nil => exact .cons .nil .nil
  | cons hfirst _ ih =>
    rw [List.splitOnP_cons_eq_if_modifyHead, List.splitOnP_cons_eq_if_modifyHead,
      hfirst.isWhiteSpace_eq]
    split
    · exact .cons .nil ih
    · exact forall₂_modifyHead ih fun _ _ hpiece => .cons hfirst hpiece

/-- A text is cut into words at the same places. -/
theorem words_recased {text text' : List Char} (h : List.Forall₂ Recased text text') :
    List.Forall₂ (List.Forall₂ Recased) (words text) (words text') := by
  apply List.rel_filter
  · intro word word' hword
    cases hword <;> simp
  · exact splitOnP_recased h

end Text

/-! ## Texts -/

open Text

/-- A text with any of its ASCII letters in the other case. -/
def IsRecasing (text text' : String) : Prop :=
  List.Forall₂ Recased text.toList text'.toList

instance (text text' : String) : Decidable (IsRecasing text text') :=
  inferInstanceAs (Decidable (List.Forall₂ _ _ _))

/-- **Texts that differ in the case of ASCII letters have the same tokens.** -/
theorem tokenize_recased {text text' : String} (h : IsRecasing text text') :
    tokenize text' = tokenize text := by
  have hwords := words_recased h
  rw [tokenize, tokenize]
  generalize words text.toList = ws, words text'.toList = ws' at hwords
  induction hwords with
  | nil => rfl
  | cons hword _ ih =>
    rw [List.map_cons, List.map_cons, ih, lowerWord, lowerWord, lowerAfter_recased .nil hword]

theorem tokenizeLines_recased {lines lines' : List String}
    (h : List.Forall₂ IsRecasing lines lines') : tokenizeLines lines' = tokenizeLines lines := by
  induction h with
  | nil => rfl
  | cons hline _ ih =>
    rw [tokenizeLines] at ih ⊢
    rw [List.flatMap_cons, tokenize_recased hline, ih]
    rfl

/-! ## Sessions -/

/-- A line that is recased is answered in the same way. -/
theorem Session.answer_recased {α : Type} [Arithmetic α] {line line' : String}
    (h : IsRecasing line line') (s : Session α) (patience : Nat) :
    s.answer patience (.line line') = s.answer patience (.line line) := by
  rw [Session.answer, Session.answer, Session.evalLine, Session.evalLine, tokenize_recased h]

/-- Lines that are recased are answered in the same way one after the other, whatever fails. -/
theorem Session.answers_recased {α : Type} [Arithmetic α] {lines lines' : List String}
    (h : List.Forall₂ IsRecasing lines lines') (s : Session α) (patience : Nat) :
    s.answers patience (lines'.map .line) = s.answers patience (lines.map .line) := by
  induction h generalizing s with
  | nil => rfl
  | cons hline _ ih =>
    rw [List.map_cons, List.map_cons, Session.answers, Session.answers, answer_recased hline]
    apply congrArg
    funext o
    rw [ih]

/-- **The case of ASCII letters makes no difference.** Lines in which any of them are in the other
case come to the same when they are evaluated as a source, with any settings: to the same values, or
to the same failure, which names the same token. And in any session they are answered in the same
way one by one: whenever the call for one of the lines has an outcome, so has the call for the line
recased, and the two outcomes are the same, with the same failure and the same stack, mode and
dictionary, also after calls that have failed. -/
theorem letter_case_invisible {lines lines' : List String}
    (h : List.Forall₂ IsRecasing lines lines') :
    (∀ (patience : Nat) (settings : Settings),
      evaluate patience settings lines' = evaluate patience settings lines)
    ∧ ∀ (s : Session Cell) (patience : Nat),
      s.answers patience (lines'.map .line) = s.answers patience (lines.map .line) := by
  constructor
  · intro patience settings
    rw [evaluate_eq_feed, evaluate_eq_feed, tokenizeLines_recased h]
  · intro s patience
    exact Session.answers_recased h s patience

/-- A sigma that is final behind a letter and medial between two, with the letters in either case:
the two words are found, and a third token is unknown under its small letters. -/
theorem letter_case_invisible_sigma :
    let lines := [": aΣ 1 ; : aΣb 2 ;", "Aς Aσb", "AΣB.Σ"]
    let lines' := [": AΣ 1 ; : AΣB 2 ;", "aς aσB", "aΣb.Σ"]
    List.Forall₂ IsRecasing lines lines'
      ∧ evaluate 4 .plain lines' = some (.error (.unknownToken "aσb.ς"))
      ∧ evaluate 4 .plain (lines'.take 2) = some (.ok "1 2") := by
  intro lines lines'
  have hlines : List.Forall₂ IsRecasing lines lines' := by decide +kernel
  have htokens : lines.map tokenize
      = [[":", "aς", "1", ";", ":", "aσb", "2", ";"], ["aς", "aσb"], ["aσb.ς"]] := by
    decide +kernel
  have htwo : List.Forall₂ IsRecasing (lines.take 2) (lines'.take 2) := List.forall₂_take 2 hlines
  refine ⟨hlines, ?_, ?_⟩
  · rw [(letter_case_invisible hlines).1, evaluate_eq_feed, tokenizeLines, List.flatMap_def,
      htokens]
    rfl
  · rw [(letter_case_invisible htwo).1, evaluate_eq_feed, tokenizeLines, List.flatMap_def,
      List.map_take, htokens]
    rfl

end Concatenative
