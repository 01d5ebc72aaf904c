/-
Tokens written out are read back.

Cutting a text into tokens undoes writing tokens with spaces between them. The reason
is in two parts: white space separates whatever stands around it (`tokenize_append_blank`),
and a token on its own is its only token (`isToken_of_mem_tokenize`), since it has no
white space in it and lower-casing leaves it alone.
-/
import Concatenative.Cell
import Concatenative.Proofs.Text.LowerCase
import Concatenative.Token
import Mathlib.Data.List.Basic

set_option autoImplicit false

namespace Concatenative

open Text

/-! ## Words -/

namespace Text

/-- White space in front of a text adds no word. -/
theorem words_of_blank_append {w : List Char} (h : ∀ c ∈ w, isWhiteSpace c = true)
    (text : List Char) : words (w ++ text) = words text := by
  induction w with
  | nil => rfl
  | cons c cs ih =>
    obtain ⟨hc, hcs⟩ := List.forall_mem_cons.1 h
    have hfirst : words ([] ++ c :: (cs ++ text)) = words [] ++ words (cs ++ text) :=
      words_append_cons [] (cs ++ text) c hc
    exact hfirst.trans (ih hcs)

/-- White space separates, however much of it there is. -/
theorem words_append_blank {w : List Char} (hne : w ≠ []) (h : ∀ c ∈ w, isWhiteSpace c = true)
    (a b : List Char) : words (a ++ w ++ b) = words a ++ words b := by
  obtain ⟨c, cs, rfl⟩ := List.exists_cons_of_ne_nil hne
  obtain ⟨hc, hcs⟩ := List.forall_mem_cons.1 h
  rw [List.append_assoc, List.cons_append, words_append_cons _ _ _ hc, words_of_blank_append hcs]

/-- A text has no white space in it or is cut at the first. -/
theorem noSpace_or_firstSpace (text : List Char) :
    (∀ c ∈ text, isWhiteSpace c = false)
      ∨ ∃ first c rest, text = first ++ c :: rest
        ∧ (∀ d ∈ first, isWhiteSpace d = false) ∧ isWhiteSpace c = true := by
  induction text with
  | nil => exact .inl (List.forall_mem_nil _)
  | cons d ds ih =>
    cases hd : isWhiteSpace d with
    | true => exact .inr ⟨[], d, ds, rfl, List.forall_mem_nil _, hd⟩
    | false =>
      rcases ih with hall | ⟨first, c, rest, rfl, hfirst, hc⟩
      · exact .inl (List.forall_mem_cons.2 ⟨hd, hall⟩)
      · exact .inr ⟨d :: first, c, rest, rfl, List.forall_mem_cons.2 ⟨hd, hfirst⟩, hc⟩

/-- Words are not empty and have no white space in them. The induction is on the
length of the text, since a word is cut off together with the white space behind
it. -/
theorem of_mem_words {text word : List Char} (h : word ∈ words text) :
    word ≠ [] ∧ ∀ c ∈ word, isWhiteSpace c = false := by
  -- A text without white space, such as what stands before the first, is one word.
  have hone : ∀ w : List Char, (∀ c ∈ w, isWhiteSpace c = false) → word ∈ words w →
      word ≠ [] ∧ ∀ c ∈ word, isWhiteSpace c = false := by
    intro w hw hmem
    by_cases hnil : w = []
    · rw [hnil] at hmem
      cases hmem
    · rw [words_eq_singleton hnil hw, List.mem_singleton] at hmem
      exact hmem ▸ ⟨hnil, hw⟩
  induction hn : text.length using Nat.strongRecOn generalizing text with
  | ind n ih =>
    rcases noSpace_or_firstSpace text with hall | ⟨first, c, rest, rfl, hfirst, hc⟩
    · exact hone text hall h
    · rw [words_append_cons _ _ _ hc, List.mem_append] at h
      rcases h with h | h
      · exact hone first hfirst h
      · refine ih rest.length ?_ h rfl
        rw [List.length_append, List.length_cons] at hn
        omega

end Text

/-! ## Tokens -/

/-- Whether a string is a token as tokens come out of a text. -/
def IsToken (t : String) : Prop :=
  tokenize t = [t]

instance (t : String) : Decidable (IsToken t) :=
  inferInstanceAs (Decidable (tokenize t = [t]))

theorem isToken_of_forall {t : String} (hne : t.toList ≠ [])
    (h : ∀ c ∈ t.toList, isWhiteSpace c = false ∧ lowerChar c = [c]) : IsToken t := by
  rw [IsToken, tokenize, words_eq_singleton hne fun c hc => (h c hc).1, List.map_singleton,
    lowerWord, lowerAfter_eq_self fun c hc => (h c hc).2, String.ofList_toList]

/-- What comes out of a text is a token. -/
theorem isToken_of_mem_tokenize {text t : String} (h : t ∈ tokenize text) : IsToken t := by
  obtain ⟨word, hword, rfl⟩ := List.mem_map.1 h
  obtain ⟨hne, hspace⟩ := of_mem_words hword
  refine isToken_of_forall ?_ fun c hc => ?_
  · rw [String.toList_ofList]
    exact lowerWord_ne_nil hne
  · rw [String.toList_ofList] at hc
    exact ⟨isWhiteSpace_of_mem_lowerWord hspace hc, lowerChar_of_mem_lowerWord hc⟩

/-- White space separates. -/
theorem tokenize_append_blank (a b : String) {w : String} (hne : w ≠ "")
    (h : ∀ c ∈ w.toList, isWhiteSpace c = true) :
    tokenize (a ++ w ++ b) = tokenize a ++ tokenize b := by
  have hlist : w.toList ≠ [] := fun e => hne (String.toList_eq_nil_iff.1 e)
  rw [tokenize, tokenize, tokenize, String.toList_append, String.toList_append,
    words_append_blank hlist h, List.map_append]

theorem tokenize_append_space (a b : String) :
    tokenize (a ++ " " ++ b) = tokenize a ++ tokenize b :=
  tokenize_append_blank a b (by decide) (List.all_eq_true.1 (by decide))

/-- Texts with white space between them have the tokens of the texts. -/
theorem tokenize_joined {separator : String} (hne : separator ≠ "")
    (h : ∀ c ∈ separator.toList, isWhiteSpace c = true) (texts : List String) :
    tokenize (joined separator texts) = texts.flatMap tokenize := by
  induction texts with
  | nil => rfl
  | cons text rest ih =>
    cases rest with
    | nil => rw [joined, String.intercalate_singleton, List.flatMap_singleton]
    | cons next others =>
      rw [joined] at ih
      rw [joined, String.intercalate_cons_cons, tokenize_append_blank _ _ hne h, ih]
      rfl

/-- **Tokens written with spaces between them are read back.** -/
theorem tokenize_spelled {tokens : List Token} (h : ∀ t ∈ tokens, IsToken t) :
    tokenize (spelled tokens) = tokens := by
  have hone : tokens.flatMap tokenize = tokens.flatMap fun t => [t] := List.flatMap_congr h
  rw [spelled, tokenize_joined (by decide) (List.all_eq_true.1 (by decide)), hone,
    List.flatMap_singleton']

/-! ## Numbers -/

theorem of_isDigit {c : Char} (h : c.isDigit = true) :
    isWhiteSpace c = false ∧ lowerChar c = [c] := by
  have hascii : c.toNat < 0x80 := by
    simp only [Char.isDigit, Bool.and_eq_true, decide_eq_true_eq, UInt32.le_iff_toNat_le] at h
    have : c.toNat ≤ 57 := h.2
    omega
  exact ascii_forall (P := fun c => c.isDigit = true → isWhiteSpace c = false ∧ lowerChar c = [c])
    (by decide +kernel) hascii h

theorem isToken_decimal (i : Int) : IsToken (decimal i) := by
  have hdigits : ∀ n, ∀ c ∈ Nat.toDigits 10 n, isWhiteSpace c = false ∧ lowerChar c = [c] :=
    fun n c hc => of_isDigit (Nat.isDigit_of_mem_toDigits (by decide) (by decide) hc)
  match i with
  | .ofNat n =>
    rw [decimal]
    refine isToken_of_forall ?_ fun c hc => ?_
    · rw [Nat.toList_repr]
      exact Nat.toDigits_ne_nil
    · rw [Nat.toList_repr] at hc
      exact hdigits n c hc
  | .negSucc n =>
    rw [decimal]
    refine isToken_of_forall ?_ fun c hc => ?_
    · simp [String.toList_append]
    · rw [String.toList_append, List.mem_append, Nat.toList_repr] at hc
      rcases hc with hc | hc
      · obtain rfl : c = '-' := by simpa using hc
        decide +kernel
      · exact hdigits (n + 1) c hc

end Concatenative
