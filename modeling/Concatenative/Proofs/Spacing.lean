/-
Words and the white space around them.

A text is laid out as words with white space between them: first a gap that may be empty, then
words with a gap behind each of them, and only the gap behind the last word may be empty
(`Text.IsLayout`). Cutting into tokens is the way back. It finds the words of a layout whatever
the gaps are (`tokenize_laidOut`), and since every text has a layout (`exists_layout`), this says
of every text what its tokens are.

Tokens are themselves words that lower-casing leaves alone, so they can be laid out again with
other gaps and are found once more. That lower-casing leaves them alone is
`Text.lowerWord_lowerWord`, which does not depend on what stands around a token: no capital sigma
is left in it.
-/
import Concatenative.Proofs.Tokenization

set_option autoImplicit false

namespace Concatenative

open Text

/-! ## Layouts -/

namespace Text

/-- The text is white space, and may be empty. -/
def IsGap (text : String) : Prop :=
  ∀ c ∈ text.toList, isWhiteSpace c = true

/-- The text is not empty and has no white space in it. -/
structure IsWord (text : String) : Prop where
  ne_empty : text ≠ ""
  noSpace : ∀ c ∈ text.toList, isWhiteSpace c = false

/-- The words of a text with the gap behind each of them, written out behind a gap that leads. -/
def laidOut (lead : String) : List (String × String) → String
  | [] => lead
  | (word, gap) :: rest => lead ++ word ++ laidOut gap rest

/-- What is laid out are words with white space between them. Two words have at least one
white-space character between them, and the gaps at the two ends may be empty. -/
structure IsLayout (lead : String) (items : List (String × String)) : Prop where
  lead : IsGap lead
  word : ∀ item ∈ items, IsWord item.1
  gap : ∀ item ∈ items, IsGap item.2
  apart : ∀ item ∈ items.dropLast, item.2 ≠ ""

theorem isLayout_nil {lead : String} (h : IsGap lead) : IsLayout lead [] :=
  ⟨h, List.forall_mem_nil _, List.forall_mem_nil _, List.forall_mem_nil _⟩

/-- A layout with a word at its front is a gap, the word and a layout that begins with the gap
behind the word. -/
theorem isLayout_cons_iff {lead word gap : String} {rest : List (String × String)} :
    IsLayout lead ((word, gap) :: rest)
      ↔ IsGap lead ∧ IsWord word ∧ (rest ≠ [] → gap ≠ "") ∧ IsLayout gap rest := by
  constructor
  · intro h
    obtain ⟨hword, hwords⟩ := List.forall_mem_cons.1 h.word
    obtain ⟨hgap, hgaps⟩ := List.forall_mem_cons.1 h.gap
    have hapart := h.apart
    by_cases hrest : rest = []
    · rw [hrest]
      exact ⟨h.lead, hword, fun hne => absurd rfl hne, isLayout_nil hgap⟩
    · rw [List.dropLast_cons_of_ne_nil hrest] at hapart
      obtain ⟨hfirst, hothers⟩ := List.forall_mem_cons.1 hapart
      exact ⟨h.lead, hword, fun _ => hfirst, hgap, hwords, hgaps, hothers⟩
  · rintro ⟨hlead, hword, hfirst, h⟩
    refine ⟨hlead, List.forall_mem_cons.2 ⟨hword, h.word⟩, List.forall_mem_cons.2 ⟨h.lead, h.gap⟩,
      ?_⟩
    by_cases hrest : rest = []
    · rw [hrest]
      exact List.forall_mem_nil _
    · rw [List.dropLast_cons_of_ne_nil hrest]
      exact List.forall_mem_cons.2 ⟨hfirst hrest, h.apart⟩

/-- A layout is written with its leading gap in front. -/
theorem exists_laidOut_eq (lead : String) (items : List (String × String)) :
    ∃ behind, laidOut lead items = lead ++ behind := by
  cases items with
  | nil => exact ⟨"", by rw [laidOut, String.append_empty]⟩
  | cons item rest =>
    obtain ⟨word, gap⟩ := item
    exact ⟨word ++ laidOut gap rest, by rw [laidOut, String.append_assoc]⟩

/-- What follows a word in a layout begins with white space, unless nothing follows. -/
theorem isWhiteSpace_of_head_laidOut {gap : String} {rest : List (String × String)}
    (hgap : IsGap gap) (happart : rest ≠ [] → gap ≠ "") :
    ∀ c ∈ (laidOut gap rest).toList.head?, isWhiteSpace c = true := by
  intro c hc
  obtain ⟨behind, hbehind⟩ := exists_laidOut_eq gap rest
  by_cases hempty : gap = ""
  · have hnil : rest = [] := by
      by_contra hne
      exact happart hne hempty
    rw [hnil, laidOut, hempty] at hc
    cases hc
  · obtain ⟨d, ds, hcons⟩ := List.exists_cons_of_ne_nil
      fun e => hempty (String.toList_eq_nil_iff.1 e)
    rw [hbehind, String.toList_append, hcons] at hc
    have hd : d = c := Option.some.inj hc
    rw [← hd]
    exact hgap d (hcons ▸ List.mem_cons_self)

/-! ## Cutting a layout -/

/-- A word that ends at white space or at the end of the text is the first word of the text. -/
theorem words_word_append {word text : List Char} (hne : word ≠ [])
    (hword : ∀ c ∈ word, isWhiteSpace c = false)
    (htext : ∀ c ∈ text.head?, isWhiteSpace c = true) :
    words (word ++ text) = word :: words text := by
  cases text with
  | nil => rw [List.append_nil, words_eq_singleton hne hword, words_nil]
  | cons c rest =>
    have hc : isWhiteSpace c = true := htext c rfl
    have hrest : words (c :: rest) = words rest := words_append_cons [] rest c hc
    rw [words_append_cons _ _ _ hc, words_eq_singleton hne hword, hrest, List.singleton_append]

/-- **The words of a layout are found**, whatever the gaps are. The induction is on the words, and
the gap behind a word leads what comes next. -/
theorem words_laidOut {lead : String} {items : List (String × String)}
    (h : IsLayout lead items) :
    words (laidOut lead items).toList = items.map fun item => item.1.toList := by
  induction items generalizing lead with
  | nil =>
    have hlead := words_of_blank_append h.lead []
    rwa [List.append_nil, words_nil] at hlead
  | cons item rest ih =>
    obtain ⟨word, gap⟩ := item
    obtain ⟨hlead, hword, happart, hrest⟩ := isLayout_cons_iff.1 h
    have hne : word.toList ≠ [] := fun e => hword.ne_empty (String.toList_eq_nil_iff.1 e)
    have hhead := isWhiteSpace_of_head_laidOut hrest.lead happart
    rw [laidOut, String.toList_append, String.toList_append, List.append_assoc,
      words_of_blank_append hlead, words_word_append hne hword.noSpace hhead, ih hrest,
      List.map_cons]

/-- White space in front of a layout goes to the gap that leads. -/
theorem isLayout_space {c : Char} (hc : isWhiteSpace c = true) {lead : String}
    {items : List (String × String)} (h : IsLayout lead items) :
    IsLayout (String.singleton c ++ lead) items
      ∧ String.singleton c ++ laidOut lead items = laidOut (String.singleton c ++ lead) items := by
  have hlead : IsGap (String.singleton c ++ lead) := by
    intro d hd
    rw [String.toList_append, String.toList_singleton, List.mem_append, List.mem_singleton] at hd
    rcases hd with rfl | hd
    · exact hc
    · exact h.lead d hd
  refine ⟨⟨hlead, h.word, h.gap, h.apart⟩, ?_⟩
  cases items with
  | nil => rfl
  | cons item rest =>
    obtain ⟨word, gap⟩ := item
    rw [laidOut, laidOut]
    simp only [String.append_assoc]

theorem isWord_singleton {c : Char} (hc : isWhiteSpace c = false) :
    IsWord (String.singleton c) := by
  refine ⟨?_, ?_⟩
  · intro e
    have hlist := congrArg String.toList e
    rw [String.toList_singleton] at hlist
    cases hlist
  · rw [String.toList_singleton]
    exact List.forall_mem_singleton.2 hc

theorem IsWord.append {first second : String} (h : IsWord first) (h' : IsWord second) :
    IsWord (first ++ second) := by
  refine ⟨?_, ?_⟩
  · intro e
    exact h.ne_empty (String.append_eq_empty_iff.1 e).1
  · rw [String.toList_append]
    exact List.forall_mem_append.2 ⟨h.noSpace, h'.noSpace⟩

/-- Any other character in front of a layout begins a word, or goes to the first word if there is
no gap between the two. -/
theorem exists_layout_word {c : Char} (hc : isWhiteSpace c = false) {lead : String}
    {items : List (String × String)} (h : IsLayout lead items) :
    ∃ items', IsLayout "" items'
      ∧ String.singleton c ++ laidOut lead items = laidOut "" items' := by
  have hone := isWord_singleton hc
  have hnothing : IsGap "" := List.forall_mem_nil _
  by_cases hjoins : items ≠ [] ∧ lead = ""
  · obtain ⟨hne, rfl⟩ := hjoins
    obtain ⟨⟨word, gap⟩, rest, rfl⟩ := List.exists_cons_of_ne_nil hne
    obtain ⟨-, hword, happart, hrest⟩ := isLayout_cons_iff.1 h
    refine ⟨(String.singleton c ++ word, gap) :: rest,
      isLayout_cons_iff.2 ⟨hnothing, hone.append hword, happart, hrest⟩, ?_⟩
    rw [laidOut, laidOut, String.empty_append, String.empty_append, String.append_assoc]
  · have happart : items ≠ [] → lead ≠ "" := fun hne hempty => hjoins ⟨hne, hempty⟩
    refine ⟨(String.singleton c, lead) :: items,
      isLayout_cons_iff.2 ⟨hnothing, hone, happart, h⟩, ?_⟩
    rw [laidOut, String.empty_append]

/-- **Every text has a layout.** The induction is on the characters from the right. -/
theorem exists_layout (text : List Char) :
    ∃ lead items, IsLayout lead items ∧ String.ofList text = laidOut lead items := by
  induction text with
  | nil => exact ⟨"", [], isLayout_nil (List.forall_mem_nil _), rfl⟩
  | cons c rest ih =>
    obtain ⟨lead, items, hlayout, hrest⟩ := ih
    rw [String.ofList_cons, hrest]
    cases hc : isWhiteSpace c with
    | true => exact ⟨_, items, isLayout_space hc hlayout⟩
    | false => exact ⟨"", exists_layout_word hc hlayout⟩

end Text

/-! ## Tokens -/

/-- A word in lower case. -/
def lowered (word : String) : String :=
  String.ofList (lowerWord word.toList)

/-- The tokens of a layout are its words in lower case. -/
theorem tokenize_laidOut {lead : String} {items : List (String × String)}
    (h : IsLayout lead items) :
    tokenize (laidOut lead items) = items.map fun item => lowered item.1 := by
  rw [tokenize, words_laidOut h, List.map_map]
  rfl

/-- A token is a word, and lower-casing leaves it alone. -/
theorem isWord_of_mem_tokenize {text t : String} (h : t ∈ tokenize text) :
    IsWord t ∧ lowered t = t := by
  obtain ⟨word, hword, rfl⟩ := List.mem_map.1 h
  obtain ⟨hne, hspace⟩ := of_mem_words hword
  refine ⟨⟨?_, ?_⟩, ?_⟩
  · intro e
    have hlist := congrArg String.toList e
    rw [String.toList_ofList] at hlist
    exact lowerWord_ne_nil hne hlist
  · intro c hc
    rw [String.toList_ofList] at hc
    exact isWhiteSpace_of_mem_lowerWord hspace hc
  · rw [lowered, String.toList_ofList, lowerWord_lowerWord]

/-- **Tokens are the words of a text in lower case, and nothing is lost by writing them out.**
Whatever words are laid out with whatever white space, the tokens of the text are the words in
lower case, in order; and every text is laid out like this. A token is not empty, has no white
space in it and is left alone by lower-casing. So if the tokens of a text are laid out anew, with
any white space between them and at the ends, they are the tokens of the new text. -/
theorem tokens_are_lowered_words :
    (∀ lead items, IsLayout lead items →
      tokenize (laidOut lead items) = items.map fun item => lowered item.1)
    ∧ (∀ text, ∃ lead items, IsLayout lead items ∧ text = laidOut lead items)
    ∧ (∀ text, ∀ t ∈ tokenize text,
      t ≠ "" ∧ (∀ c ∈ t.toList, isWhiteSpace c = false) ∧ lowered t = t)
    ∧ ∀ text lead items, items.map Prod.fst = tokenize text → IsGap lead →
      (∀ item ∈ items, IsGap item.2) → (∀ item ∈ items.dropLast, item.2 ≠ "") →
        tokenize (laidOut lead items) = tokenize text := by
  refine ⟨fun lead items h => tokenize_laidOut h, ?layout, ?token, ?again⟩
  case layout =>
    intro text
    obtain ⟨lead, items, hlayout, heq⟩ := exists_layout text.toList
    rw [String.ofList_toList] at heq
    exact ⟨lead, items, hlayout, heq⟩
  case token =>
    intro text t ht
    obtain ⟨hword, hlower⟩ := isWord_of_mem_tokenize ht
    exact ⟨hword.ne_empty, hword.noSpace, hlower⟩
  case again =>
    intro text lead items hitems hlead hgap happart
    have htokens : ∀ item ∈ items, IsWord item.1 ∧ lowered item.1 = item.1 := by
      intro item hitem
      have htoken : item.1 ∈ tokenize text := by
        rw [← hitems]
        exact List.mem_map_of_mem hitem
      exact isWord_of_mem_tokenize htoken
    have hlayout : IsLayout lead items := ⟨hlead, fun item h => (htokens item h).1, hgap, happart⟩
    rw [tokenize_laidOut hlayout, ← hitems]
    exact List.map_congr_left fun item h => (htokens item h).2

/-- A word that ends in a capital sigma and the dotted capital I, with an em space and a line feed
around them, and their tokens with other white space. -/
theorem tokens_are_lowered_words_sigma :
    let items := [("ΟΔΟΣ", "\n"), ("İx", "")]
    let tokens := [("οδος", "\t\u3000"), ("i̇x", "\n")]
    tokenize (laidOut "\u2003" items) = ["οδος", "i̇x"]
      ∧ tokenize (laidOut "" tokens) = tokenize (laidOut "\u2003" items) := by
  intro items tokens
  obtain ⟨tokenized, -, -, again⟩ := tokens_are_lowered_words
  have hlayout : IsLayout "\u2003" items := by
    refine ⟨?_, ?_, ?_, ?_⟩
    · exact List.all_eq_true.1 (by decide)
    · refine List.forall_mem_cons.2 ⟨⟨by decide, ?_⟩, List.forall_mem_singleton.2 ⟨by decide, ?_⟩⟩
      · exact fun c hc => Bool.eq_false_iff.2 (List.any_eq_false.1 (by decide) c hc)
      · exact fun c hc => Bool.eq_false_iff.2 (List.any_eq_false.1 (by decide) c hc)
    · exact List.forall_mem_cons.2 ⟨List.all_eq_true.1 (by decide),
        List.forall_mem_singleton.2 (List.forall_mem_nil _)⟩
    · exact List.forall_mem_singleton.2 (by decide)
  have hfirst : tokenize (laidOut "\u2003" items) = ["οδος", "i̇x"] := by
    rw [tokenized _ _ hlayout]
    decide +kernel
  refine ⟨hfirst, again _ "" tokens ?_ (List.forall_mem_nil _) ?_ ?_⟩
  · rw [hfirst]
    rfl
  · exact List.forall_mem_cons.2 ⟨List.all_eq_true.1 (by decide),
      List.forall_mem_singleton.2 (List.all_eq_true.1 (by decide))⟩
  · exact List.forall_mem_singleton.2 (by decide)

end Concatenative
