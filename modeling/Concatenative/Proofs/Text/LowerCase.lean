/-
Lower-case text is left alone by lower-casing.

Two facts about single characters carry this. The image of a character is made of
characters that are their own image, and the image of a character that is not white
space contains none. Both rest on the table of runs. That no image is a member of any
run is asked of all of them at once, with the members and the images as the bits of
two numbers (`caseRuns_avoid`); a check of every pair of runs would take its time.

The sigma rule looks at the neighbours and would have to be followed through them,
were it not that it asks for a capital sigma first, of which none is left.
-/
import Concatenative.Text.LowerCase
import Concatenative.Text.WhiteSpace

set_option autoImplicit false

namespace Concatenative.Text

/-! ## The table of runs -/

/-- The bits that the items of a list stand for, taken together. -/
def joinedBits {β : Type} (bits : β → Nat) (items : List β) : Nat :=
  items.foldr (fun item others => bits item ||| others) 0

theorem testBit_joinedBits {β : Type} (bits : β → Nat) {items : List β} {item : β}
    (hitem : item ∈ items) {n : Nat} (h : (bits item).testBit n = true) :
    (joinedBits bits items).testBit n = true := by
  induction items with
  | nil => cases hitem
  | cons first rest ih =>
    rw [joinedBits, List.foldr_cons, Nat.testBit_or, Bool.or_eq_true]
    rcases List.mem_cons.1 hitem with rfl | hitem
    · exact .inl h
    · exact .inr (ih hitem)

/-- The code points from `start` on that are spaced as the members of the run are, as
bits. -/
def CaseRun.bits (a : CaseRun) (start : Nat) : Nat :=
  joinedBits (fun i => 1 <<< (start + i * a.stride))
    (List.range ((a.last - a.first) / a.stride + 1))

theorem CaseRun.testBit_bits {a : CaseRun} {n : Nat} (h : a.covers n = true) (start : Nat) :
    (a.bits start).testBit (start + (n - a.first)) = true := by
  simp only [covers, Bool.and_eq_true, decide_eq_true_eq, beq_iff_eq] at h
  obtain ⟨⟨hfirst, hlast⟩, hstride⟩ := h
  have hindex : (n - a.first) / a.stride ∈ List.range ((a.last - a.first) / a.stride + 1) :=
    List.mem_range.2 (Nat.lt_succ_of_le (Nat.div_le_div_right (Nat.sub_le_sub_right hlast _)))
  refine testBit_joinedBits _ hindex ?_
  rw [Nat.div_mul_cancel (Nat.dvd_of_mod_eq_zero hstride), Nat.one_shiftLeft]
  exact Nat.testBit_two_pow_self

/-- No image of any run is a member of any run. -/
theorem caseRuns_avoid :
    joinedBits (fun b => b.bits b.first) caseRuns
      &&& joinedBits (fun a => a.bits a.image) caseRuns = 0 := by
  decide +kernel

theorem covers_image_eq_false {a b : CaseRun} (ha : a ∈ caseRuns) (hb : b ∈ caseRuns) {n : Nat}
    (hn : a.covers n = true) : b.covers (a.image + (n - a.first)) = false := by
  rw [Bool.eq_false_iff]
  intro hcovers
  have hmember : (b.bits b.first).testBit (a.image + (n - a.first)) = true := by
    have hbit := CaseRun.testBit_bits hcovers b.first
    simp only [CaseRun.covers, Bool.and_eq_true, decide_eq_true_eq] at hcovers
    rwa [Nat.add_sub_cancel' hcovers.1.1] at hbit
  have himage : (a.bits a.image).testBit (a.image + (n - a.first)) = true :=
    CaseRun.testBit_bits hn a.image
  have hboth := congrArg (Nat.testBit · (a.image + (n - a.first))) caseRuns_avoid
  simp only [Nat.testBit_and, Nat.zero_testBit] at hboth
  rw [testBit_joinedBits (fun b => b.bits b.first) hb hmember,
    testBit_joinedBits (fun a => a.bits a.image) ha himage] at hboth
  cases hboth

/-- Whether no image of a run lies in a range of code points. -/
def CaseRun.misses (a : CaseRun) (r : CodeRange) : Bool :=
  a.image + (a.last - a.first) < r.first || r.last < a.image

/-- Whether the images of a run are characters, are no capital letters of ASCII, are
not the dotted capital I and are no white space. -/
def CaseRun.isPlain (a : CaseRun) : Bool :=
  0x5A < a.image && a.misses ⟨0x130, 0x130⟩ && a.misses ⟨0xD800, 0xDFFF⟩
    && a.image + (a.last - a.first) < 0x110000 && whiteSpaceRanges.all a.misses

theorem caseRuns_isPlain : caseRuns.all CaseRun.isPlain = true := by
  decide +kernel

/-! ## Single characters -/

/-- What holds of the characters of ASCII one by one holds of them all. -/
theorem ascii_forall {P : Char → Prop} (h : ∀ n < 0x80, P (Char.ofNat n)) {c : Char}
    (hc : c.toNat < 0x80) : P c := by
  have hp := h c.toNat hc
  rwa [Char.ofNat_toNat] at hp

theorem toNat_ofNat {n : Nat} (h : n.isValidChar) : (Char.ofNat n).toNat = n := by
  rw [Char.ofNat, dif_pos h]
  rfl

theorem lowerChar_of_lt {c : Char} (h : c.toNat < 0x80) : lowerChar c = [c.toLower] := by
  rw [lowerChar, if_pos h]

/-- The ways in which a character has its image: it is ASCII, it is the dotted capital
I, it is in a run, or it is its own image. -/
theorem lowerChar_cases (c : Char) :
    (c.toNat < 0x80 ∧ lowerChar c = [c.toLower])
      ∨ lowerChar c = ['i', '\u0307']
      ∨ (∃ a ∈ caseRuns, a.covers c.toNat = true
          ∧ lowerChar c = [Char.ofNat (a.image + (c.toNat - a.first))])
      ∨ lowerChar c = [c] := by
  by_cases h : c.toNat < 0x80
  · exact .inl ⟨h, lowerChar_of_lt h⟩
  · by_cases hdotted : c = 'İ'
    · exact .inr (.inl (by rw [lowerChar, if_neg h, if_pos hdotted]))
    · cases hfind : caseRuns.find? (·.covers c.toNat) with
      | some a =>
        refine .inr (.inr (.inl ⟨a, List.mem_of_find?_eq_some hfind, ?_, ?_⟩))
        · simpa using List.find?_some hfind
        · rw [lowerChar, if_neg h, if_neg hdotted, hfind]
      | none => exact .inr (.inr (.inr (by rw [lowerChar, if_neg h, if_neg hdotted, hfind])))

/-- In ASCII only capital letters have another image, and an image is its own image and
is white space only if the character is. -/
theorem toLower_ascii {c : Char} (hc : c.toNat < 0x80) :
    (0x5A < c.toNat → c.toLower = c) ∧ lowerChar c.toLower = [c.toLower]
      ∧ (isWhiteSpace c = false → isWhiteSpace c.toLower = false) :=
  ascii_forall (P := fun c => (0x5A < c.toNat → c.toLower = c) ∧ lowerChar c.toLower = [c.toLower]
    ∧ (isWhiteSpace c = false → isWhiteSpace c.toLower = false)) (by decide +kernel) hc

/-- The images that are in no run and not in ASCII: those of the dotted capital I and
of the capital sigma. -/
theorem lowerChar_special {d : Char} (hd : d ∈ ['i', '\u0307', 'ς', 'σ']) :
    lowerChar d = [d] ∧ isWhiteSpace d = false := by
  -- `all` goes through the four; a quantifier might be decided over all characters.
  have hall : ['i', '\u0307', 'ς', 'σ'].all
      (fun d => lowerChar d = [d] ∧ isWhiteSpace d = false) = true := by
    decide +kernel
  exact of_decide_eq_true (List.all_eq_true.1 hall d hd)

/-- The image of a member of a run is its own image, and no white space. -/
theorem lowerChar_image {a : CaseRun} (ha : a ∈ caseRuns) {n : Nat} (hn : a.covers n = true) :
    let d := Char.ofNat (a.image + (n - a.first))
    lowerChar d = [d] ∧ isWhiteSpace d = false := by
  intro d
  have hplain := List.all_eq_true.1 caseRuns_isPlain a ha
  simp only [CaseRun.isPlain, CaseRun.misses, Bool.or_eq_true, Bool.and_eq_true,
    decide_eq_true_eq, List.all_eq_true] at hplain
  have hn' := hn
  simp only [CaseRun.covers, Bool.and_eq_true, decide_eq_true_eq] at hn'
  have hd : d.toNat = a.image + (n - a.first) := by
    refine toNat_ofNat ?_
    simp only [Nat.isValidChar]
    omega
  constructor
  · by_cases hascii : d.toNat < 0x80
    · rw [lowerChar_of_lt hascii, (toLower_ascii hascii).1 (by omega)]
    · have hdotted : d ≠ 'İ' := by
        intro e
        have : d.toNat = 0x130 := by rw [e]; rfl
        omega
      have hnone : caseRuns.find? (·.covers d.toNat) = none := by
        rw [List.find?_eq_none]
        intro b hb
        rw [hd, covers_image_eq_false ha hb hn]
        exact Bool.false_ne_true
      rw [lowerChar, if_neg hascii, if_neg hdotted, hnone]
  · rw [isWhiteSpace, Bool.eq_false_iff]
    intro hspace
    obtain ⟨r, hr, hfirst, hlast⟩ := (inRanges_iff _ _).1 hspace
    have hmisses := hplain.2 r hr
    omega

/-- A lower-case image is made of characters that are their own image. -/
theorem lowerChar_of_mem_lowerChar {c d : Char} (hd : d ∈ lowerChar c) : lowerChar d = [d] := by
  rcases lowerChar_cases c with ⟨hascii, h⟩ | h | ⟨a, ha, hc, h⟩ | h
  · rw [h, List.mem_singleton] at hd
    rw [hd]
    exact (toLower_ascii hascii).2.1
  · rw [h] at hd
    exact (lowerChar_special (List.mem_append_left ['ς', 'σ'] hd)).1
  · rw [h, List.mem_singleton] at hd
    rw [hd]
    exact (lowerChar_image ha hc).1
  · rw [h, List.mem_singleton] at hd
    rw [hd, h]

/-- Lower-casing makes no white space. -/
theorem isWhiteSpace_of_mem_lowerChar {c d : Char} (hc : isWhiteSpace c = false)
    (hd : d ∈ lowerChar c) : isWhiteSpace d = false := by
  rcases lowerChar_cases c with ⟨hascii, h⟩ | h | ⟨a, ha, hcovers, h⟩ | h
  · rw [h, List.mem_singleton] at hd
    rw [hd]
    exact (toLower_ascii hascii).2.2 hc
  · rw [h] at hd
    exact (lowerChar_special (List.mem_append_left ['ς', 'σ'] hd)).2
  · rw [h, List.mem_singleton] at hd
    rw [hd]
    exact (lowerChar_image ha hcovers).2
  · rw [h, List.mem_singleton] at hd
    rw [hd, hc]

theorem lowerChar_ne_nil (c : Char) : lowerChar c ≠ [] := by
  rcases lowerChar_cases c with ⟨-, h⟩ | h | ⟨_, -, -, h⟩ | h
  all_goals
    rw [h]
    exact List.cons_ne_nil _ _

/-! ## Words -/

/-- The characters of a lower-case image come from single characters or are sigmas. -/
theorem mem_lowerAfter {before word : List Char} {d : Char} (hd : d ∈ lowerAfter before word) :
    (∃ c ∈ word, d ∈ lowerChar c) ∨ d ∈ ['ς', 'σ'] := by
  induction word generalizing before with
  | nil => cases hd
  | cons c after ih =>
    rw [lowerAfter, List.mem_append] at hd
    rcases hd with hd | hd
    · split at hd
      · rw [List.mem_singleton, lowerSigma] at hd
        split at hd
        · exact .inr (List.mem_cons.2 (.inl hd))
        · exact .inr (List.mem_cons_of_mem _ (List.mem_singleton.2 hd))
      · exact .inl ⟨c, List.mem_cons_self, hd⟩
    · rcases ih hd with ⟨c', hc', hd⟩ | hd
      · exact .inl ⟨c', List.mem_cons_of_mem _ hc', hd⟩
      · exact .inr hd

theorem lowerChar_of_mem_lowerWord {word : List Char} {d : Char} (hd : d ∈ lowerWord word) :
    lowerChar d = [d] := by
  rcases mem_lowerAfter hd with ⟨c, -, hd⟩ | hd
  · exact lowerChar_of_mem_lowerChar hd
  · exact (lowerChar_special (List.mem_append_right ['i', '\u0307'] hd)).1

theorem isWhiteSpace_of_mem_lowerWord {word : List Char}
    (hword : ∀ c ∈ word, isWhiteSpace c = false) {d : Char} (hd : d ∈ lowerWord word) :
    isWhiteSpace d = false := by
  rcases mem_lowerAfter hd with ⟨c, hc, hd⟩ | hd
  · exact isWhiteSpace_of_mem_lowerChar (hword c hc) hd
  · exact (lowerChar_special (List.mem_append_right ['i', '\u0307'] hd)).2

/-- Characters that are their own image are left alone wherever they stand: a capital
sigma is not one of them. -/
theorem lowerAfter_eq_self {word : List Char} (h : ∀ c ∈ word, lowerChar c = [c])
    (before : List Char) : lowerAfter before word = word := by
  induction word generalizing before with
  | nil => rfl
  | cons c after ih =>
    have hsigma : c ≠ 'Σ' := by
      rintro rfl
      exact absurd (h 'Σ' List.mem_cons_self) (by decide +kernel)
    rw [lowerAfter, if_neg hsigma, h c List.mem_cons_self,
      ih (fun d hd => h d (List.mem_cons_of_mem _ hd))]
    rfl

/-- **Lower-casing twice is lower-casing.** -/
theorem lowerWord_lowerWord (word : List Char) : lowerWord (lowerWord word) = lowerWord word :=
  lowerAfter_eq_self (fun _ hd => lowerChar_of_mem_lowerWord hd) []

theorem lowerWord_ne_nil {word : List Char} (h : word ≠ []) : lowerWord word ≠ [] := by
  obtain ⟨c, after, rfl⟩ := List.exists_cons_of_ne_nil h
  rw [lowerWord, lowerAfter]
  refine List.append_ne_nil_of_left_ne_nil ?_ _
  split
  · exact List.cons_ne_nil _ _
  · exact lowerChar_ne_nil c

end Concatenative.Text
