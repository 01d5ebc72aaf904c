/-
Lines of encoded text.

A source can be cut into lines before it is decoded or after. It makes no difference
(`byteLines_toUTF8`), because in UTF-8 the bytes below 128 stand for the characters of ASCII and
occur nowhere else (`mem_encodeChar_iff`), and the line feed and the carriage return are such
characters.
-/
import Concatenative.Proofs.Lines

set_option autoImplicit false

namespace Concatenative.Text

/-! ## Characters -/

/-- A character of ASCII is one byte, and any other character has no byte below 128. -/
theorem encodeChar_cases (c : Char) :
    (c.toNat < 0x80 ∧ String.utf8EncodeChar c = [UInt8.ofNat c.toNat])
      ∨ (0x80 ≤ c.toNat ∧ ∀ b ∈ String.utf8EncodeChar c, 0x80 ≤ b.toNat) := by
  have hval : c.toNat = c.val.toNat := rfl
  rcases Nat.lt_or_ge c.toNat 0x80 with hlt | hge
  · refine .inl ⟨hlt, ?_⟩
    rw [String.utf8EncodeChar]
    exact if_pos (by omega)
  · refine .inr ⟨hge, ?_⟩
    -- Whatever the length of the encoding, its bytes have all got the high bit.
    fun_cases String.utf8EncodeChar c <;>
      simp only [List.mem_cons, List.not_mem_nil, or_false, forall_eq_or_imp, forall_eq,
        UInt8.toNat_ofNat'] <;> omega

theorem encodeChar_of_lt {c : Char} (h : c.toNat < 0x80) :
    String.utf8EncodeChar c = [UInt8.ofNat c.toNat] := by
  rcases encodeChar_cases c with ⟨-, hc⟩ | ⟨hge, -⟩
  · exact hc
  · omega

/-- A byte below 128 stands for a character of ASCII and occurs in no other character. -/
theorem mem_encodeChar_iff {a : Char} (ha : a.toNat < 0x80) {c : Char} :
    UInt8.ofNat a.toNat ∈ String.utf8EncodeChar c ↔ c = a := by
  have hbyte : (UInt8.ofNat a.toNat).toNat = a.toNat := by
    rw [UInt8.toNat_ofNat']
    omega
  constructor
  · intro hmem
    rcases encodeChar_cases c with ⟨hlt, hc⟩ | ⟨-, hhigh⟩
    · rw [hc, List.mem_singleton] at hmem
      have hsame : c.toNat = a.toNat := by
        rw [← hbyte, hmem, UInt8.toNat_ofNat']
        omega
      exact Char.toNat_inj.1 hsame
    · have := hhigh _ hmem
      omega
  · rintro rfl
    rw [encodeChar_of_lt ha]
    exact List.mem_singleton_self _

/-! ## Texts -/

/-- The bytes of a text. -/
def encode (text : List Char) : List UInt8 :=
  text.flatMap String.utf8EncodeChar

theorem toList_toUTF8 (text : String) : text.toUTF8.data.toList = encode text.toList := by
  rw [String.toUTF8_eq_toByteArray, ← String.utf8Encode_toList, List.utf8Encode,
    List.data_toByteArray, encode]

theorem toUTF8_ofList (text : List Char) :
    (String.ofList text).toUTF8 = ⟨(encode text).toArray⟩ := by
  refine ByteArray.ext (Array.toList_inj.1 ?_)
  rw [toList_toUTF8, String.toList_ofList]

/-- What was encoded can be decoded. -/
theorem fromUTF8?_toUTF8 (text : String) : String.fromUTF8? text.toUTF8 = some text := by
  rw [String.fromUTF8?, String.toUTF8_eq_toByteArray, dif_pos text.isValidUTF8]
  rfl

theorem mem_encode_iff {a : Char} (ha : a.toNat < 0x80) {text : List Char} :
    UInt8.ofNat a.toNat ∈ encode text ↔ a ∈ text := by
  simp only [encode, List.mem_flatMap, mem_encodeChar_iff ha]
  constructor
  · rintro ⟨c, hc, rfl⟩
    exact hc
  · exact fun h => ⟨a, h, rfl⟩

/-- A carriage return is the last byte of a text if it is the last character. -/
theorem withoutReturn_encode (text : List Char) :
    withoutReturn 0x0D (encode text) = encode (withoutReturn '\r' text) := by
  rcases List.eq_nil_or_concat' text with rfl | ⟨before, c, rfl⟩
  · rfl
  · have hsplit : encode (before ++ [c]) = encode before ++ String.utf8EncodeChar c := by
      simp [encode]
    by_cases hc : c = '\r'
    · have hbyte : String.utf8EncodeChar '\r' = [0x0D] := rfl
      rw [hsplit, hc, hbyte, withoutReturn, withoutReturn, List.getLast?_concat,
        List.getLast?_concat, if_pos rfl, if_pos rfl, List.dropLast_concat, List.dropLast_concat]
    · have hlast : (encode before ++ String.utf8EncodeChar c).getLast? ≠ some 0x0D := by
        rw [List.getLast?_append_of_ne_nil _ String.utf8EncodeChar_ne_nil]
        intro h
        exact hc ((mem_encodeChar_iff (a := '\r') (by decide)).1 (List.mem_of_getLast? h))
      have hlast' : (before ++ [c]).getLast? ≠ some '\r' := by
        rw [List.getLast?_concat]
        exact fun h => hc (Option.some.inj h)
      rw [withoutReturn, withoutReturn, if_neg hlast', hsplit, if_neg hlast]

theorem lines_encode (text : List Char) :
    lines 0x0A 0x0D (encode text) = (lines '\n' '\r' text).map encode := by
  have hfeed : ∀ text : List Char, '\n' ∉ text → (0x0A : UInt8) ∉ encode text :=
    fun text h hmem => h ((mem_encode_iff (a := '\n') (by decide)).1 hmem)
  induction text using lines_induction '\n' with
  | last text h =>
    rw [lines_of_not_mem _ h, lines_of_not_mem _ (hfeed text h)]
    cases text with
    | nil => rfl
    | cons c rest => simp [encode, String.utf8EncodeChar_ne_nil]
  | line piece rest h ih =>
    have hsplit : encode (piece ++ '\n' :: rest) = encode piece ++ 0x0A :: encode rest := by
      rw [encode, List.flatMap_append, List.flatMap_cons, encodeChar_of_lt (by decide)]
      rfl
    rw [hsplit, lines_append_cons _ _ _ _ (hfeed piece h), lines_append_cons _ _ _ _ h, ih,
      withoutReturn_encode, List.map_cons]

/-- **Decoding and cutting into lines commute.** -/
theorem byteLines_toUTF8 (text : String) :
    byteLines text.toUTF8 = (textLines text).map String.toUTF8 := by
  rw [byteLines, toList_toUTF8, lines_encode, textLines, List.map_map, List.map_map]
  exact List.map_congr_left fun line _ => (toUTF8_ofList line).symm

/-! ## What stands on a line -/

section

variable {α : Type} [DecidableEq α] {feed ret : α}

theorem mem_of_mem_withoutReturn {c : α} {piece : List α} (h : c ∈ withoutReturn ret piece) :
    c ∈ piece := by
  rw [withoutReturn] at h
  split at h
  · exact (List.dropLast_sublist piece).mem h
  · exact h

/-- What stands on a line stands in the text. -/
theorem mem_of_mem_lines {c : α} {text line : List α} (hline : line ∈ lines feed ret text)
    (hc : c ∈ line) : c ∈ text := by
  induction text using lines_induction feed with
  | last text hfeed =>
    rw [lines_of_not_mem _ hfeed] at hline
    rwa [List.mem_singleton.1 (List.mem_of_mem_filter hline)] at hc
  | line piece rest hpiece ih =>
    rw [lines_append_cons _ _ _ _ hpiece, List.mem_cons] at hline
    rcases hline with rfl | hline
    · exact List.mem_append_left _ (mem_of_mem_withoutReturn hc)
    · exact List.mem_append_right _ (List.mem_cons_of_mem _ (ih hline))

end

/-! ## Complete lines -/

/-- The bytes end with a line feed, if there are any. -/
def IsComplete (bytes : ByteArray) : Prop :=
  bytes.data.toList = [] ∨ ∃ front, bytes.data.toList = front ++ [0x0A]

/-- What follows complete lines is cut into lines on its own. -/
theorem byteLines_append {bytes : ByteArray} (h : IsComplete bytes) (rest : ByteArray) :
    byteLines (bytes ++ rest) = byteLines bytes ++ byteLines rest := by
  rw [byteLines, byteLines, byteLines, ByteArray.toList_data_append, ← List.map_append]
  rcases h with h | ⟨front, h⟩
  · rw [h, lines_nil, List.nil_append, List.nil_append]
  · rw [h, List.append_assoc, List.singleton_append, lines_append_feed]

theorem isComplete_toUTF8 (text : String) : IsComplete (text ++ "\n").toUTF8 := by
  refine .inr ⟨encode text.toList, ?_⟩
  rw [toList_toUTF8, String.toList_append, encode, List.flatMap_append]
  rfl

end Concatenative.Text
