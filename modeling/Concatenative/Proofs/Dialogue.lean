/-
Dialogues in parts.

What a dialogue shows is made up line by line, so a dialogue that is cut behind a line goes on
from the session reached as if it had begun there (`converse_append`), and a line feed in the
input is a place where it can be cut (`hear_append`). What the commands do to a dialogue follows
from these two laws. One thing has to be said about the prompt: it is shown before a line is read
and belongs to what went before, so the rest of a dialogue begins behind it.

The lines here are those that were meant, with the backspaces carried out, so a line can be a
command without having been typed as one. What is typed without a backspace is what is meant
(`hear_eq_lines`).
-/
import Concatenative.Dialogue
import Concatenative.Proofs.Text.Encoding

set_option autoImplicit false

namespace Concatenative

/-! ## White space at the ends -/

namespace Text

theorem trim_blank_append {blank : List Char} (h : ∀ c ∈ blank, isWhiteSpace c = true)
    (text : List Char) : trim (blank ++ text) = trim text := by
  rw [trim, List.dropWhile_append_of_pos h, trim]

theorem trim_append_blank {blank : List Char} (h : ∀ c ∈ blank, isWhiteSpace c = true)
    (text : List Char) : trim (text ++ blank) = trim text := by
  have hreverse : ∀ c ∈ blank.reverse, isWhiteSpace c = true :=
    fun c hc => h c (List.mem_reverse.1 hc)
  rw [trim, trim, List.dropWhile_append]
  split
  · rename_i hempty
    have hnone : (blank ++ []).dropWhile isWhiteSpace = [] := List.dropWhile_append_of_pos h
    rw [List.append_nil] at hnone
    rw [hnone, List.isEmpty_iff.1 hempty]
  · rw [List.reverse_append, List.dropWhile_append_of_pos hreverse]

/-- A carriage return at the end of a line is white space around it. -/
theorem trim_withoutReturn (piece : List Char) : trim (withoutReturn '\r' piece) = trim piece := by
  unfold withoutReturn
  split
  · rename_i hlast
    obtain ⟨before, rfl⟩ := List.getLast?_eq_some_iff.1 hlast
    rw [List.dropLast_concat, trim_append_blank (List.forall_mem_singleton.2 isWhiteSpace_return)]
  · rfl

end Text

namespace Dialogue

open Text

/-! ## Hearing -/

/-- What comes of reading an input line by line. -/
def hear (input : ByteArray) : List Heard :=
  (byteLines input).map Heard.ofBytes

theorem hear_append {input : ByteArray} (h : IsComplete input) (rest : ByteArray) :
    hear (input ++ rest) = hear input ++ hear rest := by
  rw [hear, byteLines_append h, List.map_append, hear, hear]

/-- What comes of reading a line that is text. -/
def Heard.ofText (typed : String) : Heard :=
  match mended? typed.toList with
  | none => unmendable
  | some text => line (String.ofList text)

theorem Heard.ofBytes_toUTF8 (typed : String) : ofBytes typed.toUTF8 = ofText typed := by
  rw [ofBytes, fromUTF8?_toUTF8]
  rfl

theorem Heard.ofText_eq_line {typed : String} (h : backspace ∉ typed.toList) :
    ofText typed = line typed := by
  rw [ofText, mended?_eq_self h]
  exact congrArg line (String.ofList_toList ..)

/-- The lines of an encoded text are the lines of the text. -/
theorem hear_toUTF8 (text : String) : hear text.toUTF8 = (textLines text).map Heard.ofText := by
  rw [hear, byteLines_toUTF8, List.map_map]
  exact List.map_congr_left fun line _ => Heard.ofBytes_toUTF8 line

/-- A text without a backspace is heard as it stands. -/
theorem hear_eq_lines {text : String} (h : backspace ∉ text.toList) :
    hear text.toUTF8 = (textLines text).map .line := by
  rw [hear_toUTF8]
  refine List.map_congr_left fun line hline => Heard.ofText_eq_line fun hmem => h ?_
  obtain ⟨piece, hpiece, rfl⟩ := List.mem_map.1 hline
  rw [String.toList_ofList] at hmem
  exact mem_of_mem_lines hpiece hmem

/-- A text of one line is heard as the line that was meant. -/
theorem hear_mended {text typed meant : String} (hlines : textLines text = [typed])
    (hmended : mended? typed.toList = some meant.toList) : hear text.toUTF8 = [.line meant] := by
  rw [hear_toUTF8, hlines, List.map_singleton, Heard.ofText, hmended]
  exact congrArg (fun text => [Heard.line text]) (String.ofList_toList ..)

/-! ## Commands -/

/-- A command as it is typed. -/
def Command.text : Command → String
  | quit => ".quit"
  | clear => ".clear"
  | words => ".words"

/-- The text is white space, and all of it is on one line. -/
def IsBlank (text : String) : Prop :=
  ∀ c ∈ text.toList, c ≠ '\n' ∧ isWhiteSpace c = true

/-- The bytes of a line with a command and white space around it. -/
def Command.typed (c : Command) (before after : String) : ByteArray :=
  (before ++ c.text ++ after ++ "\n").toUTF8

theorem isComplete_typed (c : Command) (before after : String) :
    IsComplete (c.typed before after) :=
  isComplete_toUTF8 _

theorem trim_command (c : Command) : trim c.text.toList = c.text.toList := by
  cases c <;> decide

theorem ofLine?_text (c : Command) : Command.ofLine? c.text = some c := by
  rw [Command.ofLine?, trim_command, String.ofList_toList]
  cases c <;> rfl

/-- A command is recognised whatever white space stands around it. -/
theorem hear_typed (c : Command) {before after : String} (hbefore : IsBlank before)
    (hafter : IsBlank after) :
    ∃ line, hear (c.typed before after) = [.line line] ∧ Command.ofLine? line = some c := by
  have hlist : (before ++ c.text ++ after).toList
      = before.toList ++ c.text.toList ++ after.toList := by
    rw [String.toList_append, String.toList_append]
  have hname : ∀ x ∈ c.text.toList, x ≠ '\n' ∧ x ≠ backspace := by
    have hall : c.text.toList.all (fun x => x != '\n' && x != backspace) = true := by
      cases c <;> decide
    exact fun x hx => by simpa using List.all_eq_true.1 hall x hx
  have hblank : ∀ x : Char, isWhiteSpace x = true → x ≠ backspace := by
    rintro x hx rfl
    exact absurd hx (by decide)
  -- So it is one line, and it is meant as it was typed.
  have hplain : ∀ x ∈ (before ++ c.text ++ after).toList, x ≠ '\n' ∧ x ≠ backspace := by
    intro x hx
    rw [hlist, List.mem_append, List.mem_append] at hx
    rcases hx with (hx | hx) | hx
    · exact ⟨(hbefore x hx).1, hblank x (hbefore x hx).2⟩
    · exact hname x hx
    · exact ⟨(hafter x hx).1, hblank x (hafter x hx).2⟩
  refine ⟨String.ofList (withoutReturn '\r' (before ++ c.text ++ after).toList), ?heard, ?command⟩
  case heard =>
    have hlines : textLines (before ++ c.text ++ after ++ "\n")
        = [String.ofList (withoutReturn '\r' (before ++ c.text ++ after).toList)] := by
      have hfeed : (before ++ c.text ++ after ++ "\n").toList
          = (before ++ c.text ++ after).toList ++ '\n' :: [] := String.toList_append ..
      rw [textLines, hfeed, lines_append_cons _ _ _ _ fun h => (hplain _ h).1 rfl, lines_nil,
        List.map_singleton]
    rw [Command.typed, hear_toUTF8, hlines, List.map_singleton, Heard.ofText_eq_line]
    rw [String.toList_ofList]
    exact fun h => (hplain _ (mem_of_mem_withoutReturn h)).2 rfl
  case command =>
    have htrim : trim (withoutReturn '\r' (before ++ c.text ++ after).toList) = c.text.toList := by
      rw [trim_withoutReturn, hlist, trim_append_blank fun x hx => (hafter x hx).2,
        trim_blank_append fun x hx => (hbefore x hx).2, trim_command]
    rw [← ofLine?_text c, Command.ofLine?, Command.ofLine?, String.toList_ofList, htrim,
      trim_command]

/-! ## Dialogues that are cut -/

theorem Transcript.eq_iff {t t' : Transcript} :
    t = t' ↔ t.code = t'.code ∧ t.shown = t'.shown := by
  cases t
  cases t'
  simp

instance : DecidableEq Transcript :=
  fun _ _ => decidable_of_iff _ Transcript.eq_iff.symm

theorem Transcript.after_after (first second : String) (t : Transcript) :
    (t.after second).after first = t.after (first ++ second) := by
  rw [Transcript.after, Transcript.after, Transcript.after, String.append_assoc]

/-- Where some lines have led to. -/
structure Progress where
  /-- What was shown up to the prompt of the line to come. -/
  shown : String
  /-- The session for the line to come. -/
  session : Session Cell

/-- Progress with something shown before it. -/
def Progress.after (earlier : String) (p : Progress) : Progress :=
  { p with shown := earlier ++ p.shown }

/-- Where lines lead to from a session, unless they leave the dialogue. -/
def proceed (patience : Nat) (s : Session Cell) : List String → Option Progress
  | [] => some ⟨"", s⟩
  | line :: rest =>
    match reply patience s line with
    | some (.answered answer next) => (proceed patience next rest).map (·.after (prompt s ++ answer))
    | _ => none

/-- Only one command is a farewell. -/
theorem reply_ne_farewell {patience : Nat} {s : Session Cell} {line : String}
    (h : Command.ofLine? line ≠ some .quit) : reply patience s line ≠ some .farewell := by
  rw [reply]
  split
  · exact fun _ => absurd ‹_› h
  · exact fun e => by cases e
  · exact fun e => by cases e
  · cases s.evalLine patience line <;> exact fun e => by cases e

/-- **A dialogue that is cut behind some lines** goes on as if it had begun with the session that
these have led to. -/
theorem converse_append {patience : Nat} {s : Session Cell} {lines : List String}
    (hstays : ∀ line ∈ lines, Command.ofLine? line ≠ some .quit) (rest : List Heard) :
    converse patience s (lines.map .line ++ rest)
      = (proceed patience s lines).bind fun p =>
        (converse patience p.session rest).map (·.after p.shown) := by
  induction lines generalizing s with
  | nil =>
    have hid : (fun t : Transcript => t.after "") = id := by
      funext t
      rw [Transcript.after, String.empty_append]
      rfl
    simp [proceed, hid]
  | cons line later ih =>
    obtain ⟨hline, hlater⟩ := List.forall_mem_cons.1 hstays
    rw [List.map_cons, List.cons_append, converse, proceed]
    cases hreply : reply patience s line with
    | none => rfl
    | some reply =>
      cases reply with
      -- The rest would not be heard behind a farewell.
      | farewell => exact absurd hreply (reply_ne_farewell hline)
      | answered answer next =>
        simp only [ih hlater]
        cases proceed patience next later with
        | none => rfl
        | some p =>
          simp only [Option.bind_some, Option.map_map, Option.map_some]
          congr 1
          funext t
          exact Transcript.after_after ..

/-- What a dialogue shows begins with the prompt. -/
theorem shown_of_converse {patience : Nat} {s : Session Cell} {heard : List Heard} {t : Transcript}
    (h : converse patience s heard = some t) : ∃ more, t.shown = prompt s ++ more := by
  match heard with
  | [] =>
    cases h
    exact ⟨"", String.append_empty.symm⟩
  | .undecodable :: rest =>
    cases h
    exact ⟨_, rfl⟩
  | .unmendable :: rest =>
    cases h
    exact ⟨"", String.append_empty.symm⟩
  | .line line :: rest =>
    rw [converse] at h
    cases hreply : reply patience s line with
    | none =>
      rw [hreply] at h
      cases h
    | some reply =>
      rw [hreply] at h
      cases reply with
      | farewell =>
        cases h
        exact ⟨"", String.append_empty.symm⟩
      | answered answer next =>
        obtain ⟨t', -, rfl⟩ := Option.map_eq_some_iff.1 h
        exact ⟨answer ++ t'.shown, String.append_assoc ..⟩

/-! ## Commands in a dialogue -/

section

variable {patience : Nat} {s : Session Cell} {line : String} (rest : List Heard)

theorem converse_quit (h : Command.ofLine? line = some .quit) :
    converse patience s (.line line :: rest) = some ⟨0, prompt s⟩ := by
  rw [converse, reply, h]

theorem converse_clear (h : Command.ofLine? line = some .clear) :
    converse patience s (.line line :: rest)
      = (converse patience fresh rest).map (·.after (prompt s)) := by
  rw [converse, reply, h]
  simp only [String.append_empty]

theorem converse_words (h : Command.ofLine? line = some .words) :
    converse patience s (.line line :: rest)
      = (converse patience s rest).map (·.after (prompt s ++ listing s.dictionary)) := by
  rw [converse, reply, h]

end

section

variable {input : ByteArray} {lines : List String} (hcomplete : IsComplete input)
  (hheard : hear input = lines.map .line)
  (hstays : ∀ line ∈ lines, Command.ofLine? line ≠ some .quit) (patience : Nat)

include hheard hstays

/-- A dialogue that ends with its input has shown one more prompt. -/
theorem transcript_eq :
    transcript patience input
      = (proceed patience fresh lines).map fun p => ⟨0, p.shown ++ prompt p.session⟩ := by
  rw [transcript, ← hear, hheard, ← List.append_nil (lines.map _), converse_append hstays]
  cases proceed patience fresh lines <;> rfl

include hcomplete

theorem transcript_append (bytes : ByteArray) :
    transcript patience (input ++ bytes)
      = (proceed patience fresh lines).bind fun p =>
        (converse patience p.session (hear bytes)).map (·.after p.shown) := by
  rw [transcript, ← hear, hear_append hcomplete, hheard, converse_append hstays]

/-- A command behind some lines is answered in the session they have led to. -/
theorem exists_transcript_typed (c : Command) {before after : String} (hbefore : IsBlank before)
    (hafter : IsBlank after) (rest : ByteArray) :
    ∃ line, Command.ofLine? line = some c
      ∧ transcript patience (input ++ c.typed before after ++ rest)
        = (proceed patience fresh lines).bind fun p =>
          (converse patience p.session (.line line :: hear rest)).map (·.after p.shown) := by
  obtain ⟨line, hline, hcommand⟩ := hear_typed c hbefore hafter
  refine ⟨line, hcommand, ?_⟩
  rw [ByteArray.append_assoc, transcript_append hcomplete hheard hstays,
    hear_append (isComplete_typed c before after), hline, List.singleton_append]

end

/-- **Commands compose.** Take complete lines that can be read, none of them a farewell, and after
them a command with white space around it, and after this any bytes at all. To clear the session
makes one dialogue of two. A farewell ends the dialogue as the end of the input would have done.
And to list the words adds to what is shown the list of the words and one more prompt, and nothing
else, before the rest of the dialogue: one line for each word, in the order of first
definition. -/
theorem commands_compose {input : ByteArray} {lines : List String} (hcomplete : IsComplete input)
    (hheard : hear input = lines.map .line)
    (hstays : ∀ line ∈ lines, Command.ofLine? line ≠ some .quit) {before after : String}
    (hbefore : IsBlank before) (hafter : IsBlank after) (patience : Nat) (rest : ByteArray) :
    (transcript patience (input ++ Command.clear.typed before after ++ rest)
        = (transcript patience input).bind fun t =>
          (transcript patience rest).map (·.after t.shown))
      ∧ transcript patience (input ++ Command.quit.typed before after ++ rest)
        = transcript patience input
      ∧ ∀ t, transcript patience input = some t →
        ∃ p, proceed patience fresh lines = some p
          ∧ t = ⟨0, p.shown ++ prompt p.session⟩
          ∧ ∀ t', transcript patience (input ++ rest) = some t' →
            ∃ more, t' = ⟨t'.code, t.shown ++ more⟩
              ∧ transcript patience (input ++ Command.words.typed before after ++ rest)
                = some ⟨t'.code, t.shown
                  ++ String.join (p.session.dictionary.entries.map fun entry =>
                    ": " ++ entry.1 ++ " " ++ spelled entry.2 ++ " ;" ++ "\n")
                  ++ prompt p.session ++ more⟩ := by
  have hend := transcript_eq hheard hstays patience
  have htyped := fun c =>
    exists_transcript_typed hcomplete hheard hstays patience c hbefore hafter rest
  refine ⟨?clear, ?quit, ?words⟩
  case clear =>
    obtain ⟨line, hcommand, hclear⟩ := htyped .clear
    rw [hclear, hend]
    cases proceed patience fresh lines with
    | none => rfl
    | some p =>
      simp only [Option.bind_some, Option.map_some, converse_clear _ hcommand, Option.map_map]
      congr 1
      funext t
      exact Transcript.after_after ..
  case quit =>
    obtain ⟨line, hcommand, hquit⟩ := htyped .quit
    rw [hquit, hend]
    cases proceed patience fresh lines with
    | none => rfl
    | some p => rw [Option.bind_some, converse_quit _ hcommand]; rfl
  case words =>
    intro t ht
    rw [hend] at ht
    obtain ⟨p, hp, rfl⟩ := Option.map_eq_some_iff.1 ht
    refine ⟨p, hp, rfl, fun t' ht' => ?_⟩
    rw [transcript_append hcomplete hheard hstays, hp, Option.bind_some] at ht'
    obtain ⟨later, hlater, rfl⟩ := Option.map_eq_some_iff.1 ht'
    -- The prompt that the rest begins with was shown before the rest was read.
    obtain ⟨more, hmore⟩ := shown_of_converse hlater
    obtain ⟨line, hcommand, hwords⟩ := htyped .words
    refine ⟨more, ?_, ?_⟩
    · rw [Transcript.after, hmore, String.append_assoc]
    · have hlisting : listing p.session.dictionary
          = String.join (p.session.dictionary.entries.map fun entry =>
            ": " ++ entry.1 ++ " " ++ spelled entry.2 ++ " ;" ++ "\n") := by
        rw [listing, Dictionary.definitionLines, List.map_map]
        rfl
      rw [hwords, hp, Option.bind_some, converse_words _ hcommand, hlater]
      simp only [Option.map_some, Transcript.after, hmore, hlisting, String.append_assoc]

/-- A definition, a line that fails and a definition that is left open, and then each of the
commands and a line that closes what is open. -/
theorem commands_compose_open_definition :
    let input := (": sq dup * ;\n1 +\n: open" ++ "\n").toUTF8
    let rest := "2 ;\n".toUTF8
    transcript 3 (input ++ Command.clear.typed "\t" "\r" ++ rest)
        = some ⟨0, "> \n> stack underflow\n> : open ... "
          ++ "> malformed definition: ; outside of a definition\n> "⟩
      ∧ transcript 3 (input ++ Command.quit.typed "\t" "\r" ++ rest)
        = some ⟨0, "> \n> stack underflow\n> : open ... "⟩
      ∧ transcript 3 (input ++ Command.words.typed "\t" "\r" ++ rest)
        = some ⟨0, "> \n> stack underflow\n> : open ... "
          ++ ": sq dup * ;\n" ++ ": open ... " ++ "\n> "⟩ := by
  intro input rest
  have hheard : hear input = [": sq dup * ;", "1 +", ": open"].map .line := by
    rw [hear_eq_lines (by decide)]
    exact congrArg _ (by decide +kernel)
  have hblank : IsBlank "\t" ∧ IsBlank "\r" := by
    constructor <;> exact List.forall_mem_singleton.2 (by decide)
  obtain ⟨hclear, hquit, hwords⟩ := commands_compose (isComplete_toUTF8 _) hheard (by decide)
    hblank.1 hblank.2 3 rest
  have hinput : transcript 3 input = some ⟨0, "> \n> stack underflow\n> : open ... "⟩ := by
    rw [transcript, ← hear, hheard]
    decide +kernel
  have hrest : transcript 3 rest
      = some ⟨0, "> malformed definition: ; outside of a definition\n> "⟩ := by
    rw [transcript, ← hear, hear_eq_lines (by decide)]
    decide +kernel
  have hboth : transcript 3 (input ++ rest)
      = some ⟨0, "> \n> stack underflow\n> : open ... " ++ "\n> "⟩ := by
    rw [transcript_append (isComplete_toUTF8 _) hheard (by decide), hear_eq_lines (by decide)]
    decide +kernel
  refine ⟨?clear, ?quit, ?words⟩
  case clear =>
    rw [hclear, hinput, Option.bind_some, hrest]
    rfl
  case quit => rw [hquit, hinput]
  case words =>
    obtain ⟨p, hp, -, hafter⟩ := hwords _ hinput
    obtain ⟨more, hmore, hlisted⟩ := hafter _ hboth
    have hstate : (proceed 3 fresh [": sq dup * ;", "1 +", ": open"]).map
        (fun p => (p.session.dictionary.entries, prompt p.session))
          = some ([("sq", ["dup", "*"])], ": open ... ") := by
      decide +kernel
    rw [hp] at hstate
    obtain ⟨hentries, hprompt⟩ := Prod.mk.inj (Option.some.inj hstate)
    obtain rfl : "\n> " = more := (String.append_right_inj _).1 (congrArg Transcript.shown hmore)
    rw [hlisted, hentries, hprompt]
    rfl

/-- **A line need not be typed as a command to be one.** The backspace makes a farewell of a line
that has not the letters of one, so what follows is not read, and to clear the session does not
make one dialogue of two. -/
theorem mended_commands_leave :
    let input := (".quitx\x08" ++ "\n").toUTF8
    let rest := "1\n".toUTF8
    (∀ line ∈ textLines (".quitx\x08" ++ "\n"), Command.ofLine? line ≠ some .quit)
      ∧ transcript 2 (input ++ Command.clear.typed "" "" ++ rest)
        ≠ (transcript 2 input).bind fun t => (transcript 2 rest).map (·.after t.shown) := by
  intro input rest
  have hlines : textLines (".quitx\x08" ++ "\n") = [".quitx\x08"] := by decide +kernel
  have hheard : hear input = [.line ".quit"] := hear_mended hlines (by decide +kernel)
  have hinput : transcript 2 input = some ⟨0, "> "⟩ := by
    rw [transcript, ← hear, hheard]
    exact converse_quit _ rfl
  have hmore : ∀ bytes, transcript 2 (input ++ bytes) = some ⟨0, "> "⟩ := by
    intro bytes
    rw [transcript, ← hear, hear_append (isComplete_toUTF8 _), hheard]
    exact converse_quit _ rfl
  have hrest : transcript 2 rest = some ⟨0, "> 1\n> "⟩ := by
    rw [transcript, ← hear, hear_eq_lines (by decide)]
    decide +kernel
  constructor
  · rw [hlines]
    decide
  · rw [ByteArray.append_assoc, hmore, hinput, Option.bind_some, hrest]
    decide

end Dialogue

end Concatenative
