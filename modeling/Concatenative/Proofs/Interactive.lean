/-
The dialogue on a terminal is the one of the transcript.

A transcript is made from the whole input, and on a terminal lines are read one at a time, each
when its prompt has been shown. That the two agree is a matter of where an input is cut: taking the
bytes up to a line feed and reading those as lines gives the first line of the input, and leaves
the others (`hear_takeLine`). With a terminal that records what it is given to show, the loop then
shows what the transcript says and ends with its exit code (`hold_recorder`), in as many turns as
there are lines and one more.
-/
import Concatenative.Interactive
import Concatenative.Proofs.Dialogue
import Mathlib.Data.List.TakeWhile

set_option autoImplicit false

namespace Concatenative.Dialogue

open Text

/-! ## Lines one at a time -/

/-- The bytes of the first line with its ending, and those behind them. -/
def takeLine (bytes : List UInt8) : List UInt8 × List UInt8 :=
  (bytes.takeWhile (· ≠ 0x0A) ++ (bytes.dropWhile (· ≠ 0x0A)).take 1,
    (bytes.dropWhile (· ≠ 0x0A)).drop 1)

theorem takeLine_of_not_mem {bytes : List UInt8} (h : 0x0A ∉ bytes) :
    takeLine bytes = (bytes, []) := by
  have hall : ∀ b ∈ bytes, decide (b ≠ 0x0A) = true :=
    fun b hb => decide_eq_true fun e => h (e ▸ hb)
  rw [takeLine, List.takeWhile_eq_self_iff.2 hall, List.dropWhile_eq_nil_iff.2 hall, List.take_nil,
    List.drop_nil, List.append_nil]

theorem takeLine_append_feed {piece : List UInt8} (h : 0x0A ∉ piece) (rest : List UInt8) :
    takeLine (piece ++ 0x0A :: rest) = (piece ++ [0x0A], rest) := by
  have hall : ∀ b ∈ piece, decide (b ≠ 0x0A) = true :=
    fun b hb => decide_eq_true fun e => h (e ▸ hb)
  rw [takeLine, List.takeWhile_append_of_pos hall, List.dropWhile_append_of_pos hall]
  simp

/-- What is heard of the first line is what is heard first of the input, and the rest is heard of
what is behind it. If nothing is heard of the first line, there is nothing more. -/
theorem hear_takeLine (bytes : List UInt8) :
    (hear ⟨(takeLine bytes).1.toArray⟩ = [] ∧ hear ⟨bytes.toArray⟩ = [])
      ∨ ∃ first, hear ⟨(takeLine bytes).1.toArray⟩ = [first]
        ∧ hear ⟨bytes.toArray⟩ = first :: hear ⟨(takeLine bytes).2.toArray⟩ := by
  by_cases hfeed : 0x0A ∈ bytes
  · obtain ⟨piece, rest, rfl, hpiece⟩ := List.eq_append_cons_of_mem hfeed
    refine .inr ⟨Heard.ofBytes ⟨(withoutReturn 0x0D piece).toArray⟩, ?_, ?_⟩
    · rw [takeLine_append_feed hpiece, hear, byteLines, lines_append_cons _ _ _ _ hpiece, lines_nil]
      rfl
    · rw [takeLine_append_feed hpiece, hear, byteLines, lines_append_cons _ _ _ _ hpiece]
      rfl
  · by_cases hempty : bytes = []
    · rw [hempty]
      exact .inl ⟨rfl, rfl⟩
    · have hone : hear ⟨bytes.toArray⟩ = [Heard.ofBytes ⟨bytes.toArray⟩] := by
        rw [hear, byteLines, lines_of_not_mem _ hfeed, List.filter_singleton,
          decide_eq_true hempty]
        rfl
      refine .inr ⟨Heard.ofBytes ⟨bytes.toArray⟩, ?_, ?_⟩
      · rw [takeLine_of_not_mem hfeed]
        exact hone
      · rw [takeLine_of_not_mem hfeed, hone]
        rfl

/-! ## A terminal that records -/

/-- What is still to be read, and what has been shown. -/
structure Recording where
  unread : List UInt8
  shown : String

/-- The terminal that reads from a recording and writes to it. -/
def recorder : Terminal (StateM Recording) where
  nextLine := do
    let r ← get
    set { r with unread := (takeLine r.unread).2 }
    return ⟨(takeLine r.unread).1.toArray⟩
  put text := modify fun r => { r with shown := r.shown ++ text }

@[simp] theorem run_put_recorder (text : String) (r : Recording) :
    (recorder.put text).run r = pure ((), { r with shown := r.shown ++ text }) := rfl

@[simp] theorem run_nextLine_recorder (r : Recording) :
    recorder.nextLine.run r
      = pure (⟨(takeLine r.unread).1.toArray⟩, { r with unread := (takeLine r.unread).2 }) := rfl

/-- What has come of a dialogue on a recording. -/
def recorded (r : Option Nat × Recording) : Option Transcript :=
  r.1.map fun code => ⟨code, r.2.shown⟩

/-- One turn on a recording: the prompt is shown, one line is read, and what comes of it is shown
or ends the dialogue. -/
theorem hold_recorder_succ (patience turns : Nat) (s : Session Cell) (unread : List UInt8)
    (shown : String) :
    (hold recorder patience (turns + 1) s).run ⟨unread, shown⟩
      = match hear ⟨(takeLine unread).1.toArray⟩ with
        | [] => (some 0, ⟨(takeLine unread).2, shown ++ prompt s⟩)
        | .undecodable :: _ =>
          (some 0, ⟨(takeLine unread).2, shown ++ prompt s ++ undecodableMessage⟩)
        | .unmendable :: _ => (some breakdownCode, ⟨(takeLine unread).2, shown ++ prompt s⟩)
        | .line text :: _ =>
          match reply patience s text with
          | none => (none, ⟨(takeLine unread).2, shown ++ prompt s⟩)
          | some .farewell => (some 0, ⟨(takeLine unread).2, shown ++ prompt s⟩)
          | some (.answered answer next) =>
            (hold recorder patience turns next).run
              ⟨(takeLine unread).2, shown ++ prompt s ++ answer⟩ := by
  simp only [hold, StateT.run_bind, run_put_recorder, run_nextLine_recorder, pure_bind]
  -- Both sides are cases of one list, which the loop has as it is computed.
  unfold hear
  cases (byteLines ⟨(takeLine unread).1.toArray⟩).map Heard.ofBytes with
  | nil => rfl
  | cons first rest =>
    cases first with
    | undecodable => rfl
    | unmendable => rfl
    | line text =>
      simp only
      cases reply patience s text with
      | none => rfl
      | some reply => cases reply <;> rfl

/-- **Held line by line, a dialogue shows what its transcript says.** On a terminal on which the
bytes are typed it shows, behind what was shown before, what the transcript from this session on
says, and ends with its exit code. One turn more than there are lines is enough. -/
theorem hold_recorder {patience turns : Nat} {s : Session Cell} {unread : List UInt8}
    {shown : String} (h : (hear ⟨unread.toArray⟩).length < turns) :
    recorded ((hold recorder patience turns s).run ⟨unread, shown⟩)
      = (converse patience s (hear ⟨unread.toArray⟩)).map (·.after shown) := by
  induction turns generalizing s unread shown with
  | zero => exact absurd h (Nat.not_lt_zero _)
  | succ turns ih =>
    rw [hold_recorder_succ]
    rcases hear_takeLine unread with ⟨hline, hall⟩ | ⟨first, hline, hall⟩
    · rw [hline, hall]
      rfl
    · rw [hline, hall]
      rw [hall, List.length_cons] at h
      cases first with
      | undecodable =>
        rw [converse, Option.map_some, Transcript.after, ← String.append_assoc]
        rfl
      | unmendable => rfl
      | line text =>
        simp only [converse]
        cases reply patience s text with
        | none => rfl
        | some reply =>
          cases reply with
          | farewell => rfl
          | answered answer next =>
            have hafter : ∀ t : Transcript, t.after (shown ++ prompt s ++ answer)
                = (t.after (prompt s ++ answer)).after shown := by
              intro t
              rw [Transcript.after_after, String.append_assoc]
            have hrest : recorded ((hold recorder patience turns next).run
                ⟨(takeLine unread).2, shown ++ prompt s ++ answer⟩)
                  = (converse patience next (hear ⟨(takeLine unread).2.toArray⟩)).map
                    (·.after (shown ++ prompt s ++ answer)) := ih (Nat.lt_of_succ_lt_succ h)
            simp only [hrest, Option.map_map, hafter]
            rfl

/-- So the loop in a new session makes the transcript of its input. -/
theorem hold_eq_transcript {turns : Nat} {input : ByteArray}
    (h : (byteLines input).length < turns) (patience : Nat) :
    recorded ((hold recorder patience turns fresh).run ⟨input.data.toList, ""⟩)
      = transcript patience input := by
  have hlength : (hear ⟨input.data.toList.toArray⟩).length < turns := by
    rw [hear, List.length_map]
    exact h
  have hempty : ∀ t : Transcript, t.after "" = t := by
    intro t
    rw [Transcript.after, String.empty_append]
  rw [hold_recorder hlength, funext hempty]
  exact Option.map_id'

end Concatenative.Dialogue
