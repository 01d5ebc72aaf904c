/-
A word that is evaluated inside itself is evaluated for ever, or fails.

A word that mentions itself need not run for ever. It may take values off the stack until
there are none, and fail; and it may open a definition that takes in the rest of its own
body, the mention of itself included. What it cannot do is to be expanded inside an
expansion of itself and come to a good end. As long as nothing fails, the values on the
stack decide nothing: what happens to a token depends on the mode and on the dictionary,
and the dictionary stays as it is. So the inner evaluation would do what the outer one does.

`Dictionary.Costs` makes this an argument on numbers. It relates tokens to the number of
dispatches that their evaluation takes if it does not fail, and to the mode it leads to,
and it does not speak of the stack. Mode and tokens determine that number
(`Dictionary.Costs.functional`), and in a run that succeeds every pending token costs less
than the words in whose expansions it stands (`Session.Traces.dwindles`). A word that stood
inside itself would cost less than it costs.
-/
import Concatenative.Proofs.Nesting
import Concatenative.Proofs.Threshold

set_option autoImplicit false

namespace Concatenative

variable {α : Type}

/-! ## The course of the mode -/

/-- The mode after a token that is neither expanded nor fails. -/
def Mode.after : Mode → Token → Mode
  | interpreting, token => if token = ":" then naming else interpreting
  | naming, token => compiling token []
  | compiling name body, token =>
    if token = ";" then interpreting else compiling name (body ++ [token])

/-- The mode takes its course whatever the values are. -/
theorem Session.mode_of_settled [Arithmetic α] {s s' : Session α} {token : Token}
    {news : List (Record α)} (h : s.dispatch token = .settled s' news) :
    s'.mode = s.mode.after token := by
  cases becomes_of_dispatch h with
  | carriedOut stack hmode hfree =>
    -- The opening token is carried out too, but it would not have kept the mode.
    have hne : token ≠ ":" := by
      rintro rfl
      rw [dispatch_opening hmode hfree] at h
      injection h with hsession
      have hnaming := congrArg Session.mode hsession
      rw [hmode] at hnaming
      cases hnaming
    rw [hmode, Mode.after, if_neg hne]
  | opened hmode hfree htoken => rw [hmode, Mode.after, if_pos htoken]
  | named hmode => rw [hmode, Mode.after]
  | closed hmode htoken =>
    rw [hmode, Mode.after, if_pos htoken]
    rfl
  | appended hmode htoken => rw [hmode, Mode.after, if_neg htoken]

/-- Between definitions, what is dealt with is no user word. -/
theorem Session.get?_of_settled [Arithmetic α] {s s' : Session α} {token : Token}
    {news : List (Record α)} (h : s.dispatch token = .settled s' news)
    (hmode : s.mode = .interpreting) : s.dictionary.get? token = none := by
  cases hget : s.dictionary.get? token with
  | none => rfl
  | some body =>
    rw [dispatch_user_word hmode hget] at h
    cases h

/-! ## What tokens cost -/

namespace Dictionary

/-- Evaluating tokens takes so many dispatches and leads from one mode to another, if
nothing fails. -/
inductive Costs (d : Dictionary) : Mode → List Token → Nat → Mode → Prop
  | nil {mode : Mode} : Costs d mode [] 0 mode
  | settled {mode mode' : Mode} {token : Token} {rest : List Token} {cost : Nat}
      (hfree : mode = .interpreting → d.get? token = none)
      (hrest : Costs d (mode.after token) rest cost mode') :
      Costs d mode (token :: rest) (1 + cost) mode'
  | expanded {mode mode' : Mode} {token : Token} {body rest : List Token} {inner cost : Nat}
      (hget : d.get? token = some body) (hbody : Costs d .interpreting body inner mode)
      (hrest : Costs d mode rest cost mode') :
      Costs d .interpreting (token :: rest) (1 + inner + cost) mode'

namespace Costs

variable {d : Dictionary}

/-- Mode and tokens determine the cost. -/
theorem functional {mode mode' mode'' : Mode} {tokens : List Token} {cost cost' : Nat}
    (h : d.Costs mode tokens cost mode') (h' : d.Costs mode tokens cost' mode'') :
    cost = cost' ∧ mode' = mode'' := by
  induction h generalizing cost' mode'' with
  | nil =>
    cases h'
    exact ⟨rfl, rfl⟩
  | settled hfree _ ih =>
    cases h' with
    | settled _ hrest' =>
      obtain ⟨rfl, rfl⟩ := ih hrest'
      exact ⟨rfl, rfl⟩
    | expanded hget' _ _ =>
      rw [hfree rfl] at hget'
      cases hget'
  | expanded hget _ _ ihbody ihrest =>
    cases h' with
    | settled hfree' _ =>
      rw [hfree' rfl] at hget
      cases hget
    | expanded hget' hbody' hrest' =>
      cases hget.symm.trans hget'
      obtain ⟨rfl, rfl⟩ := ihbody hbody'
      obtain ⟨rfl, rfl⟩ := ihrest hrest'
      exact ⟨rfl, rfl⟩

/-- What comes first is paid for first. -/
theorem append_split {mode mode' : Mode} {front back : List Token} {cost : Nat}
    (h : d.Costs mode (front ++ back) cost mode') :
    ∃ mid first second, d.Costs mode front first mid ∧ d.Costs mid back second mode'
      ∧ cost = first + second := by
  induction front generalizing mode cost with
  | nil => exact ⟨mode, 0, cost, .nil, h, (Nat.zero_add cost).symm⟩
  | cons token rest ih =>
    rw [List.cons_append] at h
    cases h with
    | settled hfree hrest =>
      obtain ⟨mid, first, second, hfirst, hsecond, rfl⟩ := ih hrest
      exact ⟨mid, _, second, .settled hfree hfirst, hsecond, by omega⟩
    | expanded hget hbody hrest =>
      obtain ⟨mid, first, second, hfirst, hsecond, rfl⟩ := ih hrest
      exact ⟨mid, _, second, .expanded hget hbody hfirst, hsecond, by omega⟩

theorem cons_split {mode mode' : Mode} {token : Token} {rest : List Token} {cost : Nat}
    (h : d.Costs mode (token :: rest) cost mode') :
    ∃ mid first second, d.Costs mode [token] first mid ∧ d.Costs mid rest second mode'
      ∧ cost = first + second := by
  have happend : d.Costs mode ([token] ++ rest) cost mode' := h
  exact happend.append_split

/-- A token that is not expanded moves the mode one token on. -/
theorem mode_eq_after {mode mode' : Mode} {token : Token} {cost : Nat}
    (hfree : mode = .interpreting → d.get? token = none) (h : d.Costs mode [token] cost mode') :
    mode' = mode.after token :=
  (functional h (.settled hfree .nil)).2

/-- A user word costs one dispatch more than its body. -/
theorem of_user_word {mode : Mode} {token : Token} {body : List Token} {cost : Nat}
    (hget : d.get? token = some body) (h : d.Costs .interpreting [token] cost mode) :
    ∃ inner, d.Costs .interpreting body inner mode ∧ inner < cost := by
  cases h with
  | settled hfree _ =>
    rw [hfree rfl] at hget
    cases hget
  | expanded hget' hbody hrest =>
    cases hget.symm.trans hget'
    cases hrest
    exact ⟨_, hbody, by omega⟩

end Costs

end Dictionary

/-- What is pending in a run that comes to its end without failing has a cost. -/
theorem Run.Reaches.costs [Arithmetic α] {d : Dictionary} {r last : Run α} (h : r.Reaches last)
    (hdone : last.pending = [])
    (hfixed : ∀ r', r.Reaches r' → r'.pending ≠ [] → r'.session.dictionary = d) :
    ∃ cost mode, d.Costs r.session.mode r.pending cost mode := by
  induction h using Relation.ReflTransGen.head_induction_on with
  | refl =>
    rw [hdone]
    exact ⟨0, _, .nil⟩
  | @head r next hnext _ ih =>
    obtain ⟨cost, mode, hcosts⟩ := ih fun r' hr' => hfixed r' (.head hnext hr')
    obtain ⟨token, rest, hp, hcases⟩ := Run.advance_running hnext
    have hdictionary : r.session.dictionary = d :=
      hfixed r .refl (by rw [hp]; exact List.cons_ne_nil _ _)
    rw [hp]
    rcases hcases with ⟨news, hd, hrest, -⟩ | ⟨body, hd, hs, hbody, -, -⟩
    · rw [hrest, Session.mode_of_settled hd] at hcosts
      exact ⟨_, mode, .settled (hdictionary ▸ Session.get?_of_settled hd) hcosts⟩
    · cases Session.becomes_of_dispatch hd with
      | expanded hmode hget =>
        rw [hs, hbody, hmode] at hcosts
        obtain ⟨mid, inner, outer, hinner, houter, -⟩ := hcosts.append_split
        rw [hmode]
        exact ⟨_, mode, .expanded (by rw [← hdictionary, hget]) hinner houter⟩

/-! ## Words inside words -/

/-- A cost below that of evaluating `word` between definitions. -/
def Dictionary.CheaperThan (d : Dictionary) (cost : Nat) (word : Token) : Prop :=
  ∃ whole mode, d.Costs .interpreting [word] whole mode ∧ cost < whole

theorem Dictionary.CheaperThan.of_le {d : Dictionary} {part cost : Nat} {word : Token}
    (h : d.CheaperThan cost word) (hle : part ≤ cost) : d.CheaperThan part word := by
  obtain ⟨whole, mode, hwhole, hlt⟩ := h
  exact ⟨whole, mode, hwhole, Nat.lt_of_le_of_lt hle hlt⟩

/-- Of tokens that are pending in some mode, each costs less than the user words in whose
expansions it stands. -/
inductive Dictionary.Dwindles (d : Dictionary) : Mode → List Occurrence → Prop
  | nil {mode : Mode} : Dwindles d mode []
  | cons {mode mode' : Mode} {first : Occurrence} {rest : List Occurrence} {cost : Nat}
      (hcost : d.Costs mode [first.token] cost mode')
      (hless : ∀ word ∈ first.within, d.CheaperThan cost word)
      (hrest : Dwindles d mode' rest) : Dwindles d mode (first :: rest)

/-- The tokens of a body cost less than what the body as a whole costs less than. -/
theorem Dictionary.Dwindles.inside_append {d : Dictionary} {mode mode' : Mode}
    {word : Occurrence} {body : List Token} {rest : List Occurrence} {cost : Nat}
    (hbody : d.Costs mode body cost mode')
    (hless : ∀ w ∈ word.token :: word.within, d.CheaperThan cost w)
    (hrest : d.Dwindles mode' rest) : d.Dwindles mode (word.inside body ++ rest) := by
  induction body generalizing mode cost with
  | nil =>
    cases hbody
    exact hrest
  | cons token tokens ih =>
    obtain ⟨mid, first, second, hfirst, hsecond, rfl⟩ := hbody.cons_split
    refine .cons hfirst (fun w hw => ?_) (ih hsecond fun w hw => ?_)
    · exact (hless w hw).of_le (Nat.le_add_right first second)
    · exact (hless w hw).of_le (Nat.le_add_left second first)

namespace Session

variable [Arithmetic α] {s : Session α} {token : Token}

/-- Wherever a run comes that ends without failing, the deeper a token stands the less it
costs. -/
theorem Traces.dwindles (hs : s.dictionary.ClosingFree) {last : Run α}
    (hlast : (Run.start s token).Reaches last) (hdone : last.pending = []) {r : Run α}
    {pending : List Occurrence} (h : s.Traces token r pending) :
    s.dictionary.Dwindles r.session.mode pending := by
  induction h with
  | start =>
    obtain ⟨cost, mode, hcosts⟩ :=
      hlast.costs hdone fun _ hr hp => Run.dictionary_eq_of_pending hs hr hp
    exact .cons hcosts (fun _ hword => nomatch hword) .nil
  | @settled r r' first rest s' news h hd hadv ih =>
    obtain ⟨hsession, -, -⟩ := Run.running_of_settled h.pending_eq hd hadv
    rw [hsession, mode_of_settled hd]
    cases ih with
    | cons hcost _ hrest =>
      rw [hcost.mode_eq_after (h.dictionary_eq hs ▸ get?_of_settled hd)] at hrest
      exact hrest
  | @expanded r r' first rest body h hd hadv ih =>
    obtain ⟨hsession, -, -⟩ := Run.running_of_expansion h.pending_eq hd hadv
    have hget := h.get?_of_expansion hs hd
    rw [hsession]
    cases becomes_of_dispatch hd with
    | expanded hmode _ =>
      rw [hmode]
      cases ih with
      | @cons _ mode' _ _ cost hcost hless hrest =>
        rw [hmode] at hcost
        obtain ⟨inner, hinner, hlt⟩ := hcost.of_user_word hget
        refine .inside_append hinner (fun w hw => ?_) hrest
        rcases List.mem_cons.1 hw with rfl | hw
        · exact ⟨cost, mode', hcost, hlt⟩
        · exact (hless w hw).of_le (Nat.le_of_lt hlt)

/-- A run that ends without failing expands no word inside an expansion of itself. -/
theorem neverReenters_of_ok (hs : s.dictionary.ClosingFree) {last : Run α}
    (hlast : (Run.start s token).Reaches last) (hdone : last.pending = []) :
    s.NeverReenters token := by
  intro r first rest body h hd hmem
  cases becomes_of_dispatch hd with
  | expanded hmode _ =>
    have hdwindles := h.dwindles hs hlast hdone
    rw [hmode] at hdwindles
    cases hdwindles with
    | cons hcost hless _ =>
      -- The same word in the same mode would have two costs.
      obtain ⟨whole, _, hwhole, hlt⟩ := hless first.token hmem
      have hsame := (hcost.functional hwhole).1
      omega

/-- What a call that succeeds has expanded: no word inside an expansion of itself, and no
more words than the dictionary is good for. -/
theorem neverReenters_and_expansions_le (hs : s.dictionary.ClosingFree) {patience : Nat}
    {o : Outcome α} (h : s.evalToken patience token = some o) (hok : o.error = none) :
    s.NeverReenters token ∧ o.expansions ≤ s.dictionary.weight 0 := by
  obtain ⟨last, hreach, hend⟩ := path_of_evalToken h
  rcases Run.advance_ended hend with ⟨hdone, rfl⟩ | ⟨_, _, _, -, -, herr, -⟩
  · have hnever := neverReenters_of_ok hs hreach hdone
    exact ⟨hnever, hnever.expansions_le hs hreach⟩
  · rw [herr] at hok
    cases hok

end Session

/-- **Success excludes repetition.** If in a reachable session the evaluation of a token
succeeds, then in none of its states is a user word expanded inside an expansion of
itself, and so the number of expansions is bounded by a sum over the depths that are
possible with so many words, of powers of the length of the longest body. Hence a call that
fails because of a limit at least as high does not succeed without the limit. -/
theorem success_excludes_repetition [Arithmetic α] {settings : Settings} {s : Session α}
    (h : s.Reachable settings) (token : Token) :
    (∀ patience o, s.evalToken patience token = some o → o.error = none →
      (∀ r, (Run.start s token).Reaches r → ∃ pending, s.Traces token r pending)
        ∧ (∀ r first rest body, s.Traces token r (first :: rest) →
          r.session.dispatch first.token = .expansion body → first.token ∉ first.within)
        ∧ o.expansions ≤ ∑ depth ∈ Finset.range s.dictionary.entries.length,
          s.dictionary.longestBody ^ depth)
    ∧ ∀ limit, ∑ depth ∈ Finset.range s.dictionary.entries.length,
          s.dictionary.longestBody ^ depth ≤ limit →
      ∀ patience o, (s.withLimit (some limit)).evalToken patience token = some o →
        o.error = some (.expansionLimit limit) →
          ∀ patience' o', (s.withLimit none).evalToken patience' token = some o' →
            o'.error ≠ none := by
  have hs := h.closingFree
  have hweight : s.dictionary.weight 0 = ∑ depth ∈ Finset.range s.dictionary.entries.length,
      s.dictionary.longestBody ^ depth := by
    rw [Dictionary.weight, Dictionary.names, List.length_map, Nat.sub_zero]
  rw [← hweight]
  refine ⟨fun patience o ho hok => ?succeeds, fun limit hle patience o ho hlimit => ?limited⟩
  case succeeds =>
    obtain ⟨hnever, hbound⟩ := Session.neverReenters_and_expansions_le hs.stored ho hok
    exact ⟨fun r hr => Session.exists_traces hr, hnever, hbound⟩
  case limited =>
    intro patience' o' ho' hok
    -- If it succeeded without the limit it would stay within it.
    have hbound := (Session.neverReenters_and_expansions_le (hs.withLimit none).stored ho' hok).2
    have hwithin : s.expansionCount token ≤ limit := by
      rw [Session.expansionCount_eq ho']
      exact Nat.cast_le.2 (Nat.le_trans hbound hle)
    have hsame := Session.evalToken_within hs hwithin ho' patience
    rw [ho] at hsame
    cases hsame
    rw [show (o'.withLimit (some limit)).error = o'.error from rfl, hok] at hlimit
    cases hlimit

/-- A word that mentions itself can succeed, by opening a definition with what it mentions;
one that exceeds the bound of its dictionary cannot. -/
theorem success_excludes_repetition_self :
    let s : Session Cell :=
      ((Session.new .plain).define "again" [":", "again"]).define "count" ["1", "count"]
    s.Reachable .plain
      ∧ (∃ o, s.evalToken 4 "again" = some o ∧ o.error = none
        ∧ o.session.mode = .compiling "again" [] ∧ o.expansions ≤ 1 + 2)
      ∧ (∃ o, (s.withLimit (some 3)).evalToken 0 "count" = some o
        ∧ o.error = some (.expansionLimit 3))
      ∧ ∀ patience o, (s.withLimit none).evalToken patience "count" = some o → o.error ≠ none := by
  intro s
  have hs : s.Reachable .plain :=
    Session.Reachable.new.feed [":", "again", ":", "again", ";", ":", "count", "1", "count", ";"]
      2 (o := ⟨s, none, 0, []⟩) rfl
  obtain ⟨o, ho, hok, hmode⟩ : ∃ o, s.evalToken 4 "again" = some o ∧ o.error = none
      ∧ o.session.mode = .compiling "again" [] := ⟨_, rfl, rfl, rfl⟩
  obtain ⟨o', ho', hlimit⟩ : ∃ o, (s.withLimit (some 3)).evalToken 0 "count" = some o
      ∧ o.error = some (.expansionLimit 3) := ⟨_, rfl, rfl⟩
  have hsum : ∑ depth ∈ Finset.range s.dictionary.entries.length,
      s.dictionary.longestBody ^ depth = 3 := by decide
  have hbound := ((success_excludes_repetition hs "again").1 4 o ho hok).2.2
  rw [hsum] at hbound
  exact ⟨hs, ⟨o, ho, hok, hmode, hbound⟩, ⟨o', ho', hlimit⟩,
    (success_excludes_repetition hs "count").2 3 (Nat.le_of_eq hsum) 0 o' ho' hlimit⟩

end Concatenative
