/-
The dictionary as history.

A definition can come about in two ways. Its tokens can all be typed, or a word that is
expanded opens it and what is pending behind is taken in, the closing token being typed
later. In between other calls may fail. Whichever way it was, the dictionary is what the
completed definitions make of an empty one, and nothing else plays a part.

To say so, one needs an account of a session that does not come from the session's own
buffers. That is the list of its events: the tokens as they are dispatched, with those set
apart that are dispatched where a name is awaited, and the failures. The definitions are read
off it by `Event.definitions`. `Session.replay` is the dictionary that the events to come will
lead to, and no event changes it (`Session.replay_settled` and its neighbours), so what it is
at the beginning it is at the end.

The second part of the file is about a dictionary that has no further history. Once the
opening token is a user word it opens no definition any more, and since user words are never
taken back, it never will again.
-/
import Concatenative.Proofs.Definition
import Concatenative.Proofs.Vocabulary

set_option autoImplicit false

namespace Concatenative

variable {α : Type}

/-! ## Events -/

/-- What happens in a session. -/
inductive Event where
  /-- A token is dispatched where a name is awaited. -/
  | named (token : Token)
  /-- A token is dispatched anywhere else. -/
  | dispatched (token : Token)
  /-- A call fails. -/
  | failed
  deriving DecidableEq

/-- The dispatch of a token in a given mode, as an event. -/
def Mode.event : Mode → Token → Event
  | naming, token => .named token
  | interpreting, token => .dispatched token
  | compiling _ _, token => .dispatched token

namespace Event

/-- The tokens up to the closing one, unless a failure or the end comes first. -/
def body? : List Event → Option (List Token)
  | dispatched token :: later => if token = ";" then some [] else (body? later).map (token :: ·)
  | _ => none

/-- The definitions that are completed, each with its name and its body. No name is awaited while
a body is taken in, so they are completed in the order in which they were named. -/
def definitions : List Event → List (Token × List Token)
  | [] => []
  | named name :: later => ((body? later).map (name, ·)).toList ++ definitions later
  | _ :: later => definitions later

theorem body?_eq_some_iff {events : List Event} {body : List Token} :
    body? events = some body
      ↔ (∃ after, events = body.map dispatched ++ dispatched ";" :: after) ∧ ";" ∉ body := by
  induction events generalizing body with
  | nil => simp [body?]
  | cons event later ih =>
    cases event with
    | named token => cases body <;> simp [body?]
    | failed => cases body <;> simp [body?]
    | dispatched token =>
      by_cases htoken : token = ";"
      · cases body with
        | nil => simp [body?, htoken]
        | cons first rest =>
          simp only [body?, htoken, if_true, Option.some.injEq, List.mem_cons, not_or]
          constructor
          · intro h
            cases h
          · rintro ⟨⟨after, hevents⟩, hne, -⟩
            cases hevents
            exact absurd rfl hne
      · cases body with
        | nil =>
          simp [body?, htoken]
        | cons first rest =>
          simp only [body?, htoken, if_false, Option.map_eq_some_iff, List.cons.injEq, ih,
            List.map_cons, List.cons_append, dispatched.injEq, List.mem_cons, not_or]
          constructor
          · rintro ⟨_, ⟨⟨after, rfl⟩, hfree⟩, rfl, rfl⟩
            exact ⟨⟨after, rfl, rfl⟩, fun h => htoken h.symm, hfree⟩
          · rintro ⟨⟨after, rfl, rfl⟩, -, hfree⟩
            exact ⟨rest, ⟨⟨after, rfl⟩, hfree⟩, rfl, rfl⟩

/-- A definition is completed where its name is followed by the tokens of its body and these
by the closing token. -/
theorem mem_definitions_iff {events : List Event} {name : Token} {body : List Token} :
    (name, body) ∈ definitions events
      ↔ ∃ before after, events
          = before ++ named name :: (body.map dispatched ++ dispatched ";" :: after)
        ∧ ";" ∉ body := by
  induction events with
  | nil => simp [definitions]
  | cons event later ih =>
    have hlater : (∃ before after, event :: later
          = before ++ named name :: (body.map dispatched ++ dispatched ";" :: after)
            ∧ ";" ∉ body)
        ↔ (event = named name ∧ body? later = some body) ∨ (name, body) ∈ definitions later := by
      rw [ih, body?_eq_some_iff]
      constructor
      · rintro ⟨_ | ⟨first, before⟩, after, hevents, hfree⟩
        · cases hevents
          exact .inl ⟨rfl, ⟨after, rfl⟩, hfree⟩
        · cases hevents
          exact .inr ⟨before, after, rfl, hfree⟩
      · rintro (⟨rfl, ⟨after, rfl⟩, hfree⟩ | ⟨before, after, rfl, hfree⟩)
        · exact ⟨[], after, rfl, hfree⟩
        · exact ⟨event :: before, after, rfl, hfree⟩
    rw [hlater]
    cases event with
    | named token =>
      simp only [definitions, List.mem_append, Option.mem_toList, Option.map_eq_some_iff,
        Prod.mk.injEq, named.injEq]
      refine or_congr_left ?_
      constructor
      · rintro ⟨_, h, rfl, rfl⟩
        exact ⟨rfl, h⟩
      · rintro ⟨rfl, h⟩
        exact ⟨body, h, rfl, rfl⟩
    | dispatched token => simp [definitions]
    | failed => simp [definitions]

end Event

/-! ## The events of runs and calls -/

/-- What happens in the first steps of a run. -/
def Run.events [Arithmetic α] : Nat → Run α → List Event
  | 0, _ => []
  | steps + 1, r =>
    (r.pending.head?.map r.session.mode.event).toList ++
      match r.advance with
      | .running next => next.events steps
      | .ended o => if o.error = none then [] else [.failed]

namespace Session

variable [Arithmetic α]

/-- What happens when a token is evaluated. -/
def tokenEvents (patience : Nat) (s : Session α) (token : Token) : List Event :=
  (Run.start s token).events (s.steps patience)

/-- What happens when tokens are fed, up to the first that fails. -/
def feedEvents (patience : Nat) (s : Session α) : List Token → List Event
  | [] => []
  | token :: rest =>
    s.tokenEvents patience token ++
      match s.evalToken patience token with
      | some o => if o.error = none then o.session.feedEvents patience rest else []
      | none => []

/-- What happens in a call. -/
def callEvents (patience : Nat) (s : Session α) : Call → List Event
  | .token token => s.tokenEvents patience token
  | .line text => s.feedEvents patience (tokenize text)

/-- What happens in a sequence of calls. -/
def events (patience : Nat) (s : Session α) : List Call → List Event
  | [] => []
  | call :: rest =>
    s.callEvents patience call ++
      match s.answer patience call with
      | some o => o.session.events patience rest
      | none => []

end Session

/-! ## Replaying events -/

/-- The definitions that events complete, beginning with one that may be open already. -/
def Mode.completed : Mode → List Event → List (Token × List Token)
  | interpreting, events => Event.definitions events
  | naming, events => Event.definitions events
  | compiling name body, events =>
    ((Event.body? events).map fun more => (name, body ++ more)).toList ++ Event.definitions events

/-- The dictionary that a session comes to have if these events happen. -/
def Session.replay (s : Session α) (events : List Event) : Dictionary :=
  s.dictionary.extend (s.mode.completed events)

namespace Session

/-- What has happened does not change the dictionary any more. -/
theorem replay_nil (s : Session α) : s.replay [] = s.dictionary := by
  unfold replay
  cases s.mode <;> rfl

/-- Between definitions neither a token nor a failure completes one. -/
theorem replay_cleared {s : Session α} (hmode : s.mode = .interpreting) (later : List Event) :
    s.cleared.replay later = s.replay (.failed :: later) := by
  simp only [replay, cleared, hmode, Mode.completed, Event.definitions]

theorem replay_dispatched {s : Session α} (hmode : s.mode = .interpreting) (token : Token)
    (later : List Event) : s.replay (.dispatched token :: later) = s.replay later := by
  simp only [replay, hmode, Mode.completed, Event.definitions]

variable [Arithmetic α]

/-- A token that is dealt with brings a definition on its way or completes it, and what is to
come does the rest. -/
theorem replay_settled {s s' : Session α} {token : Token} {news : List (Record α)}
    (hd : s.dispatch token = .settled s' news) (later : List Event) :
    s'.replay later = s.replay (s.mode.event token :: later) := by
  cases becomes_of_dispatch hd with
  | carriedOut stack hmode hfree =>
    rw [hmode, Mode.event, replay_dispatched hmode, replay, replay, hmode]
  | opened hmode hfree htoken =>
    rw [hmode, Mode.event, replay_dispatched hmode]
    simp only [replay, hmode, Mode.completed]
  | named hmode =>
    simp only [replay, hmode, Mode.event, Mode.completed, Event.definitions, List.nil_append]
  | closed hmode htoken =>
    simp only [replay, define, hmode, htoken, Mode.event, Mode.completed, Event.body?,
      Event.definitions, if_true, Option.map_some, Option.toList_some, List.append_nil,
      List.cons_append, List.nil_append, Dictionary.extend_cons]
  | appended hmode htoken =>
    simp only [replay, hmode, Mode.event, Mode.completed, Event.body?, Event.definitions,
      if_neg htoken, Option.map_map, Function.comp_def, List.append_assoc, List.singleton_append]

end Session

/-- While a definition is open nothing fails. -/
theorem Run.mode_of_failed [Arithmetic α] {r : Run α} {o : Outcome α} (h : r.advance = .ended o)
    (hfail : o.error ≠ none) : r.session.mode = .interpreting := by
  rcases advance_ended h with ⟨-, rfl⟩ | ⟨_, _, _, -, -, -, hd | ⟨_, _, hd, -⟩⟩
  · exact absurd rfl hfail
  · cases Session.becomes_of_dispatch hd with
    | failed hmode _ _ => exact hmode
  · cases Session.becomes_of_dispatch hd with
    | expanded hmode _ => exact hmode

/-- What happens in a run leads to the dictionary after it. -/
theorem Run.replay_events [Arithmetic α] {r : Run α} {steps : Nat} {o : Outcome α}
    (h : r.complete steps = some o) (later : List Event) :
    o.session.replay later = r.session.replay (r.events steps ++ later) := by
  induction steps generalizing r with
  | zero => cases h
  | succ n ih =>
    unfold complete at h
    cases hadv : r.advance with
    | running next =>
      rw [hadv] at h
      obtain ⟨token, rest, hp, hcases⟩ := advance_running hadv
      have hevents : r.events (n + 1) = r.session.mode.event token :: next.events n := by
        simp only [events, hp, hadv, List.head?_cons, Option.map_some, Option.toList_some,
          List.singleton_append]
      rw [hevents, List.cons_append, ih h]
      rcases hcases with ⟨news, hd, -⟩ | ⟨body, hd, hs, -⟩
      · exact Session.replay_settled hd _
      · cases Session.becomes_of_dispatch hd with
        | expanded hmode hget => rw [hs, hmode, Mode.event, Session.replay_dispatched hmode]
    | ended outcome =>
      rw [hadv] at h
      cases h
      rcases advance_ended hadv with ⟨hp, rfl⟩ | ⟨token, rest, cause, hp, hsession, herror, -⟩
      · simp [events, hp, hadv, finish]
      · -- A failure comes between definitions, so there is none that it could spoil.
        have hmode := mode_of_failed hadv (by rw [herror]; exact Option.some_ne_none _)
        have hevents : r.events (n + 1) = [.dispatched token, .failed] := by
          simp [events, hp, hadv, hmode, Mode.event, herror]
        rw [hevents, hsession, List.cons_append, Session.replay_dispatched hmode,
          Session.replay_cleared hmode]
        rfl

namespace Session

variable [Arithmetic α]

theorem replay_tokenEvents {s : Session α} {token : Token} {patience : Nat} {o : Outcome α}
    (h : s.evalToken patience token = some o) (later : List Event) :
    o.session.replay later = s.replay (s.tokenEvents patience token ++ later) :=
  Run.replay_events (r := Run.start s token) h later

theorem replay_feedEvents {s : Session α} {tokens : List Token} {patience : Nat} {o : Outcome α}
    (h : s.feed patience tokens = some o) (later : List Event) :
    o.session.replay later = s.replay (s.feedEvents patience tokens ++ later) := by
  induction tokens generalizing s o with
  | nil =>
    cases h
    rfl
  | cons token rest ih =>
    obtain ⟨first, hfirst, ⟨hfail, rfl⟩ | ⟨hok, second, hsecond, rfl⟩⟩ := feed_cons_iff.1 h
    · simp only [feedEvents, hfirst, if_neg hfail, List.append_nil]
      exact replay_tokenEvents hfirst later
    · simp only [feedEvents, hfirst, if_pos hok, List.append_assoc]
      rw [← replay_tokenEvents hfirst]
      show second.session.replay later = _
      exact ih hsecond

theorem replay_callEvents {s : Session α} {c : Call} {patience : Nat} {o : Outcome α}
    (h : s.answer patience c = some o) (later : List Event) :
    o.session.replay later = s.replay (s.callEvents patience c ++ later) := by
  cases c with
  | token token => exact replay_tokenEvents h later
  | line text => exact replay_feedEvents h later

/-- The session after a sequence of calls. -/
def last (s : Session α) (outcomes : List (Outcome α)) : Session α :=
  (outcomes.getLast?.map Outcome.session).getD s

/-- What happens in a sequence of calls leads to the dictionary after it. -/
theorem dictionary_last {s : Session α} {calls : List Call} {patience : Nat}
    {outcomes : List (Outcome α)} (h : s.answers patience calls = some outcomes) :
    (s.last outcomes).dictionary = s.replay (s.events patience calls) := by
  induction calls generalizing s outcomes with
  | nil =>
    cases h
    exact (replay_nil s).symm
  | cons call rest ih =>
    obtain ⟨first, hfirst, hrest⟩ := Option.bind_eq_some_iff.1 h
    obtain ⟨others, hothers, rfl⟩ := Option.map_eq_some_iff.1 hrest
    have hlast : s.last (first :: others) = first.session.last others := by
      cases others <;> rfl
    rw [hlast, ih hothers, replay_callEvents hfirst]
    simp only [events, hfirst]

end Session

/-- **The dictionary is the history of completed definitions.** Take any calls of a new
session, whether they fail or not, and of what happens in them the definitions that are
completed: each the name dispatched where one is awaited, the tokens of its body and the
closing token, with no failure between. After the calls the names of the dictionary are those
of the definitions, each once and where it was defined first, and each stands for the body it
was given last. A failure never finds a definition open. The names before a call are the
first names after it. -/
theorem dictionary_is_history [Arithmetic α] :
    (∀ (settings : Settings) (patience : Nat) (calls : List Call) (outcomes : List (Outcome α)),
      (Session.new settings).answers patience calls = some outcomes →
        let s := (Session.new settings).last outcomes
        let definitions :=
          Event.definitions ((Session.new settings : Session α).events patience calls)
        s.dictionary.names = (definitions.map Prod.fst).eraseDups
          ∧ ∀ name, s.dictionary.get? name = definitions.reverse.lookup name)
    ∧ (∀ (events : List Event) (name : Token) (body : List Token),
      (name, body) ∈ Event.definitions events
        ↔ ∃ before after, events
            = before ++ .named name :: (body.map .dispatched ++ .dispatched ";" :: after)
          ∧ ";" ∉ body)
    ∧ (∀ (r : Run α) (o : Outcome α), r.advance = .ended o → o.error ≠ none →
      r.session.mode = .interpreting)
    ∧ ∀ (s : Session α) (c : Call) (patience : Nat) (o : Outcome α),
      s.answer patience c = some o → s.dictionary.names <+: o.session.dictionary.names := by
  refine ⟨?history, ?definitions, fun _ _ => Run.mode_of_failed, ?names⟩
  case history =>
    intro settings patience calls outcomes h
    have hdictionary : ((Session.new settings).last outcomes).dictionary
        = Dictionary.empty.extend
            (Event.definitions ((Session.new settings : Session α).events patience calls)) :=
      Session.dictionary_last h
    simp only [hdictionary]
    refine ⟨Dictionary.names_extend_empty _, fun name => ?_⟩
    rw [Dictionary.get?_extend, Dictionary.get?_empty, Option.or_none]
  case definitions => exact fun _ _ _ => Event.mem_definitions_iff
  case names =>
    intro s c patience o h
    have hafter : o.session.dictionary = s.replay (s.callEvents patience c) := by
      rw [← Session.replay_nil, Session.replay_callEvents h, List.append_nil]
    rw [hafter]
    exact Dictionary.names_prefix_extend _ _

/-- A word that opens a definition, which is closed from outside; a call that fails; and a
word that is defined again. -/
theorem dictionary_is_history_begin :
    let s : Session Cell := Session.new .plain
    let calls : List Call := [":", "begin", ":", "x", ";", "begin", "dup", ";", "+", ":", "begin",
      "1", ";"].map .token
    ∃ outcomes, s.answers 4 calls = some outcomes
      ∧ outcomes.map Outcome.error
        = List.replicate 8 none ++ [some .stackUnderflow] ++ List.replicate 4 none
      ∧ Event.definitions (s.events 4 calls)
        = [("begin", [":", "x"]), ("x", ["dup"]), ("begin", ["1"])]
      ∧ (s.last outcomes).dictionary.names = ["begin", "x"]
      ∧ (s.last outcomes).dictionary.get? "begin" = some ["1"] := by
  intro s calls
  obtain ⟨outcomes, houtcomes, herrors⟩ : ∃ outcomes, s.answers 4 calls = some outcomes
      ∧ outcomes.map Outcome.error
        = List.replicate 8 none ++ [some .stackUnderflow] ++ List.replicate 4 none :=
    ⟨_, rfl, rfl⟩
  have hdefinitions : Event.definitions (s.events 4 calls)
      = [("begin", [":", "x"]), ("x", ["dup"]), ("begin", ["1"])] := by
    decide +kernel
  obtain ⟨hnames, hbodies⟩ := dictionary_is_history.1 .plain 4 calls outcomes houtcomes
  refine ⟨outcomes, houtcomes, herrors, hdefinitions, ?_, ?_⟩
  · rw [hnames, hdefinitions]
    decide
  · rw [hbodies, hdefinitions]
    decide

/-! ## The end of history -/

namespace Session

/-- A session between definitions with a given dictionary. -/
structure Resting (d : Dictionary) (s : Session α) : Prop where
  dictionary : s.dictionary = d
  mode : s.mode = .interpreting

/-- A session rests as long as no token opens a definition: the opening token does not come, or
it is a user word. -/
theorem Resting.kept [Arithmetic α] {d : Dictionary} {Proper : Token → Prop}
    (hopening : Proper ":" → ":" ∈ d.names)
    (hbodies : ∀ name body, d.get? name = some body → ∀ token ∈ body, Proper token) :
    Kept Proper (Resting (α := α) d) where
  settled := by
    intro s s' token news hs hproper hd
    have hmode := hs.mode
    cases becomes_of_dispatch hd with
    | carriedOut stack _ _ => exact ⟨hs.dictionary, hs.mode⟩
    | opened _ hfree htoken =>
      subst htoken
      rw [hs.dictionary] at hfree
      exact absurd (hopening hproper) (Dictionary.get?_eq_none_iff.1 hfree)
    | named h | closed h _ | appended h _ =>
      rw [hmode] at h
      cases h
  body := by
    intro s token body hs hd
    cases becomes_of_dispatch hd with
    | expanded _ hget => exact hbodies token body (hs.dictionary ▸ hget)
  cleared := fun hs => ⟨hs.dictionary, rfl⟩

end Session

/-- **A user word in place of the opening token is the last.** In a reachable session in which
the opening token is a user word no definition is open, and that word is the youngest. From
then on, whatever calls follow and whether they fail or not, no definition is open after any
of them, nor at any time during one, and the dictionary stays as it is; so the source can
always end there. -/
theorem vocabulary_locked [Arithmetic α] {settings : Settings} {s : Session α}
    (h : s.Reachable settings) (hopening : ":" ∈ s.dictionary.names) :
    s.mode = .interpreting
    ∧ s.dictionary.names.getLast? = some ":"
    ∧ (∀ patience calls outcomes, s.answers patience calls = some outcomes →
      ∀ o ∈ outcomes, o.session.mode = .interpreting ∧ o.session.dictionary = s.dictionary
        ∧ o.session.unclosed? = none)
    ∧ ∀ patience calls outcomes token r, s.answers patience calls = some outcomes →
      (Run.start (s.last outcomes) token).Reaches r →
        r.session.mode = .interpreting ∧ r.session.dictionary = s.dictionary := by
  have hresting : s.Resting s.dictionary := ⟨rfl, h.openingLast.between hopening⟩
  have hkept : Session.Kept (fun _ => True) (Session.Resting (α := α) s.dictionary) :=
    Session.Resting.kept (fun _ => hopening) fun _ _ _ _ _ => trivial
  refine ⟨hresting.mode, ?last, ?calls, ?during⟩
  case last =>
    -- The names are those before the last and the last, and the token is not among the former.
    have hne : s.dictionary.names ≠ [] := List.ne_nil_of_mem hopening
    have hsplit := List.dropLast_append_getLast hne
    rw [← hsplit, List.mem_append, List.mem_singleton] at hopening
    rw [List.getLast?_eq_some_getLast hne, hopening.resolve_left h.openingLast.last]
  case calls =>
    intro patience calls outcomes houtcomes o ho
    have hlast := hkept.answers hresting houtcomes o ho
    refine ⟨hlast.mode, hlast.dictionary, ?_⟩
    rw [Session.unclosed?, hlast.mode]
    rfl
  case during =>
    intro patience calls outcomes token r houtcomes hreach
    have hlast : (s.last outcomes).Resting s.dictionary := by
      unfold Session.last
      cases hget : outcomes.getLast? with
      | none => exact hresting
      | some o => exact hkept.answers hresting houtcomes o (List.mem_of_getLast? hget)
    have hrun := (hkept.reaches hreach hlast fun _ _ => trivial).1
    exact ⟨hrun.mode, hrun.dictionary⟩

/-- A word that was to open a definition no longer does so. -/
theorem vocabulary_locked_begin :
    let s : Session Cell := ((Session.new .plain).define "begin" [":", "x"]).define ":" ["7"]
    s.Reachable .plain ∧ ":" ∈ s.dictionary.names
      ∧ s.dictionary.names.getLast? = some ":"
      ∧ ∃ outcomes, s.answers 4 [.token ":", .token "begin", .token ";"] = some outcomes
        ∧ outcomes.map Outcome.error
          = [none, some (.unknownToken "x"), some (.malformedDefinition .unopened)]
        ∧ ∀ o ∈ outcomes, o.session.mode = .interpreting ∧ o.session.dictionary = s.dictionary
          ∧ o.session.unclosed? = none := by
  intro s
  have hs : s.Reachable .plain :=
    Session.Reachable.new.feed [":", "begin", ":", "x", ";", ":", ":", "7", ";"]
      2 (o := ⟨s, none, 0, []⟩) rfl
  have hopening : ":" ∈ s.dictionary.names := by decide
  obtain ⟨outcomes, houtcomes, herrors⟩ : ∃ outcomes,
      s.answers 4 [.token ":", .token "begin", .token ";"] = some outcomes
        ∧ outcomes.map Outcome.error
          = [none, some (.unknownToken "x"), some (.malformedDefinition .unopened)] :=
    ⟨_, rfl, rfl⟩
  obtain ⟨-, hlast, hcalls, -⟩ := vocabulary_locked hs hopening
  exact ⟨hs, hopening, hlast, outcomes, houtcomes, herrors, hcalls 4 _ outcomes houtcomes⟩

end Concatenative
