/-
The sessions that can come about.

A session begins empty and is then asked to evaluate tokens and lines, and it goes on
after a failure. `Session.Reachable` collects what it can become in that way, and
`Session.Kept` is the one road from a single token to all of it: a property that no
dispatch breaks, and no failure, holds of every reachable session.

The tokens of a call are not the only ones dispatched, since bodies are expanded. So
a property that depends on the tokens being proper has to vouch for the stored bodies
as well, which is what `Kept.body` asks.
-/
import Concatenative.Proofs.Step

set_option autoImplicit false

namespace Concatenative

variable {α : Type} [Arithmetic α]

/-! ## Calls -/

/-- What a session can be asked to evaluate. -/
inductive Call where
  | token (token : Token)
  | line (text : String)

namespace Session

/-- Evaluates what is asked. -/
def answer (patience : Nat) (s : Session α) : Call → Option (Outcome α)
  | .token token => s.evalToken patience token
  | .line text => s.evalLine patience text

/-- What a sequence of calls leads to, each in the session that the one before has
left, whether or not that one has failed. -/
def answers (patience : Nat) (s : Session α) : List Call → Option (List (Outcome α))
  | [] => some []
  | call :: rest =>
    (s.answer patience call).bind fun o => (o.session.answers patience rest).map (o :: ·)

/-- The sessions that calls lead to from a new one. -/
inductive Reachable (settings : Settings) : Session α → Prop
  | new : Reachable settings (.new settings)
  | call {s : Session α} {c : Call} {patience : Nat} {o : Outcome α}
      (hs : Reachable settings s) (h : s.answer patience c = some o) :
      Reachable settings o.session

/-- The sessions that lines lead to from a new one. -/
inductive ReachableByLines (settings : Settings) : Session α → Prop
  | new : ReachableByLines settings (.new settings)
  | line {s : Session α} {text : String} {patience : Nat} {o : Outcome α}
      (hs : ReachableByLines settings s) (h : s.evalLine patience text = some o) :
      ReachableByLines settings o.session

/-- Feeding tokens is a sequence of calls. -/
theorem Reachable.feed {settings : Settings} {s : Session α} (h : Reachable settings s)
    (tokens : List Token) (patience : Nat) {o : Outcome α}
    (hfeed : s.feed patience tokens = some o) : Reachable settings o.session := by
  induction tokens generalizing s o with
  | nil =>
    cases hfeed
    exact h
  | cons token rest ih =>
    obtain ⟨first, hfirst, ⟨-, rfl⟩ | ⟨-, second, hsecond, rfl⟩⟩ := feed_cons_iff.1 hfeed
    · exact h.call (c := .token token) hfirst
    · show Reachable settings second.session
      exact ih (h.call (c := .token token) hfirst) hsecond

theorem ReachableByLines.reachable {settings : Settings} {s : Session α}
    (h : ReachableByLines settings s) : Reachable settings s := by
  induction h with
  | new => exact .new
  | line _ h ih => exact .call (c := .line _) ih h

/-! ## What is kept -/

/-- A property of sessions that nothing breaks as long as the tokens are proper. -/
structure Kept (Proper : Token → Prop) (Holds : Session α → Prop) : Prop where
  settled : ∀ {s s' : Session α} {token : Token} {news : List (Record α)}, Holds s →
    Proper token → s.dispatch token = .settled s' news → Holds s'
  body : ∀ {s : Session α} {token : Token} {body : List Token}, Holds s →
    s.dispatch token = .expansion body → ∀ t ∈ body, Proper t
  cleared : ∀ {s : Session α}, Holds s → Holds s.cleared

namespace Kept

variable {Proper : Token → Prop} {Holds : Session α → Prop}

/-- Throughout a run the property holds and what is pending is proper. -/
theorem reaches (hk : Kept Proper Holds) {r r' : Run α} (h : r.Reaches r')
    (hs : Holds r.session) (hp : ∀ t ∈ r.pending, Proper t) :
    Holds r'.session ∧ ∀ t ∈ r'.pending, Proper t := by
  refine h.keeps (fun a => Holds a.session ∧ ∀ t ∈ a.pending, Proper t) ?_ ⟨hs, hp⟩
  rintro a b hadv ⟨ha, hpa⟩
  obtain ⟨token, rest, hpend, hcases⟩ := Run.advance_running hadv
  rw [hpend] at hpa
  have hrest : ∀ t ∈ rest, Proper t := fun t ht => hpa t (List.mem_cons_of_mem _ ht)
  rcases hcases with ⟨news, hd, hb, -⟩ | ⟨body, hd, hsb, hb, -, -⟩
  · refine ⟨hk.settled ha (hpa token List.mem_cons_self) hd, ?_⟩
    rw [hb]
    exact hrest
  · -- The tokens of the body come from the session, which vouches for them.
    rw [hsb, hb]
    refine ⟨ha, fun t ht => ?_⟩
    rcases List.mem_append.1 ht with ht | ht
    · exact hk.body ha hd t ht
    · exact hrest t ht

theorem evalToken (hk : Kept Proper Holds) {s : Session α} {token : Token} {patience : Nat}
    {o : Outcome α} (hs : Holds s) (ht : Proper token)
    (h : s.evalToken patience token = some o) : Holds o.session := by
  obtain ⟨last, hreach, hend⟩ := path_of_evalToken h
  have hlast := (hk.reaches hreach hs (by simpa [Run.start] using ht)).1
  rcases Run.advance_ended hend with ⟨-, rfl⟩ | ⟨_, _, _, -, hsession, -⟩
  · exact hlast
  · rw [hsession]
    exact hk.cleared hlast

theorem feed (hk : Kept Proper Holds) {s : Session α} {tokens : List Token} {patience : Nat}
    {o : Outcome α} (hs : Holds s) (ht : ∀ t ∈ tokens, Proper t)
    (h : s.feed patience tokens = some o) : Holds o.session := by
  induction tokens generalizing s o with
  | nil =>
    cases h
    exact hs
  | cons token rest ih =>
    obtain ⟨first, hfirst, hcases⟩ := feed_cons_iff.1 h
    have hmid := hk.evalToken hs (ht token List.mem_cons_self) hfirst
    rcases hcases with ⟨-, rfl⟩ | ⟨-, second, hsecond, rfl⟩
    · exact hmid
    · show Holds second.session
      exact ih hmid (fun t h => ht t (List.mem_cons_of_mem _ h)) hsecond

/-- If any token will do, a call keeps the property. -/
theorem answer (hk : Kept (fun _ => True) Holds) {s : Session α} {c : Call} {patience : Nat}
    {o : Outcome α} (hs : Holds s) (h : s.answer patience c = some o) : Holds o.session := by
  cases c with
  | token token => exact hk.evalToken hs trivial h
  | line text => exact hk.feed hs (fun _ _ => trivial) h

/-- If any token will do, the property holds after every call of a sequence. -/
theorem answers (hk : Kept (fun _ => True) Holds) {s : Session α} {calls : List Call}
    {patience : Nat} {outcomes : List (Outcome α)} (hs : Holds s)
    (h : s.answers patience calls = some outcomes) : ∀ o ∈ outcomes, Holds o.session := by
  induction calls generalizing s outcomes with
  | nil =>
    cases h
    exact List.forall_mem_nil _
  | cons call rest ih =>
    obtain ⟨first, hfirst, hrest⟩ := Option.bind_eq_some_iff.1 h
    obtain ⟨others, hothers, rfl⟩ := Option.map_eq_some_iff.1 hrest
    have hmid := hk.answer hs hfirst
    exact List.forall_mem_cons.2 ⟨hmid, ih hmid hothers⟩

/-- If any token will do, the property holds of every reachable session. -/
theorem reachable {settings : Settings} {s : Session α} (hk : Kept (fun _ => True) Holds)
    (hnew : Holds (.new settings)) (h : Reachable settings s) : Holds s := by
  induction h with
  | new => exact hnew
  | call _ h ih => exact hk.answer ih h

/-- If the tokens of lines will do, the property holds of every session reachable by
lines. -/
theorem reachableByLines {settings : Settings} {s : Session α} (hk : Kept Proper Holds)
    (hproper : ∀ text, ∀ t ∈ tokenize text, Proper t) (hnew : Holds (.new settings))
    (h : ReachableByLines settings s) : Holds s := by
  induction h with
  | new => exact hnew
  | line _ h ih => exact hk.feed ih (hproper _) h

end Kept

theorem Reachable.settings_eq {settings : Settings} {s : Session α}
    (h : Reachable settings s) : s.settings = settings := by
  have hk : Kept (fun _ => True) fun s : Session α => s.settings = settings :=
    { settled := fun hs _ hd => (settings_of_dispatch hd).trans hs
      body := fun _ _ _ _ => trivial
      cleared := fun hs => hs }
  exact hk.reachable rfl h

end Session

end Concatenative
