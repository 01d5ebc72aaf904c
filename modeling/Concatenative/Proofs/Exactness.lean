/-
Cells as integers.

A session on cells and one on integers share everything but the arithmetic, and cells calculate
exactly or not at all. So the two do the same for as long as no result is out of range
(`Coupling.exact`), and the integers say when that is: the first operation of the session on
integers whose result is no cell is where the session on cells overflows.

For that an operation has to be something that can be pointed at in a run, which is what
`Session.Performs` is for. It says that a token is an operator with both operands there, and
these are the only dispatches that fail for an arithmetic cause (`dispatch_arithmetic_iff`).
-/
import Concatenative.Proofs.Coupling
import Concatenative.Proofs.Reachability

set_option autoImplicit false

namespace Concatenative

variable {α : Type}

/-! ## Results of operators -/

/-- The integer is no cell. -/
def OutOfRange (value : Int) : Prop :=
  value < -2147483648 ∨ 2147483647 < value

theorem Cell.not_outOfRange (c : Cell) : ¬ OutOfRange c.val := by
  have hlower := c.lower
  have hupper := c.upper
  rintro (h | h) <;> omega

theorem Operator.exact_ne_overflow (op : Operator) (left right : Int) :
    op.exact left right ≠ .error .overflow := by
  cases op with
  | div =>
    by_cases h : right = 0 <;> simp [Operator.exact, h]
  | _ => exact fun h => nomatch h

theorem Operator.exact_eq_divisionByZero_iff {op : Operator} {left right : Int} :
    op.exact left right = .error .divisionByZero ↔ op = .div ∧ right = 0 := by
  cases op <;> simp [Operator.exact]

/-- What cells calculate is the exact result, or why there is none, or the exact result is no
cell. -/
theorem Cell.calculate_cases (op : Operator) (left right : Cell) :
    (∃ c : Cell, Cell.calculate op left right = .ok c
        ∧ op.exact left.val right.val = .ok c.val)
      ∨ (∃ value, Cell.calculate op left right = .error .overflow
        ∧ op.exact left.val right.val = .ok value ∧ OutOfRange value)
      ∨ (Cell.calculate op left right = .error .divisionByZero
        ∧ op.exact left.val right.val = .error .divisionByZero) := by
  cases hexact : op.exact left.val right.val with
  | error e =>
    cases e with
    | divisionByZero => exact .inr (.inr ⟨by simp only [Cell.calculate, hexact], rfl⟩)
    | overflow => exact absurd hexact (op.exact_ne_overflow _ _)
  | ok value =>
    cases hcell : Cell.ofInt? value with
    | some c =>
      obtain rfl := Cell.ofInt?_eq_some_iff.1 hcell
      exact .inl ⟨c, by simp only [Cell.calculate, hexact, hcell], rfl⟩
    | none =>
      exact .inr (.inl ⟨value, by simp only [Cell.calculate, hexact, hcell], rfl,
        Cell.ofInt?_eq_none_iff.1 hcell⟩)

theorem Cell.calculate_overflow_iff {op : Operator} {left right : Cell} :
    Cell.calculate op left right = .error .overflow
      ↔ ∃ value, op.exact left.val right.val = .ok value ∧ OutOfRange value := by
  rcases Cell.calculate_cases op left right with ⟨c, hc, he⟩ | ⟨value, hc, he, hout⟩ | ⟨hc, he⟩
  · simp [hc, he, c.not_outOfRange]
  · simp [hc, he, hout]
  · simp [hc, he]

theorem Cell.calculate_divisionByZero_iff {op : Operator} {left right : Cell} :
    Cell.calculate op left right = .error .divisionByZero ↔ op = .div ∧ right.val = 0 := by
  rw [← @Operator.exact_eq_divisionByZero_iff op left.val right.val]
  rcases Cell.calculate_cases op left right with ⟨c, hc, he⟩ | ⟨value, hc, he, -⟩ | ⟨hc, he⟩ <;>
    simp [hc, he]

/-- The one quotient of cells that is no cell is that of the lowest by minus one. -/
theorem outOfRange_quotient_iff {left right : Cell} {value : Int}
    (h : Operator.div.exact left.val right.val = .ok value) :
    OutOfRange value ↔ left.val = -2147483648 ∧ right.val = -1 := by
  have hlower := left.lower
  have hupper := left.upper
  have hquotient : right.val ≠ 0 ∧ left.val.tdiv right.val = value := by
    by_cases hzero : right.val = 0
    · simp [Operator.exact, hzero] at h
    · exact ⟨hzero, by simpa [Operator.exact, hzero] using h⟩
  obtain ⟨hzero, rfl⟩ := hquotient
  constructor
  · intro hout
    -- Divisors from two on at least halve the size, which leaves one and minus one.
    have hone : right.val.natAbs = 1 := by
      by_contra hne
      have hsize : (left.val.tdiv right.val).natAbs = left.val.natAbs / right.val.natAbs :=
        Int.natAbs_tdiv ..
      have hhalf : left.val.natAbs / right.val.natAbs ≤ left.val.natAbs / 2 :=
        Nat.div_le_div_left (by omega) (by decide)
      rcases hout with hout | hout <;> omega
    have hunit : right.val = 1 ∨ right.val = -1 := by omega
    rcases hunit with hpos | hneg
    · rw [hpos, Int.tdiv_one] at hout
      exact absurd hout left.not_outOfRange
    · rw [hneg, Int.tdiv_neg, Int.tdiv_one] at hout
      rcases hout with hout | hout <;> omega
  · rintro ⟨hleft, hright⟩
    rw [hleft, hright]
    exact .inr (by decide)

/-! ## Operations -/

/-- The token is an operator and finds both operands. -/
structure Session.Performs (s : Session α) (token : Token) (op : Operator) (left right : α) :
    Prop where
  mode : s.mode = .interpreting
  free : s.dictionary.get? token = none
  token_eq : token = (Keyword.operator op).text
  operands : ∃ rest, s.stack = right :: left :: rest

/-- The next token of the run is an operator and finds both operands. -/
def Run.Performs (r : Run α) (op : Operator) (left right : α) : Prop :=
  ∃ token rest, r.pending = token :: rest ∧ r.session.Performs token op left right

namespace Session

variable [Arithmetic α] {s : Session α} {token : Token} {op : Operator} {left right : α}

theorem dispatch_operator (hmode : s.mode = .interpreting)
    (hfree : s.dictionary.get? (Keyword.operator op).text = none) :
    s.dispatch (Keyword.operator op).text = s.calculate op :=
  dispatch_keyword hmode (.operator op) hfree

theorem Performs.dispatch_failure (h : s.Performs token op left right) {e : ArithmeticError}
    (he : Arithmetic.calculate op left right = .error e) :
    s.dispatch token = .failure (.arithmetic e) := by
  obtain ⟨hmode, hfree, rfl, rest, hstack⟩ := h
  rw [dispatch_operator hmode hfree]
  simp only [calculate, hstack, he]

/-- An operator that has no result found both operands. -/
theorem operands_of_calculate {e : ArithmeticError}
    (h : s.calculate op = .failure (.arithmetic e)) :
    ∃ left right rest, s.stack = right :: left :: rest
      ∧ Arithmetic.calculate op left right = .error e := by
  unfold calculate at h
  split at h
  · rename_i right left rest hstack
    split at h
    · cases h
    · rename_i e' he
      cases h
      exact ⟨left, right, rest, hstack, he⟩
  · cases h

/-- Of the keywords only operators fail for an arithmetic cause. -/
theorem operator_of_execute {k : Keyword} {e : ArithmeticError}
    (h : s.execute k = .failure (.arithmetic e)) : ∃ op, k = .operator op := by
  cases k with
  | operator op => exact ⟨op, rfl⟩
  | shuffle move =>
    simp only [execute] at h
    split at h <;> cases h
  | openDefinition => cases h
  | closeDefinition => cases h

/-- The tokens that fail for an arithmetic cause are operators that find both operands and
have no result on them. -/
theorem dispatch_arithmetic_iff {e : ArithmeticError} :
    s.dispatch token = .failure (.arithmetic e)
      ↔ ∃ op left right, s.Performs token op left right
        ∧ Arithmetic.calculate op left right = .error e := by
  constructor
  · intro h
    obtain ⟨hmode, hfree⟩ : s.mode = .interpreting ∧ s.dictionary.get? token = none := by
      cases becomes_of_dispatch h with
      | failed hmode hfree _ => exact ⟨hmode, hfree⟩
    have hkeyword : ∃ k, token = Keyword.text k ∧ s.execute k = .failure (.arithmetic e) := by
      simp only [dispatch, hmode, interpret, hfree] at h
      split at h
      · cases h
      · split at h
        · exact ⟨_, Keyword.ofToken?_eq_some_iff.1 ‹_›, h⟩
        · cases h
    obtain ⟨k, rfl, hk⟩ := hkeyword
    obtain ⟨op, rfl⟩ := operator_of_execute hk
    obtain ⟨left, right, rest, hstack, he⟩ := operands_of_calculate hk
    exact ⟨op, left, right, ⟨hmode, hfree, rfl, rest, hstack⟩, he⟩
  · rintro ⟨op, left, right, hperforms, he⟩
    exact hperforms.dispatch_failure he

end Session

namespace Run

variable [Arithmetic α] {r : Run α} {steps : Nat} {e : ArithmeticError}

theorem failsBy_arithmetic_iff :
    r.advance.FailsBy (· = .arithmetic e)
      ↔ ∃ op left right, r.Performs op left right
        ∧ Arithmetic.calculate op left right = .error e := by
  constructor
  · rintro ⟨o, hend, _, herror, rfl⟩
    have hfailing : ∃ token rest, r.pending = token :: rest
        ∧ r.session.dispatch token = .failure (.arithmetic e) := by
      rcases advance_ended hend with ⟨-, rfl⟩ | ⟨token, rest, cause, hp, -, herror', hd | hlimit⟩
      · cases herror
      · obtain rfl : cause = .arithmetic e := Option.some.inj (herror'.symm.trans herror)
        exact ⟨token, rest, hp, hd⟩
      · obtain ⟨_, _, -, -, -, rfl⟩ := hlimit
        cases herror'.symm.trans herror
    obtain ⟨token, rest, hp, hd⟩ := hfailing
    obtain ⟨op, left, right, hperforms, he⟩ := Session.dispatch_arithmetic_iff.1 hd
    exact ⟨op, left, right, ⟨token, rest, hp, hperforms⟩, he⟩
  · rintro ⟨op, left, right, ⟨token, rest, hp, hperforms⟩, he⟩
    exact failsBy_of_dispatch hp ⟨_, hperforms.dispatch_failure he, rfl⟩

/-- A run fails for an arithmetic cause if and only if it comes to an operator that finds both
operands and has no result on them. -/
theorem failsWithin_arithmetic_iff :
    r.FailsWithin (· = .arithmetic e) steps
      ↔ ∃ a ∈ r.trail steps, ∃ op left right, a.Performs op left right
        ∧ Arithmetic.calculate op left right = .error e := by
  simp only [failsWithin_iff_trail, failsBy_arithmetic_iff]

end Run

/-! ## The same session on integers -/

/-- The session with its cells as integers. -/
def Session.exact (s : Session Cell) : Session Int :=
  ⟨s.dictionary, s.stack.map Cell.val, s.mode, s.settings⟩

/-- Two outcomes that say the same, the second of them in integers, which are all in range. -/
structure Outcome.Exact (o : Outcome Cell) (o' : Outcome Int) : Prop where
  error : o'.error = o.error
  expansions : o'.expansions = o.expansions
  session : o'.session = o.session.exact
  inRange : ∀ value ∈ o'.session.stack, ¬ OutOfRange value

/-- Cells and the same integers have corresponding results, unless the cells overflow. -/
theorem Operator.result_exact (op : Operator) (left right : Cell) :
    EffectsAgree (fun (c : Cell) (i : Int) => i = c.val)
      (fun cause => cause = .arithmetic .overflow) (fun _ => False)
      (op.result left right) (op.result left.val right.val) := by
  have hcell : op.result left right = (Cell.calculate op left right).mapError .arithmetic := rfl
  have hint : op.result left.val right.val
      = (op.exact left.val right.val).mapError .arithmetic := rfl
  rw [hcell, hint]
  rcases Cell.calculate_cases op left right with ⟨c, hc, he⟩ | ⟨value, hc, he, -⟩ | ⟨hc, he⟩
  · rw [hc, he]
    rfl
  · rw [hc, he]
    rfl
  · rw [hc, he]
    exact .inl rfl

namespace Coupling

/-- Cells and the same integers, up to an overflow of the cells. -/
def exact : Coupling Cell Int :=
  (pointwise (fun (c : Cell) (i : Int) => i = c.val)
    (fun cause => cause = .arithmetic .overflow) (fun _ => False) (fun _ => rfl)
    fun op left right _ _ hleft hright => by
      subst hleft hright
      exact op.result_exact left right).rephrase (fun xs ys => ys = xs.map Cell.val)
    fun xs ys => by
      rw [← List.forall₂_eq_eq_eq, List.forall₂_map_right_iff]
      exact ⟨List.Forall₂.flip, List.Forall₂.flip⟩

theorem alike_exact (s : Session Cell) : s.Alike exact.matched s.exact :=
  ⟨rfl, rfl, rfl, rfl⟩

theorem exact_of_alike {o : Outcome Cell} {o' : Outcome Int}
    (h : o.Alike exact.matched o') : o.Exact o' := by
  have hsession : o'.session = o.session.exact := by
    by_cases hok : o.error = none
    · have hs := h.ok hok
      rw [hs.eq, show o'.session.stack = _ from hs.stack]
      rfl
    · have hs := h.failed hok
      rw [hs.eq, hs.stack.2, Session.exact, hs.stack.1]
      rfl
  refine ⟨h.error, h.expansions, hsession, fun value hvalue => ?_⟩
  rw [hsession] at hvalue
  obtain ⟨c, -, rfl⟩ := List.mem_map.1 hvalue
  exact c.not_outOfRange

/-- The side of the integers never ends the comparison. -/
theorem not_failsWithin_exact (r : Run Int) (steps : Nat) :
    ¬ r.FailsWithin exact.stopsRight steps :=
  fun ⟨_, _, _, _, hfalse⟩ => hfalse

/-- Corresponding runs perform the same operation. -/
theorem performs_exact_iff {a : Run Cell} {a' : Run Int} (h : exact.lockstep.Runs a a')
    {op : Operator} {left right : Int} :
    a'.Performs op left right
      ↔ ∃ left' right' : Cell, a.Performs op left' right' ∧ left'.val = left
        ∧ right'.val = right := by
  have hpending : a.pending = a'.pending := by
    have hall : List.Forall₂ Eq a.pending a'.pending := h.pending
    rwa [List.forall₂_eq_eq_eq] at hall
  have hs : a.session.Alike exact.matched a'.session := h.session
  have hstack : a'.session.stack = a.session.stack.map Cell.val := hs.stack
  constructor
  · rintro ⟨token, rest, hp, hmode, hfree, htoken, below, hoperands⟩
    obtain ⟨right', tail, hright, rfl, htail⟩ :=
      List.map_eq_cons_iff.1 (hstack.symm.trans hoperands)
    obtain ⟨left', below', rfl, rfl, -⟩ := List.map_eq_cons_iff.1 htail
    exact ⟨left', right', ⟨token, rest, hpending.trans hp, hs.mode ▸ hmode, hs.dictionary ▸ hfree,
      htoken, below', hright⟩, rfl, rfl⟩
  · rintro ⟨left', right', ⟨token, rest, hp, hmode, hfree, htoken, below, hoperands⟩, rfl, rfl⟩
    exact ⟨token, rest, hpending ▸ hp, hs.mode ▸ hmode, hs.dictionary ▸ hfree, htoken,
      below.map Cell.val, by rw [hstack, hoperands]; rfl⟩

end Coupling

namespace Session

/-- A token that does not overflow leads to the same on integers. -/
theorem evalToken_exact {s : Session Cell} {token : Token} {patience : Nat}
    (hrange : ∀ o, s.evalToken patience token = some o →
      o.error ≠ some (.arithmetic .overflow)) :
    Option.Rel Outcome.Exact (s.evalToken patience token)
      (s.exact.evalToken patience token) := by
  refine rel_mono (fun _ _ => Coupling.exact_of_alike)
    (Coupling.evalToken (Coupling.alike_exact s) ?_ fun o ho ⟨_, _, hfalse⟩ => hfalse)
  rintro o ho ⟨cause, herror, rfl⟩
  exact hrange o ho herror

/-- A sequence of tokens of which none overflows leads to the same on integers. -/
theorem answers_exact {s : Session Cell} {tokens : List Token} {patience : Nat}
    (hrange : ∀ before, before <+: tokens → ∀ outcomes,
      s.answers patience (before.map .token) = some outcomes →
        ∀ o ∈ outcomes, o.error ≠ some (.arithmetic .overflow)) :
    Option.Rel (List.Forall₂ Outcome.Exact) (s.answers patience (tokens.map .token))
      (s.exact.answers patience (tokens.map .token)) := by
  induction tokens generalizing s with
  | nil => exact .some .nil
  | cons token rest ih =>
    have hcons : ∀ {β : Type} [Arithmetic β] (s : Session β) (tokens : List Token),
        s.answers patience ((token :: tokens).map .token)
          = (s.evalToken patience token).bind fun o =>
              (o.session.answers patience (tokens.map .token)).map (o :: ·) := fun _ _ => rfl
    have hfirst : Option.Rel Outcome.Exact (s.evalToken patience token)
        (s.exact.evalToken patience token) := by
      refine evalToken_exact fun o ho => hrange [token] ⟨rest, rfl⟩ [o] ?_ o List.mem_cons_self
      rw [hcons, ho]
      rfl
    rw [hcons, hcons]
    refine rel_bind hfirst fun o o' heval hexact => ?_
    rw [hexact.session]
    refine rel_map (ih fun before hpre outcomes houtcomes other hother => ?_)
      fun _ _ hall => .cons hexact hall
    refine hrange (token :: before) ((List.prefix_cons_inj token).2 hpre) (o :: outcomes) ?_
      other (List.mem_cons_of_mem _ hother)
    rw [hcons, heval, Option.bind_some, houtcomes]
    rfl

/-- The session on cells overflows where the session on integers comes to a result that is no
cell. -/
theorem overflow_iff (s : Session Cell) (token : Token) (steps : Nat) :
    (Run.start s token).FailsWithin (· = .arithmetic .overflow) steps
      ↔ ∃ a ∈ (Run.start s.exact token).trail steps, ∃ op left right value,
          a.Performs op left right ∧ op.exact left right = .ok value ∧ OutOfRange value := by
  have hstart : Coupling.exact.lockstep.Runs (Run.start s token) (Run.start s.exact token) :=
    Lockstep.runs_start (Coupling.alike_exact s) rfl
  constructor
  · intro hfails
    obtain ⟨a, -, a', ha', hruns, hoverflow⟩ :=
      Lockstep.exists_stop hstart hfails (Coupling.not_failsWithin_exact _)
    obtain ⟨op, left, right, hperforms, hcell⟩ := Run.failsBy_arithmetic_iff.1 hoverflow
    obtain ⟨value, hvalue, hout⟩ := Cell.calculate_overflow_iff.1 hcell
    exact ⟨a', ha', op, left.val, right.val, value,
      (Coupling.performs_exact_iff hruns).2 ⟨left, right, hperforms, rfl, rfl⟩, hvalue, hout⟩
  · rintro ⟨a', ha', op, left, right, value, hperforms', hvalue, hout⟩
    -- Were there no overflow so far, the cells would be about to calculate the same.
    by_contra hfine
    obtain ⟨a, ha, hruns⟩ := Lockstep.exists_counterpart hstart hfine
      (Coupling.not_failsWithin_exact _ _) ha'
    obtain ⟨left, right, hperforms, rfl, rfl⟩ := (Coupling.performs_exact_iff hruns).1 hperforms'
    exact hfine (Run.failsWithin_arithmetic_iff.2
      ⟨a, ha, op, left, right, hperforms, Cell.calculate_overflow_iff.2 ⟨value, hvalue, hout⟩⟩)

/-- A division by zero is one that finds both operands, the divisor being zero. -/
theorem divisionByZero_iff (s : Session Cell) (token : Token) (steps : Nat) :
    (Run.start s token).FailsWithin (· = .arithmetic .divisionByZero) steps
      ↔ ∃ a ∈ (Run.start s token).trail steps, ∃ left right : Cell,
          a.Performs .div left right ∧ right.val = 0 := by
  rw [Run.failsWithin_arithmetic_iff]
  refine exists_congr fun a => and_congr_right fun _ => ?_
  constructor
  · rintro ⟨op, left, right, hperforms, hcell⟩
    obtain ⟨rfl, hzero⟩ := Cell.calculate_divisionByZero_iff.1 hcell
    exact ⟨left, right, hperforms, hzero⟩
  · rintro ⟨left, right, hperforms, hzero⟩
    exact ⟨.div, left, right, hperforms, Cell.calculate_divisionByZero_iff.2 ⟨rfl, hzero⟩⟩

/-- On integers nothing overflows. -/
theorem not_overflow_exact (s : Session Int) (token : Token) (steps : Nat) :
    ¬ (Run.start s token).FailsWithin (· = .arithmetic .overflow) steps := by
  rw [Run.failsWithin_arithmetic_iff]
  rintro ⟨_, _, op, left, right, -, hcell⟩
  exact op.exact_ne_overflow left right hcell

end Session

/-- **Cells refine the integers.** Feed tokens to a new session on cells and to one on integers.
As long as none overflows on the cells, each token returns on both sides or on neither, the
outcomes have the same error and the same number of expansions and leave the same session, and
all values are in range. A token overflows within a number of steps if and only if within that
number the same session on integers comes to an operation whose exact result is out of range;
so it is the first of these that overflows. Of the quotients only that of the lowest cell by
minus one is out of range. A division by zero is reported if and only if the run comes to a
division that finds both operands, of which the upper one is zero. -/
theorem cells_refine_integers :
    (∀ (settings : Settings) (patience : Nat) (tokens : List Token),
      (∀ before, before <+: tokens → ∀ outcomes,
        (Session.new settings : Session Cell).answers patience (before.map .token)
          = some outcomes → ∀ o ∈ outcomes, o.error ≠ some (.arithmetic .overflow)) →
      Option.Rel (List.Forall₂ Outcome.Exact)
        ((Session.new settings : Session Cell).answers patience (tokens.map .token))
        ((Session.new settings : Session Int).answers patience (tokens.map .token)))
    ∧ (∀ (s : Session Cell) (token : Token) (steps : Nat),
      ((Run.start s token).FailsWithin (· = .arithmetic .overflow) steps
        ↔ ∃ a ∈ (Run.start s.exact token).trail steps, ∃ op left right value,
            a.Performs op left right ∧ op.exact left right = .ok value ∧ OutOfRange value)
      ∧ ((Run.start s token).FailsWithin (· = .arithmetic .divisionByZero) steps
        ↔ ∃ a ∈ (Run.start s token).trail steps, ∃ left right : Cell,
            a.Performs .div left right ∧ right.val = 0))
    ∧ (∀ (s : Session Int) (token : Token) (steps : Nat),
      ¬ (Run.start s token).FailsWithin (· = .arithmetic .overflow) steps)
    ∧ ∀ (left right : Cell) (value : Int), Operator.div.exact left.val right.val = .ok value →
      (OutOfRange value ↔ left.val = -2147483648 ∧ right.val = -1) := by
  refine ⟨fun settings patience tokens hrange => ?_, fun s token steps => ⟨?_, ?_⟩, ?_, ?_⟩
  · exact Session.answers_exact hrange
  · exact s.overflow_iff token steps
  · exact s.divisionByZero_iff token steps
  · exact Session.not_overflow_exact
  · exact fun _ _ _ h => outOfRange_quotient_iff h

/-- Seven by minus two is minus three on both sides. The highest cell and one have no sum, and
the lowest has no quotient by zero, nor has it one by minus one. -/
theorem cells_refine_integers_seven :
    let s : Session Cell := Session.new .plain
    let zero : Cell := ⟨0, by decide, by decide⟩
    let one : Cell := ⟨1, by decide, by decide⟩
    let lowest : Cell := ⟨-2147483648, by decide, by decide⟩
    let highest : Cell := ⟨2147483647, by decide, by decide⟩
    (∃ outcomes', (Session.new .plain : Session Int).answers 2 (["7", "-2", "/"].map .token)
        = some outcomes'
      ∧ outcomes'.map (fun o => (o.error, o.session.stack))
        = [(none, [7]), (none, [-2, 7]), (none, [-3])])
    ∧ (Run.start { s with stack := [one, highest] } "+").FailsWithin
        (· = .arithmetic .overflow) 1
    ∧ (Run.start { s with stack := [zero, lowest] } "/").FailsWithin
        (· = .arithmetic .divisionByZero) 1
    ∧ OutOfRange 2147483648 := by
  intro s zero one lowest highest
  obtain ⟨hsequence, htoken, -, hquotient⟩ := cells_refine_integers
  refine ⟨?sequence, ?sum, ?quotient, ?range⟩
  case sequence =>
    obtain ⟨outcomes, hcells, hvalues⟩ : ∃ outcomes,
        s.answers 2 (["7", "-2", "/"].map .token) = some outcomes
          ∧ outcomes.map (fun o => (o.error, o.session.exact.stack))
            = [(none, [7]), (none, [-2, 7]), (none, [-3])] := ⟨_, rfl, rfl⟩
    have hexact := hsequence .plain 2 ["7", "-2", "/"] ?_
    · obtain ⟨outcomes', houtcomes', hall⟩ := exists_of_rel_some (hcells ▸ hexact)
      refine ⟨outcomes', houtcomes', Eq.trans ?_ hvalues⟩
      rw [← List.forall₂_eq_eq_eq, List.forall₂_map_left_iff, List.forall₂_map_right_iff]
      exact (List.Forall₂.flip hall).imp fun o' o h => by rw [h.error, h.session]
    · intro before hpre outcomes houtcomes o ho
      simp only [List.prefix_cons_iff, List.prefix_nil] at hpre
      rcases hpre with rfl | ⟨_, rfl, rfl | ⟨_, rfl, rfl | ⟨_, rfl, rfl⟩⟩⟩ <;>
      · cases houtcomes
        revert o ho
        decide
  case sum =>
    refine (htoken _ "+" 1).1.2 ⟨_, Run.mem_trail_self _ 0, .add, 2147483647, 1, 2147483648,
      ⟨"+", [], rfl, rfl, rfl, rfl, [], rfl⟩, rfl, .inr (by decide)⟩
  case quotient =>
    exact (htoken _ "/" 1).2.2 ⟨_, Run.mem_trail_self _ 0, lowest, zero,
      ⟨"/", [], rfl, rfl, rfl, rfl, [], rfl⟩, rfl⟩
  case range =>
    exact (hquotient lowest ⟨-1, by decide, by decide⟩ 2147483648 rfl).2 ⟨rfl, rfl⟩

end Concatenative
