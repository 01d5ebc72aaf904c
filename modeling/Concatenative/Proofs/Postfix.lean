/-
Expressions in postfix notation.

An arithmetic expression is written with its operands first, left before right, and its operator
behind them. Its tokens are then those of its subexpressions in the order in which a calculation
on paper would come to them (`Expression.postorder`), and evaluation does the same calculation,
with whatever is on the stack lying untouched below.

What the calculation on paper is, is said on integers (`Expression.value`), where a divisor of
zero is the only obstacle. Cells have a range besides, so an expression may have a value on paper
and none in a session, and of several subexpressions that have none it is the first that counts.
The work is in `Session.settles_or_stopsAt`, an induction on the expression: either every
subexpression has a value that is a cell and the tokens are dealt with, or there is a first one
that has not, and the tokens are dealt with up to its operator, which fails.
-/
import Concatenative.Proofs.Exactness
import Concatenative.Proofs.Settling

set_option autoImplicit false

namespace Concatenative

/-! ## Expressions -/

/-- An arithmetic expression. -/
inductive Expression where
  | literal (c : Cell)
  | apply (op : Operator) (left right : Expression)

namespace Expression

/-- The subexpressions, operands before what is calculated from them and the left one first. -/
def postorder : Expression → List Expression
  | literal c => [literal c]
  | apply op left right => left.postorder ++ right.postorder ++ [apply op left right]

/-- What is written for an expression behind its operands: its number or its operator. -/
def token : Expression → Token
  | literal c => c.text
  | apply op _ _ => (Keyword.operator op).text

/-- The expression in postfix notation. -/
def tokens (e : Expression) : List Token :=
  e.postorder.map token

/-- The value of an expression, or why it has none. The integers have no range to leave. -/
def value : Expression → Except ArithmeticError Int
  | literal c => .ok c.val
  | apply op left right => do
    let x ← left.value
    let y ← right.value
    op.exact x y

/-- The expression has a value, and the value is a cell. -/
def IsSound (e : Expression) : Prop :=
  ∃ c : Cell, e.value = .ok c.val

instance : DecidablePred IsSound := fun e =>
  match h : e.value with
  | .ok v =>
    if hrange : -2147483648 ≤ v ∧ v ≤ 2147483647 then
      isTrue ⟨⟨v, hrange.1, hrange.2⟩, h⟩
    else
      isFalse fun ⟨c, hc⟩ => hrange (by
        obtain rfl : v = c.val := Except.ok.inj (h.symm.trans hc)
        exact ⟨c.lower, c.upper⟩)
  | .error _ => isFalse fun ⟨_, hc⟩ => nomatch h.symm.trans hc

/-- Both operands have a value, and the operator has no result on them that is a cell. -/
inductive Faults : Expression → ArithmeticError → Prop
  | divisor {left right : Expression} {x : Int} (hleft : left.value = .ok x)
      (hright : right.value = .ok 0) : Faults (apply .div left right) .divisionByZero
  | range {op : Operator} {left right : Expression} {x y v : Int} (hleft : left.value = .ok x)
      (hright : right.value = .ok y) (hvalue : op.exact x y = .ok v) (hout : OutOfRange v) :
      Faults (apply op left right) .overflow

theorem value_apply {op : Operator} {left right : Expression} {x y : Int}
    (hleft : left.value = .ok x) (hright : right.value = .ok y) :
    (apply op left right).value = op.exact x y := by
  rw [value, hleft, hright]
  rfl

theorem tokens_apply (op : Operator) (left right : Expression) :
    (apply op left right).tokens
      = left.tokens ++ right.tokens ++ [(Keyword.operator op).text] := by
  simp only [tokens, postorder, List.map_append, List.map_cons, List.map_nil, token]

theorem tokens_eq_append {e node : Expression} {before after : List Expression}
    (h : e.postorder = before ++ node :: after) :
    e.tokens = before.map token ++ node.token :: after.map token := by
  rw [tokens, h, List.map_append, List.map_cons]

theorem Faults.not_isSound {e : Expression} {cause : ArithmeticError} (h : e.Faults cause) :
    ¬ e.IsSound := by
  rintro ⟨c, hc⟩
  cases h with
  | divisor hleft hright =>
    rw [value_apply hleft hright] at hc
    cases hc
  | range hleft hright hvalue hout =>
    rw [value_apply hleft hright, hvalue] at hc
    rw [Except.ok.inj hc] at hout
    exact c.not_outOfRange hout

end Expression

/-! ## Evaluation -/

open Expression

namespace Session

variable {s : Session Cell}

/-- The subexpressions in front are all sound and dealt with, and the next one fails. What has
changed by then is the stack and nothing else. -/
structure StopsAt (s : Session Cell) (before : List Expression) (node : Expression)
    (cause : ArithmeticError) : Prop where
  sound : ∀ other ∈ before, other.IsSound
  faults : node.Faults cause
  reached : ∃ stack, s.Settles (before.map token) { s with stack := stack }
    ∧ dispatch { s with stack := stack } node.token = .failure (.arithmetic cause)

/-- Sound subexpressions that are dealt with can stand in front. -/
theorem StopsAt.behind {first before : List Expression} {node : Expression}
    {cause : ArithmeticError} {stack : List Cell} (hsound : ∀ other ∈ first, other.IsSound)
    (hfirst : s.Settles (first.map token) { s with stack := stack })
    (h : StopsAt { s with stack := stack } before node cause) :
    s.StopsAt (first ++ before) node cause := by
  obtain ⟨hbefore, hfaults, stack', hsettles, hfails⟩ := h
  refine ⟨List.forall_mem_append.2 ⟨hsound, hbefore⟩, hfaults, stack', ?_, hfails⟩
  rw [List.map_append]
  exact hfirst.trans hsettles

/-- An operator that finds the values of its operands puts the value of the expression in their
place, or fails for what is wrong with the expression. -/
theorem dispatch_apply {op : Operator} {left right : Expression} {x y : Cell}
    {rest : List Cell} (hmode : s.mode = .interpreting)
    (hfree : s.dictionary.get? (Keyword.operator op).text = none)
    (hstack : s.stack = y :: x :: rest) (hleft : left.value = .ok x.val)
    (hright : right.value = .ok y.val) :
    (∃ c : Cell, (apply op left right).value = .ok c.val
        ∧ s.dispatch (Keyword.operator op).text = .settled { s with stack := c :: rest } [])
      ∨ ∃ cause, (apply op left right).Faults cause
        ∧ s.dispatch (Keyword.operator op).text = .failure (.arithmetic cause) := by
  have hperforms : s.Performs (Keyword.operator op).text op x y :=
    ⟨hmode, hfree, rfl, rest, hstack⟩
  rcases Cell.calculate_cases op x y with ⟨c, hc, he⟩ | ⟨v, hc, he, hout⟩ | ⟨hc, he⟩
  · refine .inl ⟨c, (value_apply hleft hright).trans he, ?_⟩
    have hvalue : Arithmetic.calculate op x y = .ok c := hc
    rw [dispatch_operator hmode hfree]
    simp only [calculate, hstack, hvalue]
  · exact .inr ⟨.overflow, .range hleft hright he hout, hperforms.dispatch_failure hc⟩
  · obtain ⟨rfl, hzero⟩ := Operator.exact_eq_divisionByZero_iff.1 he
    rw [hzero] at hright
    exact .inr ⟨.divisionByZero, .divisor hleft hright, hperforms.dispatch_failure hc⟩

/-- **Evaluation in one pass.** Either all subexpressions are sound, and the tokens are dealt with
and put the value of the expression on the stack, or one is the first that is not, and its
operator fails. The induction is on the expression and for every stack, since the right operand
finds the value of the left one there. -/
theorem settles_or_stopsAt (e : Expression) (hmode : s.mode = .interpreting)
    (hfree : ∀ token ∈ e.tokens, s.dictionary.get? token = none) :
    ((∀ node ∈ e.postorder, node.IsSound)
        ∧ ∃ c : Cell, e.value = .ok c.val
          ∧ s.Settles e.tokens { s with stack := c :: s.stack })
      ∨ ∃ before node after cause, e.postorder = before ++ node :: after
        ∧ s.StopsAt before node cause := by
  induction e generalizing s with
  | literal c =>
    refine .inl ⟨List.forall_mem_singleton.2 ⟨c, rfl⟩, c, rfl, ?_⟩
    exact .cons (dispatch_number hmode (hfree c.text List.mem_cons_self)) .nil
  | apply op left right ihleft ihright =>
    rw [tokens_apply, List.forall_mem_append, List.forall_mem_append,
      List.forall_mem_singleton] at hfree
    obtain ⟨⟨hfreeleft, hfreeright⟩, hfreeop⟩ := hfree
    rcases ihleft hmode hfreeleft with
      ⟨hsound, x, hx, hleft⟩ | ⟨before, node, after, cause, hpost, hstop⟩
    · have hright := ihright (s := { s with stack := x :: s.stack }) hmode hfreeright
      rcases hright with ⟨hsound', y, hy, hright⟩ | ⟨before, node, after, cause, hpost, hstop⟩
      · -- Both operands are there, so it is up to the operator.
        have hoperands : s.Settles ((left.postorder ++ right.postorder).map token)
            { s with stack := y :: x :: s.stack } := by
          rw [List.map_append]
          exact hleft.trans hright
        have hboth := List.forall_mem_append.2 ⟨hsound, hsound'⟩
        have hoperator := dispatch_apply (s := { s with stack := y :: x :: s.stack }) hmode hfreeop
          rfl hx hy
        rcases hoperator with ⟨c, hc, hd⟩ | ⟨cause, hfaults, hd⟩
        · refine .inl ⟨?_, c, hc, ?_⟩
          · exact List.forall_mem_append.2 ⟨hboth, List.forall_mem_singleton.2 ⟨c, hc⟩⟩
          · rw [tokens_apply]
            exact (hleft.trans hright).trans (.cons hd .nil)
        · exact .inr ⟨_, _, [], cause, rfl, hboth, hfaults, _, hoperands, hd⟩
      · -- All of the left operand stands in front of what fails in the right one.
        refine .inr ⟨left.postorder ++ before, node, after ++ [apply op left right], cause, ?_,
          hstop.behind hsound hleft⟩
        simp only [postorder, hpost, List.append_assoc, List.cons_append]
    · -- The right operand is not reached, whatever may be wrong with it.
      refine .inr ⟨before, node, after ++ right.postorder ++ [apply op left right], cause, ?_,
        hstop⟩
      simp only [postorder, hpost, List.append_assoc, List.cons_append]

/-- Up to the operator that fails there is no failure, and what stands behind it is not reached. -/
theorem StopsAt.feed {before : List Expression} {node : Expression} {cause : ArithmeticError}
    (h : s.StopsAt before node cause) (rest : List Token) (patience : Nat) :
    (∃ stack, (∃ log, s.feed (patience + 2) (before.map token)
          = some ⟨{ s with stack := stack }, none, 0, log⟩)
        ∧ ∃ log, evalToken (patience + 2) { s with stack := stack } node.token
          = some ⟨s.cleared, some (.arithmetic cause), 0, log⟩)
      ∧ ∃ log, s.feed (patience + 2) (before.map token ++ node.token :: rest)
        = some ⟨s.cleared, some (.arithmetic cause), 0, log⟩ := by
  obtain ⟨stack, hsettles, hfails⟩ := h.reached
  have hlast := evalToken_failure hfails (patience + 1)
  refine ⟨⟨stack, hsettles.feed patience, _, hlast⟩, ?_⟩
  obtain ⟨log, hlog⟩ := hsettles.feed_append (node.token :: rest) patience
  rw [feed_cons_iff.2 ⟨_, hlast, .inl ⟨Option.some_ne_none _, rfl⟩⟩] at hlog
  exact ⟨_, hlog⟩

/-- An expression fails for an arithmetic cause or not at all. -/
theorem error_of_feed {e : Expression} (hmode : s.mode = .interpreting)
    (hfree : ∀ token ∈ e.tokens, s.dictionary.get? token = none) {patience : Nat}
    {o : Outcome Cell} (ho : s.feed patience e.tokens = some o) :
    o.error = none ∨ ∃ cause, o.error = some (.arithmetic cause) := by
  have hmore := feed_mono ho (Nat.le_add_right patience 2)
  rcases settles_or_stopsAt e hmode hfree with
    ⟨-, c, -, hsettles⟩ | ⟨before, node, after, cause, hpost, hstop⟩
  · obtain ⟨log, hlog⟩ := hsettles.feed patience
    rw [← Option.some.inj (hlog.symm.trans hmore)]
    exact .inl rfl
  · obtain ⟨-, log, hlog⟩ := hstop.feed (after.map token) patience
    rw [← tokens_eq_append hpost] at hlog
    rw [← Option.some.inj (hlog.symm.trans hmore)]
    exact .inr ⟨cause, rfl⟩

end Session

/-- **An expression in postfix notation is evaluated to its value.** Take a session in which no
definition is open and no token of the expression is a user word, with any settings and any
stack. If every subexpression has a value that is a cell, no token fails, and the value of the
expression is on top of the stack, with everything else as it was. If not, evaluation stops at an
operator, with no failure before it. It belongs to the first subexpression, in the order of
evaluation, whose divisor is zero or whose result is no cell, the failure says which of the two it
is, and the stack is empty. So the expression finds what it needs on the stack, and every token of
it is known. -/
theorem postfix_evaluates {s : Session Cell} (hmode : s.mode = .interpreting) {e : Expression}
    (hfree : ∀ token ∈ e.tokens, s.dictionary.get? token = none) :
    ((∀ node ∈ e.postorder, node.IsSound) →
      ∃ c : Cell, e.value = .ok c.val ∧ ∀ patience, ∃ log,
        s.feed (patience + 2) e.tokens = some ⟨{ s with stack := c :: s.stack }, none, 0, log⟩)
    ∧ ((¬ ∀ node ∈ e.postorder, node.IsSound) →
      ∃ before node after cause, e.postorder = before ++ node :: after
        ∧ (∀ other ∈ before, other.IsSound) ∧ node.Faults cause ∧ ∀ patience,
          (∃ stack, (∃ log, s.feed (patience + 2) (before.map token)
              = some ⟨{ s with stack := stack }, none, 0, log⟩)
            ∧ ∃ log, Session.evalToken (patience + 2) { s with stack := stack } node.token
              = some ⟨s.cleared, some (.arithmetic cause), 0, log⟩)
          ∧ ∃ log, s.feed (patience + 2) e.tokens
            = some ⟨s.cleared, some (.arithmetic cause), 0, log⟩)
    ∧ ∀ patience o, s.feed patience e.tokens = some o →
      o.error ≠ some .stackUnderflow ∧ ∀ token, o.error ≠ some (.unknownToken token) := by
  refine ⟨fun hsound => ?value, fun hunsound => ?stop, ?known⟩
  case value =>
    rcases Session.settles_or_stopsAt e hmode hfree with
      ⟨-, c, hc, hsettles⟩ | ⟨before, node, after, cause, hpost, hstop⟩
    · exact ⟨c, hc, hsettles.feed⟩
    · have hnode : node ∈ e.postorder := by
        rw [hpost]
        exact List.mem_append_right _ List.mem_cons_self
      exact absurd (hsound node hnode) hstop.faults.not_isSound
  case stop =>
    rcases Session.settles_or_stopsAt e hmode hfree with
      ⟨hsound, -⟩ | ⟨before, node, after, cause, hpost, hstop⟩
    · exact absurd hsound hunsound
    · refine ⟨before, node, after, cause, hpost, hstop.sound, hstop.faults, ?_⟩
      rw [tokens_eq_append hpost]
      exact hstop.feed (after.map token)
  case known =>
    intro patience o ho
    rcases Session.error_of_feed hmode hfree ho with herror | ⟨cause, herror⟩
    · rw [herror]
      exact ⟨nofun, nofun⟩
    · rw [herror]
      exact ⟨nofun, nofun⟩

/-- On a stack that is not empty, `(-1 - 2) / 2` is minus one; and of the two divisions in
`(2 * (lowest / -1)) / (2 / 0)` that have no result it is the one on the left that is reported. -/
theorem postfix_evaluates_competing :
    let zero : Cell := ⟨0, by decide, by decide⟩
    let two : Cell := ⟨2, by decide, by decide⟩
    let minusOne : Cell := ⟨-1, by decide, by decide⟩
    let lowest : Cell := ⟨-2147483648, by decide, by decide⟩
    let s : Session Cell := ⟨.empty, [zero], .interpreting, .plain⟩
    let sound := apply .div (apply .sub (literal minusOne) (literal two)) (literal two)
    let faulty := apply .div
      (apply .mul (literal two) (apply .div (literal lowest) (literal minusOne)))
      (apply .div (literal two) (literal zero))
    (∃ log, s.feed 2 sound.tokens
        = some ⟨{ s with stack := [minusOne, zero] }, none, 0, log⟩)
      ∧ ∃ log, s.feed 2 faulty.tokens = some ⟨s.cleared, some (.arithmetic .overflow), 0, log⟩ := by
  intro zero two minusOne lowest s sound faulty
  obtain ⟨value, -, -⟩ := postfix_evaluates (s := s) rfl (e := sound) fun _ _ => rfl
  obtain ⟨-, stop, -⟩ := postfix_evaluates (s := s) rfl (e := faulty) fun _ _ => rfl
  constructor
  · obtain ⟨c, hc, hfeed⟩ := value (by decide)
    have hminus : c = minusOne := Cell.ext (Except.ok.inj hc).symm
    rw [← hminus]
    exact hfeed 0
  · obtain ⟨_, _, _, cause, -, -, -, hstop⟩ := stop (by decide)
    obtain ⟨-, log, hfeed⟩ := hstop 0
    have herror : (s.feed 2 faulty.tokens).map Outcome.error
        = some (some (.arithmetic .overflow)) := by
      decide +kernel
    rw [hfeed] at herror
    obtain rfl : cause = .overflow := by
      cases herror
      rfl
    exact ⟨log, hfeed⟩

end Concatenative
