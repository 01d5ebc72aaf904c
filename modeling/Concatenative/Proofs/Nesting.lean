/-
Expansions inside expansions.

The list of pending tokens does not tell where a token comes from. `Session.Traces` keeps
that: beside every pending token it has the user words in whose expansions the token
stands, innermost first. It follows a run step by step, so that every state of a run has
such a trace (`Session.exists_traces`), and it only writes down what the run forgets.

Suppose that no word is expanded inside an expansion of itself. Then the words around a
token are all different, and there are no more of them than the dictionary has words. So
the expansions are the nodes of a tree that is as high as the dictionary is long and
branches as the longest body does. The run does not have that tree, only its list, and so
it is counted there: every pending token stands for the expansions it can still lead to
at its depth (`Dictionary.weight`), and an expansion spends one of them and hands the others
on to the tokens of the body. What has been expanded and what is still to come never adds
up to more than it did at the beginning (`Session.Traces.expansions_add_weight_le`).

A dictionary without cycles is the plain case in which no word can come to stand inside
itself, and then every evaluation ends. A call that succeeds is the other case, see
`Concatenative.Proofs.Repetition`.
-/
import Concatenative.Proofs.Termination
import Mathlib.Algebra.Order.Ring.GeomSum
import Mathlib.Data.List.Perm.Subperm

set_option autoImplicit false

namespace Concatenative

variable {α : Type}

/-! ## Where pending tokens come from -/

/-- A pending token and where it comes from. -/
structure Occurrence where
  token : Token
  /-- The user words in whose expansions the token stands, innermost first. -/
  within : List Token

/-- The tokens of a body that takes the place of a user word. -/
def Occurrence.inside (word : Occurrence) (body : List Token) : List Occurrence :=
  body.map fun token => ⟨token, word.token :: word.within⟩

/-- What is pending in a state of the run that evaluates `token`. -/
inductive Session.Traces [Arithmetic α] (s : Session α) (token : Token) :
    Run α → List Occurrence → Prop
  | start : Traces s token (.start s token) [⟨token, []⟩]
  | settled {r r' : Run α} {first : Occurrence} {rest : List Occurrence} {s' : Session α}
      {news : List (Record α)} (h : Traces s token r (first :: rest))
      (hd : r.session.dispatch first.token = .settled s' news) (hadv : r.advance = .running r') :
      Traces s token r' rest
  | expanded {r r' : Run α} {first : Occurrence} {rest : List Occurrence} {body : List Token}
      (h : Traces s token r (first :: rest))
      (hd : r.session.dispatch first.token = .expansion body) (hadv : r.advance = .running r') :
      Traces s token r' (first.inside body ++ rest)

/-- In the evaluation of `token` no word is expanded inside an expansion of itself. -/
def Session.NeverReenters [Arithmetic α] (s : Session α) (token : Token) : Prop :=
  ∀ r first rest body, s.Traces token r (first :: rest) →
    r.session.dispatch first.token = .expansion body → first.token ∉ first.within

namespace Session

variable [Arithmetic α] {s : Session α} {token : Token}

theorem Traces.reaches {r : Run α} {pending : List Occurrence} (h : s.Traces token r pending) :
    (Run.start s token).Reaches r := by
  induction h with
  | start => exact .refl
  | settled _ _ hadv ih => exact ih.tail hadv
  | expanded _ _ hadv ih => exact ih.tail hadv

theorem Traces.pending_eq {r : Run α} {pending : List Occurrence} (h : s.Traces token r pending) :
    r.pending = pending.map Occurrence.token := by
  induction h with
  | start => rfl
  | settled _ hd hadv ih => exact (Run.running_of_settled ih hd hadv).2.1
  | @expanded r r' first rest body _ hd hadv ih =>
    obtain ⟨-, hbody, -⟩ := Run.running_of_expansion ih hd hadv
    rw [hbody, List.map_append, Occurrence.inside, List.map_map]
    congr 1
    exact (List.map_id body).symm

/-- A run can be traced wherever it comes. -/
theorem exists_traces {r : Run α} (h : (Run.start s token).Reaches r) :
    ∃ pending, s.Traces token r pending := by
  induction h with
  | refl => exact ⟨_, .start⟩
  | @tail r r' _ hnext ih =>
    obtain ⟨pending, htraces⟩ := ih
    obtain ⟨_, _, hp, hcases⟩ := Run.advance_running hnext
    cases pending with
    | nil =>
      rw [htraces.pending_eq] at hp
      cases hp
    | cons first rest =>
      obtain ⟨rfl, -⟩ := List.cons.inj (htraces.pending_eq.symm.trans hp)
      rcases hcases with ⟨news, hd, -⟩ | ⟨body, hd, -⟩
      · exact ⟨rest, .settled htraces hd hnext⟩
      · exact ⟨_, .expanded htraces hd hnext⟩

/-- As long as something is pending, the dictionary is that from before the call. -/
theorem Traces.dictionary_eq (hs : s.dictionary.ClosingFree) {r : Run α} {first : Occurrence}
    {rest : List Occurrence} (h : s.Traces token r (first :: rest)) :
    r.session.dictionary = s.dictionary := by
  refine Run.dictionary_eq_of_pending hs h.reaches ?_
  rw [h.pending_eq]
  exact List.cons_ne_nil _ _

/-- A user word stands for what it stood for before the call. -/
theorem Traces.get?_of_expansion (hs : s.dictionary.ClosingFree) {r : Run α} {first : Occurrence}
    {rest : List Occurrence} {body : List Token} (h : s.Traces token r (first :: rest))
    (hd : r.session.dispatch first.token = .expansion body) :
    s.dictionary.get? first.token = some body := by
  cases becomes_of_dispatch hd with
  | expanded _ hget => rw [← h.dictionary_eq hs, hget]

end Session

/-! ## Counting expansions -/

namespace Dictionary

/-- How many expansions a token can lead to that stands inside `depth` words, if these and
all words around one another are different. -/
def weight (d : Dictionary) (depth : Nat) : Nat :=
  ∑ i ∈ Finset.range (d.names.length - depth), d.longestBody ^ i

/-- The expansion of a word spends one and hands the others on to its body. -/
theorem weight_of_lt {d : Dictionary} {depth : Nat} (h : depth < d.names.length) :
    d.weight depth = d.longestBody * d.weight (depth + 1) + 1 := by
  have hlength : d.names.length - depth = d.names.length - (depth + 1) + 1 := by omega
  rw [weight, weight, hlength, geom_sum_succ]

end Dictionary

/-- What pending tokens can still lead to. -/
def Dictionary.totalWeight (d : Dictionary) (pending : List Occurrence) : Nat :=
  (pending.map fun occurrence => d.weight occurrence.within.length).sum

namespace Dictionary

@[simp] theorem totalWeight_cons (d : Dictionary) (first : Occurrence) (rest : List Occurrence) :
    d.totalWeight (first :: rest) = d.weight first.within.length + d.totalWeight rest := by
  simp only [totalWeight, List.map_cons, List.sum_cons]

@[simp] theorem totalWeight_append (d : Dictionary) (front back : List Occurrence) :
    d.totalWeight (front ++ back) = d.totalWeight front + d.totalWeight back := by
  simp only [totalWeight, List.map_append, List.sum_append]

theorem totalWeight_inside (d : Dictionary) (word : Occurrence) (body : List Token) :
    d.totalWeight (word.inside body) = body.length * d.weight (word.within.length + 1) := by
  simp only [totalWeight, Occurrence.inside, List.map_map, Function.comp_def, List.length_cons,
    List.map_const', List.sum_replicate, Nat.nsmul_eq_mul]

end Dictionary

namespace Session

variable [Arithmetic α] {s : Session α} {token : Token}

/-- The words around a pending token are different user words. -/
theorem Traces.within_distinct (hs : s.dictionary.ClosingFree)
    (hnever : s.NeverReenters token) {r : Run α} {pending : List Occurrence}
    (h : s.Traces token r pending) :
    ∀ occurrence ∈ pending,
      occurrence.within.Nodup ∧ occurrence.within ⊆ s.dictionary.names := by
  induction h with
  | start =>
    intro occurrence hmem
    rw [List.mem_singleton.1 hmem]
    exact ⟨List.nodup_nil, List.nil_subset _⟩
  | settled _ _ _ ih => exact fun occurrence hmem => ih occurrence (List.mem_cons_of_mem _ hmem)
  | @expanded r r' first rest body h hd hadv ih =>
    intro occurrence hmem
    rcases List.mem_append.1 hmem with hmem | hmem
    · obtain ⟨t, -, rfl⟩ := List.mem_map.1 hmem
      obtain ⟨hnodup, hnames⟩ := ih first List.mem_cons_self
      have hword := Dictionary.mem_names_of_get? (h.get?_of_expansion hs hd)
      exact ⟨List.nodup_cons.2 ⟨hnever r first rest body h hd, hnodup⟩,
        List.cons_subset.2 ⟨hword, hnames⟩⟩
    · exact ih occurrence (List.mem_cons_of_mem _ hmem)

/-- **The work list pays for its expansions.** If no word is expanded inside an expansion of
itself, the expansions counted and those that the pending tokens can still lead to are no
more than the first token could lead to. -/
theorem Traces.expansions_add_weight_le (hs : s.dictionary.ClosingFree)
    (hnever : s.NeverReenters token) {r : Run α} {pending : List Occurrence}
    (h : s.Traces token r pending) :
    r.expansions + s.dictionary.totalWeight pending ≤ s.dictionary.weight 0 := by
  induction h with
  | start =>
    simp only [Dictionary.totalWeight, List.map_cons, List.map_nil, List.sum_singleton,
      List.length_nil]
    exact Nat.le_of_eq (Nat.zero_add _)
  | @settled r r' first rest s' news h hd hadv ih =>
    obtain ⟨-, -, hexp⟩ := Run.running_of_settled h.pending_eq hd hadv
    rw [Dictionary.totalWeight_cons] at ih
    omega
  | @expanded r r' first rest body h hd hadv ih =>
    obtain ⟨-, -, hexp⟩ := Run.running_of_expansion h.pending_eq hd hadv
    have hget := h.get?_of_expansion hs hd
    obtain ⟨hnodup, hnames⟩ := h.within_distinct hs hnever first List.mem_cons_self
    -- The word itself is one more, different from those around it.
    have hdeep : first.within.length < s.dictionary.names.length := by
      have hall : (first.token :: first.within).Nodup :=
        List.nodup_cons.2 ⟨hnever r first rest body h hd, hnodup⟩
      exact (hall.subperm
        (List.cons_subset.2 ⟨Dictionary.mem_names_of_get? hget, hnames⟩)).length_le
    have hbody : body.length * s.dictionary.weight (first.within.length + 1)
        ≤ s.dictionary.longestBody * s.dictionary.weight (first.within.length + 1) :=
      Nat.mul_le_mul_right _ (Dictionary.length_le_longestBody hget)
    rw [Dictionary.totalWeight_cons, Dictionary.weight_of_lt hdeep] at ih
    rw [Dictionary.totalWeight_append, Dictionary.totalWeight_inside, hexp]
    omega

/-- If no word is expanded inside an expansion of itself, the number of expansions is
bounded by the dictionary. -/
theorem NeverReenters.expansions_le (hs : s.dictionary.ClosingFree) (hnever : s.NeverReenters token)
    {r : Run α} (h : (Run.start s token).Reaches r) :
    r.expansions ≤ s.dictionary.weight 0 := by
  obtain ⟨pending, htraces⟩ := exists_traces h
  exact Nat.le_trans (Nat.le_add_right _ _) (htraces.expansions_add_weight_le hs hnever)

end Session

/-! ## Vocabularies without cycles -/

/-- The body of the user word `x` contains the user word `y`. -/
def Dictionary.Mentions (d : Dictionary) (x y : Token) : Prop :=
  ∃ body, d.get? x = some body ∧ y ∈ body ∧ y ∈ d.names

namespace Session

variable [Arithmetic α] {s : Session α} {token : Token}

/-- A user word that is pending can be reached from the first token, and from every word in
whose expansion it stands. -/
theorem Traces.mentioned (hs : s.dictionary.ClosingFree) {r : Run α} {pending : List Occurrence}
    (h : s.Traces token r pending) :
    ∀ occurrence ∈ pending, occurrence.token ∈ s.dictionary.names →
      Relation.ReflTransGen s.dictionary.Mentions token occurrence.token
        ∧ ∀ word ∈ occurrence.within,
          Relation.TransGen s.dictionary.Mentions word occurrence.token := by
  induction h with
  | start =>
    intro occurrence hmem _
    rw [List.mem_singleton.1 hmem]
    exact ⟨.refl, fun _ h => nomatch h⟩
  | settled _ _ _ ih => exact fun occurrence hmem => ih occurrence (List.mem_cons_of_mem _ hmem)
  | @expanded r r' first rest body h hd hadv ih =>
    intro occurrence hmem hname
    rcases List.mem_append.1 hmem with hmem | hmem
    · obtain ⟨t, ht, rfl⟩ := List.mem_map.1 hmem
      have hget := h.get?_of_expansion hs hd
      obtain ⟨hfrom, hwithin⟩ :=
        ih first List.mem_cons_self (Dictionary.mem_names_of_get? hget)
      have hmentions : s.dictionary.Mentions first.token t := ⟨body, hget, ht, hname⟩
      refine ⟨hfrom.tail hmentions, fun word hword => ?_⟩
      rcases List.mem_cons.1 hword with rfl | hword
      · exact .single hmentions
      · exact (hwithin word hword).tail hmentions
    · exact ih occurrence (List.mem_cons_of_mem _ hmem) hname

/-- Where no word mentions itself, directly or through others, none is expanded inside an
expansion of itself. -/
theorem neverReenters_of_acyclic (hs : s.dictionary.ClosingFree)
    (hacyclic : ∀ word, Relation.ReflTransGen s.dictionary.Mentions token word →
      ¬ Relation.TransGen s.dictionary.Mentions word word) : s.NeverReenters token := by
  intro r first rest body h hd hmem
  have hname := Dictionary.mem_names_of_get? (h.get?_of_expansion hs hd)
  obtain ⟨hfrom, hwithin⟩ := h.mentioned hs first List.mem_cons_self hname
  exact hacyclic first.token hfrom (hwithin first.token hmem)

/-- Without a limit, evaluation that never reenters a word ends. -/
theorem evalToken_of_neverReenters (hs : s.dictionary.ClosingFree)
    (hlimit : s.settings.maxExpansions = none) (hnever : s.NeverReenters token) :
    ∃ patience o, s.evalToken patience token = some o := by
  obtain ⟨steps, o, ho⟩ := Run.ends_of_bounded fun _ hr => hnever.expansions_le hs hr
  refine ⟨steps, o, ?_⟩
  rw [evalToken, Session.steps, hlimit]
  exact ho

end Session

/-- **Without cycles every evaluation ends.** In a reachable session without an expansion
limit, with whatever stack and mode: if among the user words that can be reached from a
token, through the user words in their bodies, none can be reached from itself, then the
evaluation of the token has an outcome. -/
theorem acyclic_evaluation_ends [Arithmetic α] {settings : Settings} {s : Session α}
    (h : s.Reachable settings) (hlimit : settings.maxExpansions = none) (token : Token)
    (hacyclic : ∀ word, Relation.ReflTransGen s.dictionary.Mentions token word →
      ¬ Relation.TransGen s.dictionary.Mentions word word) (stack : List α) (mode : Mode) :
    ∃ patience o, { s with stack := stack, mode := mode }.evalToken patience token = some o := by
  -- Neither the stack nor the mode has a part in the argument.
  have hs : s.dictionary.ClosingFree := h.closingFree.stored
  have hfree : s.settings.maxExpansions = none := by rw [h.settings_eq, hlimit]
  exact Session.evalToken_of_neverReenters hs hfree
    (Session.neverReenters_of_acyclic hs hacyclic)

/-- A word that mentions another twice can be evaluated beside one that mentions itself. -/
theorem acyclic_evaluation_ends_quad :
    let s : Session Cell :=
      (((Session.new .plain).define "double" ["dup", "+"]).define "quad"
        ["double", "double"]).define "loop" ["quad", "loop"]
    s.Reachable .plain
      ∧ (∀ word, Relation.ReflTransGen s.dictionary.Mentions "quad" word →
        ¬ Relation.TransGen s.dictionary.Mentions word word)
      ∧ s.dictionary.Mentions "loop" "loop"
      ∧ ∀ (stack : List Cell) (mode : Mode), ∃ patience o,
        { s with stack := stack, mode := mode }.evalToken patience "quad" = some o := by
  intro s
  have hs : s.Reachable .plain :=
    Session.Reachable.new.feed [":", "double", "dup", "+", ";",
      ":", "quad", "double", "double", ";", ":", "loop", "quad", "loop", ";"]
      2 (o := ⟨s, none, 0, []⟩) rfl
  have hquad : ∀ y, s.dictionary.Mentions "quad" y → y = "double" := by
    rintro y ⟨body, hbody, hy, -⟩
    cases hbody
    simpa using hy
  have hdouble : ∀ y, ¬ s.dictionary.Mentions "double" y := by
    rintro y ⟨body, hbody, hy, hname⟩
    cases hbody
    rcases List.mem_pair.1 hy with rfl | rfl
    · exact absurd hname (by decide)
    · exact absurd hname (by decide)
  have hacyclic : ∀ word, Relation.ReflTransGen s.dictionary.Mentions "quad" word →
      ¬ Relation.TransGen s.dictionary.Mentions word word := by
    intro word hword
    -- From the first word only the second can be reached, and from that none.
    have htwo : word = "quad" ∨ word = "double" := by
      induction hword with
      | refl => exact .inl rfl
      | tail _ hnext ih =>
        rcases ih with rfl | rfl
        · exact .inr (hquad _ hnext)
        · exact absurd hnext (hdouble _)
    intro hcycle
    obtain ⟨mid, hfirst, hrest⟩ := Relation.TransGen.head'_iff.1 hcycle
    rcases htwo with rfl | rfl
    · obtain rfl := hquad mid hfirst
      rcases Relation.ReflTransGen.cases_head hrest with heq | ⟨_, hnext, -⟩
      · exact absurd heq (by decide)
      · exact hdouble _ hnext
    · exact hdouble mid hfirst
  have hloop : s.dictionary.Mentions "loop" "loop" := ⟨_, rfl, by decide, by decide⟩
  exact ⟨hs, hacyclic, hloop, acyclic_evaluation_ends hs rfl "quad" hacyclic⟩

end Concatenative
