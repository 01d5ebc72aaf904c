/-
The user's words.

A dictionary lists names with their bodies in the order in which the names were
first defined. No name occurs twice, and that is part of the type: a later
definition of a name takes the place of the earlier one instead of following it.
-/
import Concatenative.Token

set_option autoImplicit false

namespace Concatenative

/-! ## Entries -/

/-- A list of entries with `name` bound to `body`: in the place of the entry that
has the name already, or at the end. -/
def bindEntry (name : Token) (body : List Token) :
    List (Token × List Token) → List (Token × List Token)
  | [] => [(name, body)]
  | entry :: rest =>
    if entry.1 = name then (name, body) :: rest else entry :: bindEntry name body rest

/-- Binding a name changes the list of names only if the name is new. -/
theorem map_fst_bindEntry (name : Token) (body : List Token)
    (entries : List (Token × List Token)) :
    (bindEntry name body entries).map Prod.fst
      = if name ∈ entries.map Prod.fst then entries.map Prod.fst
        else entries.map Prod.fst ++ [name] := by
  induction entries with
  | nil => rfl
  | cons entry rest ih =>
    by_cases h : entry.1 = name
    · simp [bindEntry, h]
    · have h' : ¬ name = entry.1 := fun e => h e.symm
      simp only [bindEntry, if_neg h, List.map_cons, ih, List.mem_cons, h', false_or]
      split <;> rfl

/-- Binding a name changes what that name stands for and nothing else. -/
theorem lookup_bindEntry (name : Token) (body : List Token)
    (entries : List (Token × List Token)) (token : Token) :
    (bindEntry name body entries).lookup token
      = if token = name then some body else entries.lookup token := by
  have lookup_ne : ∀ (other : Token) (old : List Token) (rest : List (Token × List Token)),
      ¬ token = other → ((other, old) :: rest).lookup token = rest.lookup token := by
    intro other old rest h
    have hbeq : (token == other) = false := by simpa using h
    simp [List.lookup_cons, hbeq]
  induction entries with
  | nil =>
    by_cases ht : token = name
    · simp [bindEntry, ht]
    · simp [bindEntry, lookup_ne name body [] ht, ht]
  | cons entry rest ih =>
    obtain ⟨other, old⟩ := entry
    by_cases h : other = name
    · subst h
      by_cases ht : token = other
      · simp [bindEntry, ht]
      · simp [bindEntry, lookup_ne other _ rest ht, ht]
    · by_cases ht : token = other
      · subst ht
        simp [bindEntry, h]
      · simp [bindEntry, h, lookup_ne other old _ ht, ih]

/-- Binding a name adds no other entry. -/
theorem mem_of_mem_bindEntry {name : Token} {body : List Token}
    {entries : List (Token × List Token)} {entry : Token × List Token}
    (h : entry ∈ bindEntry name body entries) : entry = (name, body) ∨ entry ∈ entries := by
  induction entries with
  | nil => exact .inl (List.mem_singleton.1 h)
  | cons first rest ih =>
    unfold bindEntry at h
    split at h
    · rcases List.mem_cons.1 h with h | h
      · exact .inl h
      · exact .inr (List.mem_cons_of_mem _ h)
    · rcases List.mem_cons.1 h with rfl | h
      · exact .inr List.mem_cons_self
      · rcases ih h with h | h
        · exact .inl h
        · exact .inr (List.mem_cons_of_mem _ h)

/-- A new name is bound at the end. -/
theorem bindEntry_of_not_mem {name : Token} {body : List Token}
    {entries : List (Token × List Token)} (h : name ∉ entries.map Prod.fst) :
    bindEntry name body entries = entries ++ [(name, body)] := by
  induction entries with
  | nil => rfl
  | cons entry rest ih =>
    rw [List.map_cons, List.mem_cons, not_or] at h
    rw [bindEntry, if_neg fun e => h.1 e.symm, ih h.2, List.cons_append]

/-! ## Dictionaries -/

/-- Names with their bodies, in the order of first definition. -/
structure Dictionary where
  entries : List (Token × List Token)
  distinct : (entries.map Prod.fst).Nodup

namespace Dictionary

/-- The dictionary without words. -/
def empty : Dictionary :=
  ⟨[], List.nodup_nil⟩

/-- The names, in the order of first definition. -/
def names (d : Dictionary) : List Token :=
  d.entries.map Prod.fst

/-- The body of a word. -/
def get? (d : Dictionary) (name : Token) : Option (List Token) :=
  d.entries.lookup name

/-- The dictionary in which `name` has the body `body`. A name that was defined
keeps its place. -/
def insert (d : Dictionary) (name : Token) (body : List Token) : Dictionary where
  entries := bindEntry name body d.entries
  distinct := by
    rw [map_fst_bindEntry]
    split
    · exact d.distinct
    · rename_i h
      refine List.nodup_append.2 ⟨d.distinct, List.nodup_cons.2 ⟨by simp, List.nodup_nil⟩, ?_⟩
      intro a ha b hb hab
      rw [List.mem_singleton.1 hb] at hab
      exact h (hab ▸ ha)

theorem eq_of_entries {d d' : Dictionary} (h : d.entries = d'.entries) : d = d' := by
  cases d
  cases d'
  cases h
  rfl

/-- What has no body is no name. -/
theorem get?_eq_none_iff {d : Dictionary} {name : Token} :
    d.get? name = none ↔ name ∉ d.names := by
  rw [get?, List.lookup_eq_none_iff, names, List.mem_map]
  constructor
  · rintro h ⟨entry, hentry, rfl⟩
    simpa using h entry hentry
  · intro h entry hentry
    rw [bne_iff_ne]
    rintro rfl
    exact h ⟨entry, hentry, rfl⟩

theorem entries_insert_of_not_mem {d : Dictionary} {name : Token} (h : name ∉ d.names)
    (body : List Token) : (d.insert name body).entries = d.entries ++ [(name, body)] :=
  bindEntry_of_not_mem h

/-- What is looked up is an entry. -/
theorem mem_of_get?_eq_some {d : Dictionary} {name : Token} {body : List Token}
    (h : d.get? name = some body) : (name, body) ∈ d.entries := by
  obtain ⟨before, after, heq, -⟩ := List.lookup_eq_some_iff.1 h
  rw [heq]
  exact List.mem_append_right _ List.mem_cons_self

theorem mem_names_of_get? {d : Dictionary} {name : Token} {body : List Token}
    (h : d.get? name = some body) : name ∈ d.names :=
  List.mem_map.2 ⟨_, mem_of_get?_eq_some h, rfl⟩

theorem mem_of_mem_insert {d : Dictionary} {name : Token} {body : List Token}
    {entry : Token × List Token} (h : entry ∈ (d.insert name body).entries) :
    entry = (name, body) ∨ entry ∈ d.entries :=
  mem_of_mem_bindEntry h

theorem get?_empty (name : Token) : empty.get? name = none := rfl

theorem get?_insert (d : Dictionary) (name : Token) (body : List Token) (token : Token) :
    (d.insert name body).get? token = if token = name then some body else d.get? token :=
  lookup_bindEntry name body d.entries token

theorem names_insert (d : Dictionary) (name : Token) (body : List Token) :
    (d.insert name body).names = if name ∈ d.names then d.names else d.names ++ [name] :=
  map_fst_bindEntry name body d.entries

/-- The length of the longest body, zero if there are no words. -/
def longestBody (d : Dictionary) : Nat :=
  d.entries.foldl (fun longest entry => max longest entry.2.length) 0

theorem length_le_foldl_max {entries : List (Token × List Token)} (start : Nat) :
    start ≤ entries.foldl (fun longest entry => max longest entry.2.length) start
      ∧ ∀ entry ∈ entries,
        entry.2.length ≤ entries.foldl (fun longest entry => max longest entry.2.length) start := by
  induction entries generalizing start with
  | nil => exact ⟨Nat.le_refl _, fun _ h => nomatch h⟩
  | cons first rest ih =>
    obtain ⟨hstart, hrest⟩ := ih (max start first.2.length)
    refine ⟨Nat.le_trans (Nat.le_max_left _ _) hstart, fun entry hentry => ?_⟩
    rcases List.mem_cons.1 hentry with rfl | hentry
    · exact Nat.le_trans (Nat.le_max_right _ _) hstart
    · exact hrest entry hentry

theorem length_le_longestBody {d : Dictionary} {name : Token} {body : List Token}
    (h : d.get? name = some body) : body.length ≤ d.longestBody :=
  (length_le_foldl_max 0).2 _ (mem_of_get?_eq_some h)

/-- The source text that defines a word. An empty body leaves the two spaces
around it. -/
def definitionLine (name : Token) (body : List Token) : String :=
  ": " ++ name ++ " " ++ spelled body ++ " ;"

/-- The dictionary as lines of source text, in the order of first definition. -/
def definitionLines (d : Dictionary) : List String :=
  d.entries.map fun entry => definitionLine entry.1 entry.2

end Dictionary

end Concatenative
