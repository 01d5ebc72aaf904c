/-
Dictionaries as maps, and definitions in a row.

Evaluation asks a dictionary one question: what does this token stand for? So two
dictionaries that answer it alike are as good as each other, in whatever order their entries
are. The order is for those who list the words, and it is that in which the names came.

`Dictionary.extend` is a dictionary after definitions in a row. It is described twice, as a
map by `get?_extend`, where the last definition of a name counts, and as a list by
`names_extend_empty`, where the first one does.
-/
import Concatenative.Dictionary
import Mathlib.Data.List.Induction
import Mathlib.Data.List.Nodup

set_option autoImplicit false

namespace Concatenative

/-! ## Names that occur once -/

/-- If no name occurs twice, to be looked up is to be an entry. -/
theorem lookup_eq_some_iff_mem {entries : List (Token × List Token)}
    (h : (entries.map Prod.fst).Nodup) {name : Token} {body : List Token} :
    entries.lookup name = some body ↔ (name, body) ∈ entries := by
  induction entries with
  | nil => simp
  | cons entry rest ih =>
    obtain ⟨other, old⟩ := entry
    rw [List.map_cons, List.nodup_cons] at h
    by_cases hname : name = other
    · subst hname
      have hrest : (name, body) ∉ rest := fun hmem => h.1 (List.mem_map.2 ⟨_, hmem, rfl⟩)
      simp [hrest, eq_comm]
    · have hbeq : (name == other) = false := by simpa using hname
      simp [List.lookup_cons, hbeq, ih h.2, hname]

/-- If no name occurs twice, the order of the entries makes no difference to look-up. -/
theorem lookup_eq_of_perm {entries entries' : List (Token × List Token)}
    (h : entries.Perm entries') (hnodup : (entries.map Prod.fst).Nodup) (name : Token) :
    entries'.lookup name = entries.lookup name := by
  have hnodup' : (entries'.map Prod.fst).Nodup := (h.map Prod.fst).nodup_iff.1 hnodup
  refine Option.ext fun body => ?_
  rw [lookup_eq_some_iff_mem hnodup, lookup_eq_some_iff_mem hnodup', h.mem_iff]

theorem lookup_reverse {entries : List (Token × List Token)}
    (h : (entries.map Prod.fst).Nodup) (name : Token) :
    entries.reverse.lookup name = entries.lookup name :=
  lookup_eq_of_perm (List.reverse_perm entries).symm h name

namespace Dictionary

/-! ## Dictionaries as maps -/

theorem get?_eq_some_iff {d : Dictionary} {name : Token} {body : List Token} :
    d.get? name = some body ↔ (name, body) ∈ d.entries :=
  lookup_eq_some_iff_mem d.distinct

theorem get?_eq_of_perm {d d' : Dictionary} (h : d.entries.Perm d'.entries) (token : Token) :
    d'.get? token = d.get? token :=
  lookup_eq_of_perm h d.distinct token

/-- The longest body is no longer than what bounds them all. -/
theorem longestBody_le {d : Dictionary} {bound : Nat}
    (h : ∀ name body, d.get? name = some body → body.length ≤ bound) : d.longestBody ≤ bound := by
  have hfold : ∀ (entries : List (Token × List Token)) (start : Nat), start ≤ bound →
      (∀ entry ∈ entries, entry.2.length ≤ bound) →
        entries.foldl (fun longest entry => max longest entry.2.length) start ≤ bound := by
    intro entries
    induction entries with
    | nil => exact fun start hstart _ => hstart
    | cons entry rest ih =>
      intro start hstart hall
      obtain ⟨hentry, hrest⟩ := List.forall_mem_cons.1 hall
      exact ih _ (Nat.max_le.2 ⟨hstart, hentry⟩) hrest
  exact hfold d.entries 0 (Nat.zero_le _) fun entry hentry => h _ _ (get?_eq_some_iff.2 hentry)

theorem longestBody_congr {d d' : Dictionary} (h : ∀ token, d'.get? token = d.get? token) :
    d'.longestBody = d.longestBody := by
  apply Nat.le_antisymm
  · exact longestBody_le fun name body hget => length_le_longestBody (h name ▸ hget)
  · exact longestBody_le fun name body hget => length_le_longestBody ((h name).trans hget)

/-! ## Definitions in a row -/

/-- The dictionary after definitions in a row. -/
def extend (d : Dictionary) (words : List (Token × List Token)) : Dictionary :=
  words.foldl (fun d word => d.insert word.1 word.2) d

@[simp] theorem extend_nil (d : Dictionary) : d.extend [] = d := rfl

@[simp] theorem extend_cons (d : Dictionary) (word : Token × List Token)
    (rest : List (Token × List Token)) :
    d.extend (word :: rest) = (d.insert word.1 word.2).extend rest := rfl

theorem extend_append (d : Dictionary) (first second : List (Token × List Token)) :
    d.extend (first ++ second) = (d.extend first).extend second :=
  List.foldl_append

/-- Of several definitions of a name the last one counts. -/
theorem get?_extend (d : Dictionary) (words : List (Token × List Token)) (token : Token) :
    (d.extend words).get? token = (words.reverse.lookup token).or (d.get? token) := by
  induction words generalizing d with
  | nil => rfl
  | cons word rest ih =>
    obtain ⟨name, body⟩ := word
    rw [extend_cons, ih, get?_insert, List.reverse_cons, List.lookup_append, Option.or_assoc]
    by_cases h : token = name
    · simp [h]
    · have hbeq : (token == name) = false := by simpa using h
      simp [List.lookup_cons, hbeq, h]

/-- Definitions of different names can be made in any order. -/
theorem get?_extend_of_perm (d : Dictionary) {words words' : List (Token × List Token)}
    (h : words.Perm words') (hnodup : (words.map Prod.fst).Nodup) (token : Token) :
    (d.extend words').get? token = (d.extend words).get? token := by
  have hnodup' : (words'.map Prod.fst).Nodup := (h.map Prod.fst).nodup_iff.1 hnodup
  rw [get?_extend, get?_extend, lookup_reverse hnodup, lookup_reverse hnodup',
    lookup_eq_of_perm h hnodup]

/-- A name that is defined once stands for its body. -/
theorem get?_extend_of_mem (d : Dictionary) {words : List (Token × List Token)}
    (hnodup : (words.map Prod.fst).Nodup) {name : Token} {body : List Token}
    (h : (name, body) ∈ words) : (d.extend words).get? name = some body := by
  rw [get?_extend, lookup_reverse hnodup, (lookup_eq_some_iff_mem hnodup).2 h, Option.some_or]

/-- Names that are there stay where they are. -/
theorem names_prefix_extend (d : Dictionary) (words : List (Token × List Token)) :
    d.names <+: (d.extend words).names := by
  induction words generalizing d with
  | nil => exact List.prefix_rfl
  | cons word rest ih =>
    refine List.IsPrefix.trans ?_ (ih (d.insert word.1 word.2))
    rw [names_insert]
    split
    · exact List.prefix_rfl
    · exact List.prefix_append _ _

/-- The names of a dictionary are those defined, each where it was defined first. The
induction is from the right, since it is the last name that is new or not. -/
theorem names_extend_empty (words : List (Token × List Token)) :
    (empty.extend words).names = (words.map Prod.fst).eraseDups := by
  induction words using List.reverseRecOn with
  | nil => rfl
  | append_singleton words word ih =>
    rw [extend_append, extend_cons, extend_nil, names_insert, ih, List.map_append,
      List.map_singleton, List.eraseDups_append]
    by_cases h : word.1 ∈ words.map Prod.fst
    · simp [List.mem_eraseDups, List.removeAll, h]
    · simp [List.mem_eraseDups, List.removeAll, List.eraseDups_cons, h]

/-- New names are put at the end, in order. -/
theorem entries_extend_of_new {d : Dictionary} {words : List (Token × List Token)}
    (h : (d.names ++ words.map Prod.fst).Nodup) :
    (d.extend words).entries = d.entries ++ words := by
  induction words generalizing d with
  | nil => exact (List.append_nil _).symm
  | cons word rest ih =>
    obtain ⟨name, body⟩ := word
    have hnew : name ∉ d.names := fun hmem =>
      (List.nodup_append.1 h).2.2 name hmem name List.mem_cons_self rfl
    have hnames : (d.insert name body).names = d.names ++ [name] := by
      rw [names_insert, if_neg hnew]
    have hrest : ((d.insert name body).names ++ rest.map Prod.fst).Nodup := by
      rw [hnames, List.append_assoc]
      exact h
    rw [extend_cons, ih hrest, entries_insert_of_not_mem hnew, List.append_assoc]
    rfl

end Dictionary

end Concatenative
