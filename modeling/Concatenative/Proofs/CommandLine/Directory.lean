/-
A directory keeps what is written to it.

A path is followed component by component, so what a file is found under depends on all that was
written on the way. For paths that only go down (`IsPlainPath`) it comes to what one expects: the
file is at the place that the components name, and writing it makes every directory on the way
there. The one fact that carries the rest is that writing takes no directory away and that more
directories lead no path astray (`follow_mono`). It holds of every path, also of those that go up
and come back.

So files are read back after they have been written, in whatever order (`read_ofFiles`), as long as
no two have the same path.
-/
import Concatenative.CommandLine.Directory
import Concatenative.Proofs.CommandLine.Arguments
import Mathlib.Data.List.Basic

set_option autoImplicit false

namespace Concatenative.CommandLine

/-! ## Paths that go down -/

/-- The component of a path names something in the directory it is followed from. -/
structure IsEntryName (component : String) : Prop where
  ne_empty : component ≠ ""
  ne_here : component ≠ "."
  ne_above : component ≠ ".."
  short : component.utf8ByteSize ≤ longestComponent

/-- The path goes down from the directory with each of its components. -/
structure IsPlainPath (path : String) : Prop where
  short : path.utf8ByteSize ≤ longestPath
  entry : ∀ component ∈ pathComponents path, IsEntryName component

instance (component : String) : Decidable (IsEntryName component) :=
  decidable_of_iff (component ≠ "" ∧ component ≠ "." ∧ component ≠ ".."
      ∧ component.utf8ByteSize ≤ longestComponent)
    ⟨fun ⟨hempty, hhere, habove, hshort⟩ => ⟨hempty, hhere, habove, hshort⟩,
      fun h => ⟨h.ne_empty, h.ne_here, h.ne_above, h.short⟩⟩

instance (path : String) : Decidable (IsPlainPath path) :=
  decidable_of_iff (path.utf8ByteSize ≤ longestPath
      ∧ ∀ component ∈ pathComponents path, IsEntryName component)
    ⟨fun ⟨hshort, hentry⟩ => ⟨hshort, hentry⟩, fun h => ⟨h.short, h.entry⟩⟩

theorem pathComponents_ne_nil (path : String) : pathComponents path ≠ [] := by
  rw [pathComponents, ne_eq, List.map_eq_nil_iff]
  exact List.splitOn_ne_nil _ _

/-- A path is its components with slashes between them. -/
theorem pathComponents_injective {path other : String}
    (h : pathComponents path = pathComponents other) : path = other := by
  have hjoined : ∀ p : String, ['/'].intercalate ((pathComponents p).map String.toList)
      = p.toList := by
    intro p
    rw [pathComponents, List.map_map]
    have hid : String.toList ∘ String.ofList = id := funext fun _ => String.toList_ofList ..
    rw [hid, List.map_id, List.intercalate_splitOn]
  exact String.toList_injective ((hjoined path).symm.trans (h ▸ hjoined other))

/-- A path that starts with a slash has an empty first component. -/
theorem IsPlainPath.not_startsWith {path : String} (h : IsPlainPath path) :
    path.startsWith "/" = false := by
  by_contra hslash
  rw [Bool.not_eq_false, String.startsWith_string_iff] at hslash
  obtain ⟨rest, hrest⟩ := hslash
  have hsplit : ("/".toList ++ rest).splitOn '/' = [] :: rest.splitOn '/' :=
    List.splitOn_append_cons_self_of_not_mem (List.not_mem_nil) rest
  have hempty : "" ∈ pathComponents path := by
    rw [pathComponents, ← hrest, hsplit]
    exact List.mem_cons_self
  exact (h.entry "" hempty).ne_empty rfl

namespace Directory

variable {d d' : Directory} {place place' : Place} {component path : String}
  {names components : List String}

/-! ## Following a path -/

/-- What is read under a path is the file it leads to. -/
theorem read_eq_ok_iff {contents : ByteArray} :
    d.read path = .ok contents
      ↔ ∃ names, d.follow path = .ok (.inside names) ∧ d.file? names = some contents := by
  unfold read
  rw [bind_eq_ok_iff]
  constructor
  · rintro ⟨place, hplace, hfile⟩
    cases place with
    | outside => cases hfile
    | inside names =>
      refine ⟨names, hplace, ?_⟩
      cases hcontents : d.file? names with
      | none =>
        simp only [hcontents] at hfile
        cases hfile
      | some found =>
        simp only [hcontents] at hfile
        rw [Except.ok.inj hfile]
  · rintro ⟨names, hplace, hfile⟩
    refine ⟨.inside names, hplace, ?_⟩
    simp only [hfile]

theorem enter_entry (hfolder : d.hasFolder names = true) (h : IsEntryName component) :
    d.enter (.inside names) component = .ok (.inside (names ++ [component])) := by
  have hshort : ¬ longestComponent < component.utf8ByteSize := Nat.not_lt.2 h.short
  simp only [enter, hfolder, if_true, h.ne_empty, h.ne_here, h.ne_above, hshort, or_self, if_false]

/-- A component is followed from a directory only. -/
theorem hasFolder_of_enter (h : d.enter (.inside names) component = .ok place) :
    d.hasFolder names = true := by
  by_contra hfolder
  have herror : ∃ cause, d.enter (.inside names) component = .error cause := by
    unfold enter
    by_cases hfile : (d.file? names).isSome = true
    · exact ⟨.notDirectory, by simp only [hfolder, hfile, if_true, if_false, Bool.false_eq_true]⟩
    · exact ⟨.notFound, by simp only [hfolder, hfile, if_false, Bool.false_eq_true]⟩
  obtain ⟨cause, hcause⟩ := herror
  cases h.symm.trans hcause

/-- Components that go down lead to the place they name, if each of them but the last names a
directory. -/
theorem foldlM_enter_entries (hentry : ∀ component ∈ components, IsEntryName component)
    (hfolder : ∀ front component back, components = front ++ component :: back →
      d.hasFolder (names ++ front) = true) :
    components.foldlM d.enter (.inside names) = .ok (.inside (names ++ components)) := by
  induction components generalizing names with
  | nil =>
    rw [List.append_nil]
    rfl
  | cons component rest ih =>
    obtain ⟨hcomponent, hrest⟩ := List.forall_mem_cons.1 hentry
    have hhere : d.hasFolder names = true := by
      have hfirst := hfolder [] component rest rfl
      rwa [List.append_nil] at hfirst
    have hlater : ∀ front next back, rest = front ++ next :: back →
        d.hasFolder (names ++ [component] ++ front) = true := by
      rintro front next back rfl
      rw [List.append_assoc]
      exact hfolder (component :: front) next back rfl
    rw [List.foldlM_cons, enter_entry hhere hcomponent]
    have hall := ih hrest hlater
    rw [List.append_assoc] at hall
    exact hall

/-- And they lead to no other place. -/
theorem eq_of_foldlM_enter_entries (hentry : ∀ component ∈ components, IsEntryName component)
    (h : components.foldlM d.enter (.inside names) = .ok place) :
    place = .inside (names ++ components) := by
  induction components generalizing names with
  | nil =>
    cases h
    rw [List.append_nil]
  | cons component rest ih =>
    obtain ⟨hcomponent, hrest⟩ := List.forall_mem_cons.1 hentry
    rw [List.foldlM_cons] at h
    obtain ⟨next, hnext, h⟩ := bind_eq_ok_iff.1 h
    rw [enter_entry (hasFolder_of_enter hnext) hcomponent] at hnext
    cases hnext
    rw [ih hrest h, List.append_assoc]
    rfl

theorem follow_plain (h : IsPlainPath path) :
    d.follow path = (pathComponents path).foldlM d.enter (.inside []) := by
  have hshort : ¬ longestPath < path.utf8ByteSize := Nat.not_lt.2 h.short
  simp only [follow, hshort, h.not_startsWith, if_false, Bool.false_eq_true]

/-- A path that goes down leads to the place its components name, if it leads anywhere. -/
theorem eq_of_follow_plain (h : IsPlainPath path) (hfollow : d.follow path = .ok place) :
    place = .inside (pathComponents path) := by
  rw [follow_plain h] at hfollow
  exact eq_of_foldlM_enter_entries h.entry hfollow

/-! ## What writing takes along -/

/-- Every directory of the one is in the other. -/
def FoldersWithin (d d' : Directory) : Prop :=
  ∀ names, d.hasFolder names = true → d'.hasFolder names = true

theorem enter_mono (hd : d.FoldersWithin d') (h : d.enter place component = .ok place') :
    d'.enter place component = .ok place' := by
  cases place with
  | outside => exact h
  | inside names =>
    have hfolder := hasFolder_of_enter h
    unfold enter at h ⊢
    simp only [hfolder, hd names hfolder, if_true] at h ⊢
    exact h

/-- **Where a path leads, it leads with more directories as well.** -/
theorem follow_mono (hd : d.FoldersWithin d') (h : d.follow path = .ok place) :
    d'.follow path = .ok place := by
  have hfold : ∀ (components : List String) (origin : Place),
      components.foldlM d.enter origin = .ok place →
        components.foldlM d'.enter origin = .ok place := by
    intro components
    induction components with
    | nil => exact fun origin horigin => horigin
    | cons component rest ih =>
      intro origin horigin
      rw [List.foldlM_cons] at horigin ⊢
      obtain ⟨next, hnext, hrest⟩ := bind_eq_ok_iff.1 horigin
      exact bind_eq_ok_iff.2 ⟨next, enter_mono hd hnext, ih next hrest⟩
  unfold follow at h ⊢
  by_cases hlong : longestPath < path.utf8ByteSize
  · rw [if_pos hlong] at h
    cases h
  · rw [if_neg hlong] at h ⊢
    exact hfold _ _ h

/-- Components that go down make every directory on the way. -/
theorem foldl_makeFolder_entries (hentry : ∀ component ∈ components, IsEntryName component)
    (hnames : d.hasFolder names = true) :
    ∃ made, components.foldl (fun (d, place) => d.makeFolder place) (d, .inside names)
        = (made, .inside (names ++ components))
      ∧ made.files = d.files ∧ d.FoldersWithin made
      ∧ ∀ front, front <+: components → made.hasFolder (names ++ front) = true := by
  induction components generalizing d names with
  | nil =>
    refine ⟨d, by rw [List.append_nil]; rfl, rfl, fun _ h => h, ?_⟩
    intro front hfront
    rw [List.prefix_nil.1 hfront, List.append_nil]
    exact hnames
  | cons component rest ih =>
    obtain ⟨hcomponent, hrest⟩ := List.forall_mem_cons.1 hentry
    have hmake : d.makeFolder (.inside names) component
        = ({ d with folders := (names ++ [component]) :: d.folders },
          .inside (names ++ [component])) := by
      simp only [makeFolder, hcomponent.ne_empty, hcomponent.ne_here, hcomponent.ne_above, or_self,
        if_false]
    have hhere : hasFolder { d with folders := (names ++ [component]) :: d.folders }
        (names ++ [component]) = true := by
      simp [hasFolder]
    have hmore : d.FoldersWithin { d with folders := (names ++ [component]) :: d.folders } := by
      intro other hother
      simp only [hasFolder, List.contains_cons, Bool.or_eq_true] at hother ⊢
      exact hother.imp_right .inr
    obtain ⟨made, hmade, hfiles, hfolders, hfronts⟩ := ih hrest hhere
    refine ⟨made, ?_, hfiles, fun _ h => hfolders _ (hmore _ h), ?_⟩
    · rw [List.append_assoc] at hmade
      simp only [List.foldl_cons, hmake]
      exact hmade
    · intro front hfront
      cases front with
      | nil =>
        rw [List.append_nil]
        exact hfolders _ (hmore _ hnames)
      | cons first others =>
        obtain ⟨rfl, hothers⟩ := List.cons_prefix_cons.1 hfront
        have hlater := hfronts others hothers
        rwa [List.append_assoc] at hlater

/-- What there is when a file has been written: the file at the place that the path names, the
files from before behind it, and the directories from before with those on the way. -/
theorem exists_write_eq (h : IsPlainPath path) (contents : ByteArray) :
    ∃ made : Directory,
      d.write path contents = { made with files := (pathComponents path, contents) :: d.files }
        ∧ d.FoldersWithin made
        ∧ ∀ front component back, pathComponents path = front ++ component :: back →
          made.hasFolder front = true := by
  obtain ⟨init, last, hsplit⟩ : ∃ init last, pathComponents path = init ++ [last] :=
    (List.eq_nil_or_concat' _).resolve_left (pathComponents_ne_nil path)
  have hentry : ∀ component ∈ init, IsEntryName component := by
    intro component hmem
    refine h.entry component ?_
    rw [hsplit]
    exact List.mem_append_left _ hmem
  have hroot : d.hasFolder [] = true := rfl
  obtain ⟨made, hmade, hfiles, hfolders, hfronts⟩ := foldl_makeFolder_entries hentry hroot
  refine ⟨made, ?_, hfolders, ?_⟩
  · simp only [write, hsplit, List.dropLast_concat, List.getLast?_concat, hmade, List.nil_append,
      hfiles]
  · intro front component back hcut
    refine hfronts front ?_
    -- The last component is in what is behind the front, so the front is a part of the others.
    have hinit : init = front ++ (component :: back).dropLast := by
      rw [← List.dropLast_append_of_ne_nil (List.cons_ne_nil _ _), ← hcut, hsplit,
        List.dropLast_concat]
    exact ⟨_, hinit.symm⟩

theorem foldersWithin_write (h : IsPlainPath path) (contents : ByteArray) :
    d.FoldersWithin (d.write path contents) := by
  obtain ⟨made, hwrite, hfolders, -⟩ := exists_write_eq (d := d) h contents
  rw [hwrite]
  exact hfolders

theorem file?_write (h : IsPlainPath path) (contents : ByteArray) (names : List String) :
    (d.write path contents).file? names
      = if names = pathComponents path then some contents else d.file? names := by
  obtain ⟨made, hwrite, -⟩ := exists_write_eq (d := d) h contents
  rw [hwrite, file?, List.lookup_cons]
  by_cases hnames : names = pathComponents path
  · rw [if_pos hnames, beq_iff_eq.2 hnames]
  · rw [if_neg hnames, beq_eq_false_iff_ne.2 hnames, file?]

/-! ## Reading what was written -/

/-- **A file is read back** after it has been written. -/
theorem read_write (h : IsPlainPath path) (contents : ByteArray) :
    (d.write path contents).read path = .ok contents := by
  obtain ⟨made, hwrite, -, hfronts⟩ := exists_write_eq (d := d) h contents
  refine read_eq_ok_iff.2 ⟨pathComponents path, ?_, ?_⟩
  · rw [follow_plain h]
    refine foldlM_enter_entries h.entry fun front component back hcut => ?_
    rw [hwrite]
    exact hfronts front component back hcut
  · rw [file?_write h, if_pos rfl]

/-- And what was read before is read still, whatever the path, unless the two are one file. -/
theorem read_write_other (h : IsPlainPath path) (contents : ByteArray) {other : String}
    {names : List String} (hfollow : d.follow other = .ok (.inside names))
    (hne : names ≠ pathComponents path) {found : ByteArray} (hread : d.read other = .ok found) :
    (d.write path contents).read other = .ok found := by
  obtain ⟨names', hfollow', hfile⟩ := read_eq_ok_iff.1 hread
  obtain rfl : names' = names := by
    rw [hfollow] at hfollow'
    cases hfollow'
    rfl
  refine read_eq_ok_iff.2 ⟨names', follow_mono (foldersWithin_write h contents) hfollow, ?_⟩
  rw [file?_write h, if_neg hne, hfile]

/-- **Files that have been written are read back**, each under its path, however many there are
and in whatever order they were written. -/
theorem read_ofFiles {files : List (String × ByteArray)}
    (hplain : ∀ file ∈ files, IsPlainPath file.1) (hdistinct : (files.map Prod.fst).Nodup) :
    ∀ file ∈ files, (ofFiles files).read file.1 = .ok file.2 := by
  -- The directory that is written to has files in it after the first of them.
  have hwritten : ∀ d : Directory,
      (∀ path found, IsPlainPath path → path ∉ files.map Prod.fst → d.read path = .ok found →
        (files.foldl (fun d file => d.write file.1 file.2) d).read path = .ok found)
      ∧ ∀ file ∈ files,
        (files.foldl (fun d file => d.write file.1 file.2) d).read file.1 = .ok file.2 := by
    induction files with
    | nil => exact fun d => ⟨fun path found _ _ hread => hread, List.forall_mem_nil _⟩
    | cons first rest ih =>
      obtain ⟨hfirst, hrest⟩ := List.forall_mem_cons.1 hplain
      rw [List.map_cons, List.nodup_cons] at hdistinct
      intro d
      obtain ⟨hkept, hback⟩ := ih hrest hdistinct.2 (d.write first.1 first.2)
      refine ⟨?_, List.forall_mem_cons.2 ⟨?_, hback⟩⟩
      · intro path found hpath hnew hread
        rw [List.map_cons, List.mem_cons, not_or] at hnew
        obtain ⟨names, hfollow, -⟩ := read_eq_ok_iff.1 hread
        have hplace : names = pathComponents path :=
          Place.inside.inj (eq_of_follow_plain hpath hfollow)
        have hne : names ≠ pathComponents first.1 := by
          rw [hplace]
          exact fun e => hnew.1 (pathComponents_injective e)
        exact hkept path found hpath hnew.2 (read_write_other hfirst first.2 hfollow hne hread)
      · exact hkept first.1 first.2 hfirst hdistinct.1 (read_write hfirst first.2)
  exact (hwritten empty).2

end Directory

end Concatenative.CommandLine
