/-
Options and file names among the arguments.

What has been read is held and checked late, so the arguments cannot be taken one by one: the
first file name settles whatever option stands before it. But it settles it the way the end of
the arguments would have done. So file names that follow options make the request of the
options with these files (`ofArguments_append_names`), provided that the options are good on their
own. A limit and the name of a level are good (`ofArguments_options`), since neither looks like an
option itself.
-/
import Concatenative.CommandLine.Arguments
import Concatenative.Text.Decimal
import Mathlib.Algebra.Group.Nat.Defs
import Mathlib.Data.List.Basic

set_option autoImplicit false

namespace Concatenative.CommandLine

/-! ## File names -/

/-- The text is not empty and does not begin with a dash, so it is no option and no lone
separator wherever it stands. -/
def IsFileName (name : String) : Prop :=
  ∃ c rest, name.toList = c :: rest ∧ c ≠ '-'

namespace IsFileName

theorem ne_empty {name : String} (h : IsFileName name) : name ≠ "" := by
  rintro rfl
  obtain ⟨c, rest, hname, -⟩ := h
  cases hname

theorem shape {name : String} (h : IsFileName name) : Shape.ofArgument name = .plain := by
  obtain ⟨c, rest, hname, hdash⟩ := h
  rw [Shape.ofArgument, hname]
  split
  · rename_i heq
    exact absurd (List.cons.inj heq).1 hdash
  · rename_i heq
    exact absurd (List.cons.inj heq).1 hdash
  · rename_i heq
    exact absurd (List.cons.inj heq).1 hdash
  · rfl

end IsFileName

theorem settle_files {names : List String} (hnames : ∀ name ∈ names, IsFileName name)
    (request : Request) :
    request.settle (.files names) = .ok { request with files := request.files ++ names } :=
  if_neg fun hempty => (hnames "" hempty).ne_empty rfl

/-- A request that has no files in the end had none before, and none were held. -/
theorem eq_of_settle_files {request result : Request} {names : List String}
    (h : request.settle (.files names) = .ok result) (hfiles : result.files = []) :
    names = [] ∧ result = request ∧ request.files = [] := by
  rw [Request.settle] at h
  split at h
  · cases h
  · cases h
    obtain ⟨hbefore, rfl⟩ := List.append_eq_nil_iff.1 hfiles
    obtain ⟨maxExpansions, logLevel, files⟩ := request
    obtain rfl : files = [] := hbefore
    exact ⟨rfl, rfl, rfl⟩

/-- File names are held together until the end. -/
theorem readArguments_names {names : List String} (hnames : ∀ name ∈ names, IsFileName name)
    (request : Request) (before : List String) :
    readArguments request (.files before) names
      = (request.settle (.files (before ++ names))).map .evaluation := by
  induction names generalizing before with
  | nil =>
    rw [List.append_nil, readArguments]
    cases request.settle (.files before) <;> rfl
  | cons name rest ih =>
    obtain ⟨hname, hrest⟩ := List.forall_mem_cons.1 hnames
    rw [readArguments, hname.shape]
    simp only [ih hrest, List.append_assoc, List.singleton_append]

/-! ## File names behind options -/

/-- What follows is reached from a result only. -/
theorem bind_eq_ok_iff {ε α β : Type} {x : Except ε α} {next : α → Except ε β} {b : β} :
    (x >>= next) = .ok b ↔ ∃ a, x = .ok a ∧ next a = .ok b := by
  cases x with
  | error e =>
    constructor
    · intro h
      cases h
    · rintro ⟨_, h, -⟩
      cases h
  | ok a =>
    constructor
    · exact fun h => ⟨a, rfl, h⟩
    · rintro ⟨_, ha, h⟩
      cases ha
      exact h

section

variable {names : List String} (hnames : ∀ name ∈ names, IsFileName name)

include hnames

/-- Behind arguments that end with something held, file names settle it as the end would. -/
theorem readArguments_held {request result : Request} {held : Held}
    (h : request.settle held = .ok result) (hfiles : result.files = []) :
    readArguments request held names = .ok (.evaluation { result with files := names }) := by
  cases names with
  | nil =>
    obtain ⟨maxExpansions, logLevel, files⟩ := result
    obtain rfl : files = [] := hfiles
    rw [readArguments, h]
    rfl
  | cons name rest =>
    obtain ⟨hname, hrest⟩ := List.forall_mem_cons.1 hnames
    have hmade : readArguments result (.files [name]) rest
        = .ok (.evaluation { result with files := name :: rest }) := by
      rw [readArguments_names hrest, List.singleton_append, settle_files hnames, hfiles]
      rfl
    unfold readArguments
    match held, h with
    | .nothing, h =>
      simp only [hname.shape, h]
      exact hmade
    | .setting _ none, h => cases h
    | .setting setting (some value), h =>
      simp only [hname.shape, h]
      exact hmade
    | .files before, h =>
      obtain ⟨rfl, rfl, -⟩ := eq_of_settle_files h hfiles
      simp only [hname.shape]
      exact hmade

/-- Behind a separator everything is a file name. -/
theorem readFiles_append {request result : Request} {held : Held} {arguments : List String}
    (h : readFiles request held arguments = .ok result) (hfiles : result.files = []) :
    readFiles request held (arguments ++ names) = .ok { result with files := names } := by
  have hsettle : ∀ {r : Request} {before : List String},
      r.settle (.files before) = .ok result →
        r.settle (.files (before ++ names)) = .ok { result with files := names } := by
    intro r before hr
    obtain ⟨rfl, rfl, hnone⟩ := eq_of_settle_files hr hfiles
    rw [List.nil_append, settle_files hnames, hnone]
    rfl
  match held with
  | .files before =>
    have hsame : before ++ (arguments ++ names) = before ++ arguments ++ names :=
      (List.append_assoc ..).symm
    rw [readFiles, hsame]
    exact hsettle h
  | .nothing => exact hsettle h
  | .setting setting value =>
    obtain ⟨settled, hheld, h⟩ := bind_eq_ok_iff.1 h
    exact bind_eq_ok_iff.2 ⟨settled, hheld, hsettle h⟩

/-- Behind options that are good, file names are the files. The induction is on the options, and
with each of them what is held changes. -/
theorem readArguments_append {request result : Request} {held : Held} {options : List String}
    (h : readArguments request held options = .ok (.evaluation result))
    (hfiles : result.files = []) :
    readArguments request held (options ++ names)
      = .ok (.evaluation { result with files := names }) := by
  induction options generalizing request held with
  | nil =>
    obtain ⟨settled, hheld, h⟩ := bind_eq_ok_iff.1 h
    cases h
    exact readArguments_held hnames hheld hfiles
  | cons argument rest ih =>
    -- Going on from the same request is going on to the same result.
    have hgoOn : ∀ {x : Except UsageError Request} {next : Held},
        (x >>= fun r => readArguments r next rest) = .ok (.evaluation result) →
          (x >>= fun r => readArguments r next (rest ++ names))
            = .ok (.evaluation { result with files := names }) := by
      intro x next hx
      obtain ⟨r, hr, hread⟩ := bind_eq_ok_iff.1 hx
      exact bind_eq_ok_iff.2 ⟨r, hr, ih hread⟩
    rw [List.cons_append]
    unfold readArguments at h ⊢
    cases hshape : Shape.ofArgument argument with
    | separator =>
      simp only [hshape] at h ⊢
      obtain ⟨settled, hread, h⟩ := bind_eq_ok_iff.1 h
      cases h
      exact bind_eq_ok_iff.2 ⟨_, readFiles_append hnames hread hfiles, rfl⟩
    | long name value =>
      simp only [hshape] at h ⊢
      cases hsetting : Setting.ofName? name with
      | some setting =>
        cases value with
        | none =>
          simp only [hsetting] at h ⊢
          exact hgoOn h
        | some value =>
          simp only [hsetting] at h ⊢
          obtain ⟨settled, hheld, h⟩ := bind_eq_ok_iff.1 h
          exact bind_eq_ok_iff.2 ⟨settled, hheld, hgoOn h⟩
      | none =>
        -- Help was asked for, or the argument cannot be read.
        cases value <;> simp only [hsetting] at h <;> split at h
        case none.isTrue =>
          obtain ⟨_, -, h⟩ := bind_eq_ok_iff.1 h
          cases h
        all_goals cases h
    | short letter =>
      simp only [hshape] at h
      split at h
      · obtain ⟨_, -, h⟩ := bind_eq_ok_iff.1 h
        cases h
      · cases h
    | plain =>
      simp only [hshape] at h ⊢
      match held, h with
      | .setting setting none, h => exact ih h
      | .files before, h => exact ih h
      | .nothing, h => exact hgoOn h
      | .setting setting (some value), h => exact hgoOn h

/-- **File names behind options ask for these files**, and for what the options ask for. -/
theorem ofArguments_append_names {request : Request} {options : List String}
    (h : Invocation.ofArguments options = .ok (.evaluation request)) (hfiles : request.files = []) :
    Invocation.ofArguments (options ++ names)
      = .ok (.evaluation { request with files := names }) :=
  readArguments_append hnames h hfiles

end

/-! ## The limit -/

/-- Digits add to what has been read. -/
theorem le_ofDigitChars (digits : List Char) (n : Nat) : n ≤ Nat.ofDigitChars 10 digits n := by
  rw [Nat.ofDigitChars_eq_ofDigitChars_zero]
  have hpos : 1 ≤ 10 ^ digits.length := Nat.one_le_pow _ _ (by decide)
  exact Nat.le_trans (Nat.le_mul_of_pos_left n hpos) (Nat.le_add_right _ _)

/-- Digits are read as the number they stand for, if this is not too large. -/
theorem countAfter_digits {digits : List Char} (hdigits : ∀ c ∈ digits, c.isDigit = true) {n : Nat}
    (hsmall : Nat.ofDigitChars 10 digits n < 2 ^ 64) :
    countAfter n digits = .ok (Nat.ofDigitChars 10 digits n) := by
  induction digits generalizing n with
  | nil => rfl
  | cons c rest ih =>
    obtain ⟨hc, hrest⟩ := List.forall_mem_cons.1 hdigits
    rw [Nat.ofDigitChars_cons] at hsmall ⊢
    have hnext : 10 * n + (c.toNat - '0'.toNat) < 2 ^ 64 :=
      Nat.lt_of_le_of_lt (le_ofDigitChars rest _) hsmall
    have hread : countAfter n (c :: rest)
        = countAfter (10 * n + (c.toNat - '0'.toNat)) rest := by
      show (if c.isDigit then
          if 10 * n + (c.toNat - '0'.toNat) < 2 ^ 64 then _ else Except.error CountError.tooLarge
        else Except.error CountError.notDigit) = _
      rw [if_pos hc, if_pos hnext]
    rw [hread]
    exact ih hrest hsmall

/-- A number begins with a digit. -/
theorem repr_eq_cons (n : Nat) : ∃ c rest, n.repr.toList = c :: rest ∧ c.isDigit = true := by
  rw [Nat.toList_repr]
  obtain ⟨c, rest, hcons⟩ := List.exists_cons_of_ne_nil (Nat.toDigits_ne_nil (n := n) (b := 10))
  refine ⟨c, rest, hcons, Nat.isDigit_of_mem_toDigits (b := 10) (n := n) (by decide) (by decide) ?_⟩
  rw [hcons]
  exact List.mem_cons_self

theorem isFileName_repr (n : Nat) : IsFileName n.repr := by
  obtain ⟨c, rest, hcons, hc⟩ := repr_eq_cons n
  refine ⟨c, rest, hcons, ?_⟩
  rintro rfl
  exact absurd hc (by decide)

/-- A number is read back, if it is not too large. -/
theorem readCount_repr {n : Nat} (h : n < 2 ^ 64) : readCount n.repr.toList = .ok n := by
  have hdigits : ∀ c ∈ n.repr.toList, c.isDigit = true := by
    rw [Nat.toList_repr]
    exact fun c hc => Nat.isDigit_of_mem_toDigits (by decide) (by decide) hc
  have hvalue : Nat.ofDigitChars 10 n.repr.toList 0 = n := by
    rw [Nat.toList_repr, Nat.ofDigitChars_ten_toDigits]
  have hread : countAfter 0 n.repr.toList = .ok n := by
    rw [countAfter_digits hdigits (by rwa [hvalue]), hvalue]
  obtain ⟨c, rest, hcons, hc⟩ := repr_eq_cons n
  rw [hcons] at hread ⊢
  unfold readCount
  split
  · rename_i heq
    cases heq
  · rename_i heq
    cases heq
    exact absurd hc (by decide)
  · exact hread

/-- The options that set a limit, or none. -/
def limitOption : Option Nat → List String
  | none => []
  | some n => ["--max-expansions", n.repr]

/-! ## The log level -/

/-- What begins with a character that is not white space still does so when it is trimmed. -/
theorem trim_cons {c : Char} (hc : Text.isWhiteSpace c = false) (text : List Char) :
    ∃ rest, Text.trim (c :: text) = c :: rest := by
  rw [Text.trim, List.dropWhile_cons_of_neg (by simp [hc]), List.reverse_cons,
    List.dropWhile_append]
  split
  · exact ⟨[], by simp [hc]⟩
  · exact ⟨_, by rw [List.reverse_append, List.reverse_singleton, List.singleton_append]⟩

/-- No level has a name that is empty or begins with a dash. -/
theorem isFileName_of_ofName? {name : String} (h : Verbosity.ofName? name ≠ none) :
    IsFileName name := by
  have hhead : name.toLower.toList.head? = name.toList.head?.map Char.toLower := by
    show (name.map Char.toLower).toList.head? = _
    rw [String.toList_map, List.head?_map]
  rw [Verbosity.ofName?] at h
  split at h
  case h_7 => exact absurd rfl h
  all_goals
    rename_i heq
    rw [heq] at hhead
    cases hname : name.toList with
    | nil =>
      rw [hname] at hhead
      cases hhead
    | cons c rest =>
      refine ⟨c, rest, hname, ?_⟩
      rintro rfl
      rw [hname] at hhead
      cases hhead

/-- The text is the name of a level, perhaps with white space around it. -/
def IsLevelName (text : String) : Prop :=
  Verbosity.ofName? (String.ofList (Text.trim text.toList)) ≠ none

/-- So it can stand behind its option. -/
theorem IsLevelName.isFileName {text : String} (h : IsLevelName text) : IsFileName text := by
  obtain ⟨c, rest, hc, hdash⟩ := isFileName_of_ofName? h
  rw [String.toList_ofList] at hc
  cases htext : text.toList with
  | nil =>
    rw [htext] at hc
    cases hc
  | cons first others =>
    refine ⟨first, others, htext, ?_⟩
    rintro rfl
    obtain ⟨rest', hrest⟩ := trim_cons (c := '-') (by decide) others
    rw [htext, hrest] at hc
    exact hdash (List.cons.inj hc).1.symm

/-- The options that set a level, or none. -/
def levelOption : Option String → List String
  | none => []
  | some level => ["--log-level", level]

/-- An option settles what is held, and is then held with its value. -/
theorem readArguments_setting (request : Request) (held : Held) (setting : Setting)
    {value : String} (hvalue : IsFileName value) (rest : List String) :
    readArguments request held (("--" ++ setting.name) :: value :: rest)
      = request.settle held
          >>= fun settled => readArguments settled (.setting setting (some value)) rest := by
  have hshape : Shape.ofArgument ("--" ++ setting.name) = .long setting.name none := by
    cases setting <;> rfl
  have hname : Setting.ofName? setting.name = some setting := by
    cases setting <;> decide
  rw [readArguments.eq_def]
  simp only [hshape, hname]
  congr 1
  funext settled
  rw [readArguments.eq_def]
  simp only [hvalue.shape]

/-- The level settles what is held, whether it is given or not. -/
theorem readArguments_levelOption {level : Option String}
    (hlevel : ∀ name ∈ level, IsLevelName name) (request : Request) (held : Held)
    {settled : Request} (h : request.settle held = .ok settled) (hnone : settled.logLevel = none) :
    readArguments request held (levelOption level)
      = .ok (.evaluation { settled with logLevel := level }) := by
  match level, hlevel with
  | none, _ =>
    rw [levelOption, readArguments, h, ← hnone]
    rfl
  | some name, hlevel =>
    have hassign : settled.assign .logLevel name = .ok { settled with logLevel := some name } := by
      rw [Request.assign, hnone]
    calc readArguments request held ["--log-level", name]
      _ = request.settle held
            >>= fun r => readArguments r (.setting .logLevel (some name)) [] :=
          readArguments_setting request held .logLevel (hlevel name rfl).isFileName []
      _ = .ok (.evaluation { settled with logLevel := some name }) :=
          bind_eq_ok_iff.2 ⟨settled, h, bind_eq_ok_iff.2 ⟨_, hassign, rfl⟩⟩

/-- A limit and a level are what is asked for. -/
theorem ofArguments_options {limit : Option Nat} (hlimit : ∀ n ∈ limit, n < 2 ^ 64)
    {level : Option String} (hlevel : ∀ name ∈ level, IsLevelName name) :
    Invocation.ofArguments (limitOption limit ++ levelOption level)
      = .ok (.evaluation ⟨limit, level, []⟩) := by
  match limit, hlimit with
  | none, _ => exact readArguments_levelOption hlevel .empty .nothing rfl rfl
  | some n, hlimit =>
    have hassign : Request.empty.assign .maxExpansions n.repr = .ok ⟨some n, none, []⟩ := by
      simp only [Request.assign, Request.empty, readCount_repr (hlimit n rfl)]
    calc readArguments .empty .nothing ("--max-expansions" :: n.repr :: levelOption level)
      _ = readArguments .empty (.setting .maxExpansions (some n.repr)) (levelOption level) :=
          readArguments_setting .empty .nothing .maxExpansions (isFileName_repr n) _
      _ = .ok (.evaluation ⟨some n, level, []⟩) :=
          readArguments_levelOption hlevel .empty (.setting .maxExpansions (some n.repr)) hassign rfl

theorem ofArguments_limitOption {limit : Option Nat} (h : ∀ n ∈ limit, n < 2 ^ 64) :
    Invocation.ofArguments (limitOption limit) = .ok (.evaluation ⟨limit, none, []⟩) := by
  have hnone : ∀ name ∈ (none : Option String), IsLevelName name := by
    intro name hname
    cases hname
  have hoptions := ofArguments_options h hnone
  rwa [levelOption, List.append_nil] at hoptions

end Concatenative.CommandLine
