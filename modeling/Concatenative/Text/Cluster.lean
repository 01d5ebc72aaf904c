/-
The clusters of a text: the units that a reader takes for one character each.

A cluster is a letter with its marks, a syllable of Hangul, a flag, a picture
composed of several, or simply a character. Whether the next character still
belongs to a cluster is decided from that character and from the cluster so far,
so a text is cut from the left in one pass and every character ends up in exactly
one cluster.
-/
import Concatenative.Text.ClusterTable

set_option autoImplicit false

namespace Concatenative.Text

/-! ## Classes of characters -/

/-- What a character does at the edge of a cluster. -/
inductive ClusterClass where
  | carriageReturn
  | lineFeed
  | control
  | extend
  | joiner
  | spacingMark
  | prepend
  | regionalIndicator
  | leading
  | vowel
  | trailing
  /-- A Hangul syllable without a trailing consonant. -/
  | openSyllable
  /-- A Hangul syllable with a trailing consonant. -/
  | closedSyllable
  | pictograph
  | conjunctConsonant
  | other
  deriving DecidableEq

/-- The class of a Hangul syllable. The syllables stand in the order of their
parts, with 27 trailing consonants and none for every pair of the other two. -/
def syllableClass (n : Nat) : ClusterClass :=
  if (n - 0xAC00) % 28 = 0 then .openSyllable else .closedSyllable

/-- The class of a character. -/
def ClusterClass.of (c : Char) : ClusterClass :=
  -- Most text is printable ASCII, which needs no table.
  if ' ' ≤ c && c ≤ '~' then .other
  else if c = '\r' then .carriageReturn
  else if c = '\n' then .lineFeed
  else if c = '\u200D' then .joiner
  else if 0xAC00 ≤ c.toNat && c.toNat ≤ 0xD7A3 then syllableClass c.toNat
  else if inRanges controlRanges c then .control
  else if inRanges extendRanges c then .extend
  else if inRanges spacingMarkRanges c then .spacingMark
  else if inRanges prependRanges c then .prepend
  else if inRanges regionalIndicatorRanges c then .regionalIndicator
  else if inRanges leadingRanges c then .leading
  else if inRanges vowelRanges c then .vowel
  else if inRanges trailingRanges c then .trailing
  else if inRanges pictographRanges c then .pictograph
  else if inRanges conjunctConsonantRanges c then .conjunctConsonant
  else .other

namespace ClusterClass

/-- Whether a character of the class stands alone, but for a line feed behind a
carriage return. -/
def standsAlone : ClusterClass → Bool
  | carriageReturn | lineFeed | control => true
  | _ => false

/-- Whether a character of the class belongs to whatever stands before it. -/
def clings : ClusterClass → Bool
  | extend | joiner | spacingMark => true
  | _ => false

/-- Whether the second of two classes continues a Hangul syllable that ends in
the first. -/
def continuesSyllable : ClusterClass → ClusterClass → Bool
  | leading, leading | leading, vowel | leading, openSyllable | leading, closedSyllable => true
  | openSyllable, vowel | openSyllable, trailing | vowel, vowel | vowel, trailing => true
  | closedSyllable, trailing | trailing, trailing => true
  | _, _ => false

end ClusterClass

/-! ## Longer contexts

A cluster is held with its last character first. -/

/-- Whether a mark links two consonants. -/
def isLinker (c : Char) : Bool :=
  inRanges conjunctLinkerRanges c

/-- Whether a character may stand among the marks that link two consonants. The
zero-width non-joiner keeps them apart. -/
def isAmongLinkers (c : Char) : Bool :=
  (ClusterClass.of c = .extend || ClusterClass.of c = .joiner) && c ≠ '\u200C'

/-- Whether a cluster ends in a consonant that is linked to the next one. -/
def endsInLink (cluster : List Char) : Bool :=
  (cluster.takeWhile isAmongLinkers).any isLinker &&
    match cluster.dropWhile isAmongLinkers with
    | [] => false
    | c :: _ => ClusterClass.of c = .conjunctConsonant

/-- Whether a cluster ends in a picture, perhaps with marks. -/
def endsInPictograph (cluster : List Char) : Bool :=
  match cluster.dropWhile fun c => ClusterClass.of c = .extend with
  | [] => false
  | c :: _ => ClusterClass.of c = .pictograph

/-- Whether a cluster ends in the first half of a flag. -/
def endsInHalfFlag (cluster : List Char) : Bool :=
  (cluster.takeWhile fun c => ClusterClass.of c = .regionalIndicator).length % 2 = 1

/-! ## Clusters -/

/-- Whether a cluster whose last character is `last`, behind `before`, goes on
with `c`. -/
def goesOn (last : Char) (before : List Char) (c : Char) : Bool :=
  let left := ClusterClass.of last
  let right := ClusterClass.of c
  if left = .carriageReturn && right = .lineFeed then true
  else if left.standsAlone || right.standsAlone then false
  else if right.clings || left = .prepend || left.continuesSyllable right then true
  else match right with
    | .conjunctConsonant => endsInLink (last :: before)
    | .pictograph => left = .joiner && endsInPictograph before
    | .regionalIndicator => endsInHalfFlag (last :: before)
    | _ => false

/-- The clusters of a text of which the characters `last` and `before` have been
read and may form a cluster with the next. -/
def clustersAfter (last : Char) (before : List Char) : List Char → List (List Char)
  | [] => [(last :: before).reverse]
  | c :: rest =>
    if goesOn last before c then clustersAfter c (last :: before) rest
    else (last :: before).reverse :: clustersAfter c [] rest

/-- The clusters of a text, in order. -/
def clusters : List Char → List (List Char)
  | [] => []
  | c :: rest => clustersAfter c [] rest

theorem flatten_clustersAfter (last : Char) (before rest : List Char) :
    (clustersAfter last before rest).flatten = (last :: before).reverse ++ rest := by
  induction rest generalizing last before with
  | nil => simp [clustersAfter]
  | cons c rest ih =>
    by_cases h : goesOn last before c = true
    · rw [clustersAfter, if_pos h, ih]
      simp
    · rw [clustersAfter, if_neg h, List.flatten_cons, ih]
      simp

/-- Nothing is lost and nothing moves. -/
@[simp] theorem flatten_clusters (text : List Char) : (clusters text).flatten = text := by
  cases text with
  | nil => rfl
  | cons c rest => simp [clusters, flatten_clustersAfter]

end Concatenative.Text
