import MatrixLang.Text.BreakClass

/-! # Clusters

A text is cut into what its reader takes for single characters: a base with its marks, a Hangul
syllable, an Indic conjunct, a flag, or a pictograph with all that is joined to it. The cut loses
nothing (`flatten_clusters`).
-/

namespace MatrixLang.Text

abbrev Cluster := List Char

/-- What the end of a cluster decides about the character behind it. -/
structure Tail where
  last : Char
  oddRegionals : Bool
  pictograph : Bool
  joined : Bool
  consonant : Bool
  linked : Bool

namespace Tail

def push (t : Tail) (c : Char) : Tail :=
  let b := BreakClass.ofChar c
  let transparent := b = .joiner ∨ b = .extend ∧ c ≠ '\u200c'
  { last := c
    oddRegionals := b = .regional && !t.oddRegionals
    pictograph := b = .pictograph || b = .extend && t.pictograph
    joined := b = .joiner && t.pictograph
    consonant := isConsonant c || transparent && t.consonant
    linked := transparent && t.consonant && (t.linked || isLinker c) }

def ofChar (c : Char) : Tail := push ⟨c, false, false, false, false, false⟩ c

/-- Whether the cluster goes on with `c`. -/
def joins (t : Tail) (c : Char) : Bool :=
  match BreakClass.ofChar t.last, BreakClass.ofChar c with
  | .control, _ => t.last = '\r' && c = '\n'
  | _, .control => false
  | _, .extend | _, .joiner | _, .spacing | .prepend, _ => true
  | .leading, .leading | .leading, .vowel | .leading, .openSyllable
  | .leading, .closedSyllable => true
  | .vowel, .vowel | .vowel, .trailing | .openSyllable, .vowel | .openSyllable, .trailing => true
  | .trailing, .trailing | .closedSyllable, .trailing => true
  | .regional, .regional => t.oddRegionals
  | _, .pictograph => t.joined
  | _, _ => t.linked && isConsonant c

end Tail

/-- The clusters of a text of which the first one has begun, given backwards with its tail. -/
def clustersFrom (t : Tail) (begun : List Char) : List Char → List Cluster
  | [] => [begun.reverse]
  | c :: cs =>
    if t.joins c then clustersFrom (t.push c) (c :: begun) cs
    else begun.reverse :: clustersFrom (Tail.ofChar c) [c] cs

def clusters : List Char → List Cluster
  | [] => []
  | c :: cs => clustersFrom (Tail.ofChar c) [c] cs

theorem flatten_clustersFrom (t : Tail) (begun cs : List Char) :
    (clustersFrom t begun cs).flatten = begun.reverse ++ cs := by
  induction cs generalizing t begun with
  | nil => simp [clustersFrom]
  | cons c cs ih =>
    rw [clustersFrom]
    split
    · simp [ih]
    · simp [ih]

theorem flatten_clusters (cs : List Char) : (clusters cs).flatten = cs := by
  cases cs with
  | nil => rfl
  | cons c cs => simp [clusters, flatten_clustersFrom]

end MatrixLang.Text
