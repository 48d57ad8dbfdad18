import MatrixLang.Text.Cluster
import MatrixLang.Text.Emoji

/-! # Widths of clusters

A cluster is as wide as its characters together, with some exceptions: a picture is two cells wide
whatever is joined to it, a selector settles the width of the character before it, and a Khmer
letter written below another one takes no room. All of these depend on what stands behind a
character, so that the width is found from the end.
-/

namespace MatrixLang.Text

/-- What stands behind a character, as far as the width before it depends on it. -/
inductive Follower where
  | plain
  | textSelector
  | pictureSelector
  | modifier
  | picture
  | joinedPicture
  | joinedKeycap
  | joinedSelector
  | joinedTags (count : Nat)
  | subscript
  deriving DecidableEq, Repr

/-- Marks a key, with a selector before it. -/
def keycap : Char := '\u20e3'

/-- Puts the Khmer letter behind it below the one before it. -/
def coeng : Char := '\u17d2'

def subscriptRanges : Ranges :=
  [(0x1780, 0x1782), (0x1784, 0x1787), (0x1789, 0x178C), (0x178E, 0x1793), (0x1795, 0x1798),
   (0x179B, 0x179D), (0x17A0, 0x17A0), (0x17A2, 0x17A2), (0x17A7, 0x17A7), (0x17AB, 0x17AC),
   (0x17AF, 0x17AF)]

/-- The invisible marks that may stand between a letter and the sign that puts it below. -/
def transparentRanges : Ranges :=
  [(0x34F, 0x34F), (0x17B4, 0x17B5), (0x180B, 0x180D), (0x180F, 0x180F), (0x200D, 0x200D),
   (0xFE00, 0xFE0F), (0xE0100, 0xE01EF)]

/-- The digits and letters that name the region of a flag. -/
def tagRanges : Ranges := [(0xE0030, 0xE0039), (0xE0061, 0xE007A)]

def tagEnd : Char := Char.ofNat 0xE007F

def blackFlag : Char := Char.ofNat 0x1F3F4

namespace Follower

def ofChar (c : Char) : Follower :=
  if c = Text.textSelector then .textSelector
  else if c = Text.pictureSelector then .pictureSelector
  else if isModifier c then .modifier
  else if isPicture c then .picture
  else if inRanges c.toNat subscriptRanges then .subscript
  else .plain

/-- What a selector of pictures makes of what stands behind it. -/
def select : Follower → Follower
  | .joinedPicture | .joinedKeycap => .joinedSelector
  | .subscript => .subscript
  | _ => .pictureSelector

/-- What a selector of plain forms makes of what stands behind it. -/
def selectText : Follower → Follower
  | .subscript => .subscript
  | _ => .textSelector

end Follower

/-- The width of `c` and the text behind it, which fills `n` cells and begins as `f` says, and how
the whole begins. -/
def widen (c : Char) (n : Nat) (f : Follower) : Nat × Follower :=
  let alone := (n + width c, Follower.ofChar c)
  if c = pictureSelector then (n, f.select)
  else if c = textSelector then (n, f.selectText)
  else match f with
    | .plain | .joinedKeycap => alone
    | .textSelector => if isNarrowable c then (n + 1, .plain) else alone
    | .pictureSelector => if isSelectable c then (n + 2, .picture) else alone
    | .joinedSelector => if isSelectable c then (n, .picture) else alone
    | .modifier =>
      if isModifierBase c then (n, .picture)
      else if c = joiner then (n, .joinedPicture)
      else alone
    | .picture => if c = joiner then (n, .joinedPicture) else alone
    | .joinedPicture =>
      if c = keycap then (n, .joinedKeycap)
      else if c = tagEnd then (n, .joinedTags 0)
      else if isModifier c then (n, .modifier)
      else if isPicture c then (n, .picture)
      else alone
    | .joinedTags count =>
      if inRanges c.toNat tagRanges then (n, .joinedTags (count + 1))
      else if c = blackFlag ∧ 3 ≤ count ∧ count ≤ 6 then (n, .picture)
      else alone
    | .subscript =>
      if c = coeng then (n - 1, .plain)
      else if inRanges c.toNat transparentRanges then (n, .subscript)
      else alone

/-- The number of cells that a cluster fills; a line break of two characters fills none. -/
def clusterWidth : Cluster → Nat
  | ['\r', '\n'] => 0
  | cs => (cs.foldr (fun c (n, f) => widen c n f) (0, .plain)).1

end MatrixLang.Text
