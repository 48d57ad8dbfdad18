import MatrixLang.Viewer.Style

/-! # Screens

A screen is a rectangle of cells. What is put on it comes as lines of styled characters.
-/

namespace MatrixLang.Viewer

structure Area where
  left : Nat
  top : Nat
  width : Nat
  height : Nat
  deriving DecidableEq, Repr

namespace Area

def contains (a : Area) (x y : Nat) : Bool :=
  a.left ≤ x && x < a.left + a.width && a.top ≤ y && y < a.top + a.height

/-- The area less one cell on each side, and less some more columns at the left. -/
def inside (a : Area) (padding : Nat) : Area :=
  ⟨a.left + 1 + padding, a.top + 1, a.width - 2 - padding, a.height - 2⟩

def isEmpty (a : Area) : Bool := a.width = 0 || a.height = 0

def row (a : Area) (i : Nat) : Area := ⟨a.left, a.top + i, a.width, 1⟩

def splitColumns (a : Area) (n : Nat) : Area × Area :=
  ({ a with width := n }, { a with left := a.left + n, width := a.width - n })

def splitRows (a : Area) (n : Nat) : Area × Area :=
  ({ a with height := n }, { a with top := a.top + n, height := a.height - n })

end Area

/-- A symbol is a character, or several that share a cell. -/
structure Cell where
  symbol : List Char
  foreground : Color
  background : Color
  bold : Bool
  deriving DecidableEq, Repr

namespace Cell

def blank : Cell := ⟨[' '], .unset, .unset, false⟩

def restyle (c : Cell) (s : Style) : Cell :=
  { c with
    foreground := s.foreground?.getD c.foreground
    background := s.background?.getD c.background
    bold := c.bold || s.bold }

end Cell

structure Screen where
  width : Nat
  height : Nat
  cell : Nat → Nat → Cell

namespace Screen

def blank (width height : Nat) : Screen := ⟨width, height, fun _ _ => .blank⟩

def row (s : Screen) (a : Area) (j : Nat) : List Cell :=
  (List.range a.width).map fun i => s.cell (a.left + i) (a.top + j)

end Screen

structure Span where
  text : List Char
  style : Style
  deriving DecidableEq, Repr

abbrev Line := List Span

def Line.text (l : Line) : List Char := l.flatMap (·.text)

end MatrixLang.Viewer
