import MatrixLang.Viewer.Screen

/-! # Terminals

The viewer hands widgets to a terminal, each with an area, and the terminal draws them one after the
other. It also cuts areas in two, and it knows what a reader takes for a single character.
-/

namespace MatrixLang.Viewer

/-- A border with a title in its upper edge, and some blank columns behind its left edge. -/
structure Block where
  title : String
  style : Style
  padding : Nat
  deriving DecidableEq, Repr

inductive Alignment where
  | left
  | right
  deriving DecidableEq, Repr

/-- An entry of a list; its style is that of its whole row. -/
structure Item where
  line : Line
  style : Style
  deriving DecidableEq, Repr

inductive Widget where
  | paragraph (lines : List Line) (block? : Option Block) (style : Style) (alignment : Alignment)
  | list (items : List Item) (block : Block)
  deriving DecidableEq, Repr

structure Placement where
  widget : Widget
  area : Area
  deriving DecidableEq, Repr

/-- What is drawn, the lowest widget first. -/
abbrev Drawing := List Placement

inductive Direction where
  | horizontal
  | vertical
  deriving DecidableEq, Repr

inductive Constraint where
  | atLeast (n : Nat)
  | length (n : Nat)
  | percentage (percent : Nat)
  deriving DecidableEq, Repr

structure Terminal where
  clusters : List Char → List (List Char)
  /-- The number of cells that a cluster fills. -/
  clusterWidth : List Char → Nat
  split : Direction → Constraint → Constraint → Area → Area × Area
  render : Widget → Area → Screen → Screen
  /-- What is seen of a row of cells. -/
  flush : List Cell → List Cell

namespace Terminal

variable (t : Terminal)

def screen (d : Drawing) (width height : Nat) : Screen :=
  d.foldl (fun s p => t.render p.widget p.area s) (.blank width height)

def rows (d : Drawing) (width height : Nat) : List (List Cell) :=
  let s := t.screen d width height
  (List.range height).map fun y => t.flush (s.row ⟨0, 0, width, height⟩ y)

end Terminal

end MatrixLang.Viewer
