import MatrixLang.Text.ClusterWidth
import MatrixLang.Viewer.Terminal

/-! # The standard terminal

A widget comes to a list of layers, each of which restyles or overwrites some cells of those below
it. A symbol may be wider than its cell; it then hides the cell behind it.
-/

namespace MatrixLang.Viewer

/-- So many hundredths of a length, a half rounded up. -/
def hundredths (percent length : Nat) : Nat := (length * percent + 50) / 100

/-- A symbol in its style, and the number of cells that it takes. -/
structure Glyph where
  symbol : Text.Cluster
  style : Style
  width : Nat

/-- What a line does to a cell. -/
inductive Mark where
  | write (symbol : Text.Cluster) (style : Style)
  | erase
  | leave

namespace Glyph

def totalWidth : List Glyph → Nat
  | [] => 0
  | g :: gs => g.width + totalWidth gs

def fit (room : Nat) : List Glyph → List Glyph
  | [] => []
  | g :: gs => if g.width ≤ room then g :: fit (room - g.width) gs else []

/-- The glyphs `g :: gs`, where one that fills no cell shares the cell before it, be it one that a
wide glyph covers. The first cell takes all glyphs up to the first that fills it. -/
def shareFrom (g : Glyph) : List Glyph → List Glyph
  | [] => if g.width = 0 then [] else [g]
  | h :: gs =>
    if g.width = 0 ∨ h.width = 0 ∧ g.width = 1 then
      shareFrom { g with symbol := g.symbol ++ h.symbol, width := g.width + h.width } gs
    else if h.width = 0 then
      { g with width := g.width - 1 } :: shareFrom ⟨' ' :: h.symbol, h.style, 1⟩ gs
    else g :: shareFrom h gs

def share : List Glyph → List Glyph
  | [] => []
  | g :: gs => shareFrom g gs

/-- The marks of glyphs side by side, with a given one in the cells that a wide glyph covers. -/
def marks (covered : Mark) (gs : List Glyph) : List Mark :=
  gs.flatMap fun g => match g.width with
    | 0 => []
    | n + 1 => .write g.symbol g.style :: List.replicate n covered

end Glyph

/-- The clusters of a span; a line break is not shown. -/
def Span.glyphs (s : Span) : List Glyph :=
  ((Text.clusters s.text).filter (· != ['\n'])).map fun c => ⟨c, s.style, Text.clusterWidth c⟩

namespace Line

def glyphs (l : Line) : List Glyph := l.flatMap (·.glyphs)

/-- The glyphs of a line that are shown in `width` cells; one that is wider is passed over. -/
def shown (l : Line) (width : Nat) : List Glyph :=
  Glyph.fit width (l.glyphs.filter (·.width ≤ width))

/-- The glyphs of an entry that are shown in `room` cells. In each span, those that fill no cell
share one with others. -/
def shownShared (room : Nat) : Line → List Glyph
  | [] => []
  | s :: l =>
    if room = 0 then []
    else Glyph.share (Glyph.fit room s.glyphs) ++
      shownShared (room - Glyph.totalWidth s.glyphs) l

end Line

inductive Layer where
  | fill (area : Area) (style : Style)
  | border (area : Area) (style : Style)
  | marks (left top : Nat) (ms : List Mark)

namespace Layer

/-- The piece of the border at a cell of the area. Where edges meet in a single row or column, the
left corners win over the right ones and the upper over the lower. -/
def borderSymbol? (a : Area) (x y : Nat) : Option Char :=
  let right := a.left + a.width - 1
  let bottom := a.top + a.height - 1
  if !a.contains x y then none
  else if x = a.left ∧ y = a.top then some '┌'
  else if x = a.left ∧ y = bottom then some '└'
  else if x = right ∧ y = a.top then some '┐'
  else if x = right ∧ y = bottom then some '┘'
  else if y = a.top ∨ y = bottom then some '─'
  else if x = a.left ∨ x = right then some '│'
  else none

def paint (x y : Nat) (c : Cell) : Layer → Cell
  | .fill area style => if area.contains x y then c.restyle style else c
  | .border area style =>
    match borderSymbol? area x y with
    | some symbol => { c with symbol := [symbol] }.restyle style
    | none => c
  | .marks left top ms =>
    if y = top ∧ left ≤ x then
      match ms[x - left]? with
      | some (.write symbol style) => { c with symbol }.restyle style
      | some .erase => Cell.blank
      | some .leave | none => c
    else c

def ofLine (a : Area) (i : Nat) (l : Line) : Layer :=
  .marks a.left (a.top + i) (Glyph.marks .leave (l.shown a.width))

/-- A line at the right edge of the row number `i`; one that does not fit is cut there. -/
def ofLineRight (a : Area) (i : Nat) (l : Line) : Layer :=
  let ms := Glyph.marks .leave (l.shown a.width)
  .marks (a.left + (a.width - ms.length)) (a.top + i) ms

def ofEntry (a : Area) (i : Nat) (l : Line) : Layer :=
  .marks a.left (a.top + i) (Glyph.marks .erase (Line.shownShared a.width l))

def ofAligned : Alignment → Area → Nat → Line → Layer
  | .left => ofLine
  | .right => ofLineRight

end Layer

def Block.layers (b : Block) (a : Area) : List Layer :=
  if a.isEmpty then []
  else
    [.border a b.style,
      .ofLine ⟨a.left + 1, a.top, a.width - 2, 1⟩ 0 [⟨b.title.toList, .transparent⟩]]

def Area.rowLayers {α : Type} (a : Area) (f : Nat → α → List Layer) (as : List α) : List Layer :=
  ((as.take a.height).mapIdx f).flatten

def Widget.layers (a : Area) : Widget → List Layer
  | .paragraph lines block? style alignment =>
    let inside := block?.elim a (a.inside ·.padding)
    .fill a style :: block?.elim [] (·.layers a) ++
      inside.rowLayers (fun i l => [.ofAligned alignment inside i l]) lines
  | .list items block =>
    let inside := a.inside block.padding
    block.layers a ++
      inside.rowLayers (fun i e => [.fill (inside.row i) e.style, .ofEntry inside i e.line]) items

def Cell.isWide (c : Cell) : Bool := 1 < Text.clusterWidth c.symbol

namespace Terminal

def firstLength (first second : Constraint) (length : Nat) : Nat :=
  match first, second with
  | .percentage percent, _ => min (hundredths percent length) length
  | _, .length n => length - n
  | .length n, _ => min n length
  | .atLeast _, _ => length

def standard : Terminal where
  clusters := Text.clusters
  clusterWidth := Text.clusterWidth
  split
    | .horizontal, first, second, a => a.splitColumns (firstLength first second a.width)
    | .vertical, first, second, a => a.splitRows (firstLength first second a.height)
  render w a s :=
    let layers := w.layers a
    { s with cell := fun x y => layers.foldl (fun c l => l.paint x y c) (s.cell x y) }
  flush row :=
    List.zipWith (fun before c => if before.isWide then .blank else c) (.blank :: row) row

end Terminal

def Drawing.rows (d : Drawing) (width height : Nat) : List (List Cell) :=
  Terminal.standard.rows d width height

end MatrixLang.Viewer
