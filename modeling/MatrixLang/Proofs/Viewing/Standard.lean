import MatrixLang.Proofs.Viewing.Row

/-! # The laws of the standard terminal

Every layer of a widget stays within the area of the widget, and inside the border only those of a
row reach its cells.
-/

namespace MatrixLang.Viewer

namespace Area

variable {a : Area} {x y i : Nat}

theorem covers_row (hi : i < a.height) : a.Covers (a.row i) := by
  intro x y h
  simp only [contains_iff, row] at *
  omega

theorem row_contains_of_ne {j : Nat} (h : i ≠ j) : (a.row i).contains x (a.top + j) = false := by
  simp only [contains_eq_false_iff, row]
  omega

theorem covers_splitColumns {n : Nat} (hn : n ≤ a.width) :
    a.Covers (a.splitColumns n).1 ∧ a.Covers (a.splitColumns n).2 := by
  constructor <;> intro x y h <;> simp only [contains_iff, splitColumns] at * <;> omega

theorem covers_splitRows {n : Nat} (hn : n ≤ a.height) :
    a.Covers (a.splitRows n).1 ∧ a.Covers (a.splitRows n).2 := by
  constructor <;> intro x y h <;> simp only [contains_iff, splitRows] at * <;> omega

theorem apart_splitColumns (a : Area) (n : Nat) :
    (a.splitColumns n).1.Apart (a.splitColumns n).2 := by
  intro x y h
  simp only [contains_iff, contains_eq_false_iff, splitColumns] at *
  omega

theorem apart_splitRows (a : Area) (n : Nat) : (a.splitRows n).1.Apart (a.splitRows n).2 := by
  intro x y h
  simp only [contains_iff, contains_eq_false_iff, splitRows] at *
  omega

end Area

namespace Layer

variable {a b : Area} {left top x y i j n : Nat} {c base : Cell} {ms : List Mark}

/-- A layer that leaves all cells outside an area alone. -/
def IsWithin (a : Area) (l : Layer) : Prop :=
  ∀ x y c, a.contains x y = false → l.paint x y c = c

theorem IsWithin.mono {l : Layer} (h : l.IsWithin b) (hab : a.Covers b) : l.IsWithin a := by
  intro x y c hout
  apply h
  cases hb : b.contains x y with
  | false => rfl
  | true => exact absurd (hab x y hb) (by simp [hout])

theorem isWithin_fill (a : Area) (s : Style) : (fill a s).IsWithin a := by
  intro x y c hout
  simp [paint, hout]

theorem isWithin_border (a : Area) (s : Style) : (border a s).IsWithin a := by
  intro x y c hout
  simp [paint, borderSymbol?, hout]

theorem paint_marks (left top i : Nat) (c : Cell) (ms : List Mark) :
    (marks left top ms).paint (left + i) top c = (ms[i]?.map (·.paint c)).getD c := by
  have hi : left + i - left = i := by omega
  simp only [paint, Nat.le_add_right, and_self, if_true, hi]
  rcases ms[i]? with _ | _ | _ | _ <;> rfl

theorem paint_marks_of_outside (h : ¬ (y = top ∧ left ≤ x ∧ x < left + ms.length)) :
    (marks left top ms).paint x y c = c := by
  by_cases hxy : y = top ∧ left ≤ x
  · have hbehind : ms[x - left]? = none := by
      rw [List.getElem?_eq_none_iff]
      omega
    simp only [paint, if_pos hxy, hbehind]
  · simp only [paint, if_neg hxy]

theorem paint_marks_nil (left top x y : Nat) (c : Cell) :
    (marks left top []).paint x y c = c :=
  paint_marks_of_outside (by rw [List.length_nil]; omega)

theorem isWithin_marks (i : Nat) (hleft : a.left ≤ left)
    (hright : left + ms.length ≤ a.left + a.width) :
    (marks left (a.top + i) ms).IsWithin (a.row i) := by
  intro x y c hout
  simp only [Area.contains_eq_false_iff, Area.row] at hout
  apply paint_marks_of_outside
  omega

theorem isWithin_ofAligned (alignment : Alignment) (a : Area) (i : Nat) (l : Line) :
    (ofAligned alignment a i l).IsWithin (a.row i) := by
  have hlength : (Glyph.marks .leave (l.shown a.width)).length ≤ a.width := by
    rw [Glyph.length_marks]
    exact l.totalWidth_shown_le a.width
  cases alignment <;> apply isWithin_marks i <;> omega

theorem isWithin_ofEntry (a : Area) (i : Nat) (l : Line) : (ofEntry a i l).IsWithin (a.row i) := by
  apply isWithin_marks i (Nat.le_refl _)
  rw [Glyph.length_marks]
  exact Nat.add_le_add_left (Line.totalWidth_shownShared_le a.width l) _

def AreWithin (a : Area) (ls : List Layer) : Prop := ∀ l ∈ ls, l.IsWithin a

section AreWithin

variable {ls ms : List Layer}

theorem AreWithin.mono (h : AreWithin b ls) (hab : a.Covers b) : AreWithin a ls :=
  fun l hl => (h l hl).mono hab

theorem areWithin_nil (a : Area) : AreWithin a [] := by
  intro l hl
  cases hl

theorem AreWithin.cons {l : Layer} (hl : l.IsWithin a) (h : AreWithin a ls) :
    AreWithin a (l :: ls) :=
  List.forall_mem_cons.mpr ⟨hl, h⟩

theorem AreWithin.append (hls : AreWithin a ls) (hms : AreWithin a ms) : AreWithin a (ls ++ ms) :=
  List.forall_mem_append.mpr ⟨hls, hms⟩

end AreWithin

def paintAll (ls : List Layer) (x y : Nat) (c : Cell) : Cell :=
  ls.foldl (fun c l => l.paint x y c) c

theorem paintAll_append (ls ms : List Layer) (x y : Nat) (c : Cell) :
    paintAll (ls ++ ms) x y c = paintAll ms x y (paintAll ls x y c) :=
  List.foldl_append

theorem paintAll_singleton (l : Layer) (x y : Nat) (c : Cell) :
    paintAll [l] x y c = l.paint x y c :=
  rfl

theorem AreWithin.paintAll_eq {ls : List Layer} (h : AreWithin a ls)
    (hout : a.contains x y = false) (c : Cell) : paintAll ls x y c = c := by
  induction ls generalizing c with
  | nil => rfl
  | cons l ls ih =>
    obtain ⟨hl, hls⟩ := List.forall_mem_cons.mp h
    rw [paintAll, List.foldl_cons, hl x y c hout]
    exact ih hls c

/-- The marks of glyphs make a row of cells that are all alike the row of these glyphs. -/
theorem map_paint_marks {covered : Mark} {gs : List Glyph} (hwidth : Glyph.totalWidth gs ≤ n) :
    ((List.range n).map fun i =>
        (marks left top (Glyph.marks covered gs)).paint (left + i) top base) =
      Glyph.row covered base n gs := by
  have hlength := Glyph.length_marks covered gs
  apply List.ext_getElem
  · rw [List.length_map, List.length_range, Glyph.length_row hwidth]
  · intro i hi _
    rw [List.length_map, List.length_range] at hi
    simp only [List.getElem_map, List.getElem_range, paint_marks, Glyph.row, Glyph.cells]
    by_cases h : i < Glyph.totalWidth gs
    · rw [List.getElem_append_left (by rw [List.length_map]; omega), List.getElem_map,
        List.getElem?_eq_getElem (by omega)]
      rfl
    · rw [List.getElem_append_right (by rw [List.length_map]; omega), List.getElem_replicate,
        List.getElem?_eq_none (by omega)]
      rfl

end Layer

namespace Area

open Layer

variable {α : Type} {a : Area} {x y i j : Nat} {f : Nat → α → List Layer}

theorem areWithin_rowLayers (h : ∀ i b, AreWithin (a.row i) (f i b)) (as : List α) :
    AreWithin a (a.rowLayers f as) := by
  intro l hl
  obtain ⟨ls, hls, hl⟩ := List.mem_flatten.mp hl
  obtain ⟨i, hi, rfl⟩ := List.mem_mapIdx.mp hls
  rw [List.length_take] at hi
  exact (h i _ l hl).mono (covers_row (by omega))

/-- Of layers row by row only those of its row reach a cell. -/
theorem paintAll_flatten (as : List α) (c : Cell)
    (hrow : ∀ i b c, i ≠ j → paintAll (f i b) x y c = c) :
    paintAll (as.mapIdx f).flatten x y c =
      (as[j]?.map fun b => paintAll (f j b) x y c).getD c := by
  induction as generalizing f j c with
  | nil => rfl
  | cons b as ih =>
    rw [List.mapIdx_cons, List.flatten_cons, paintAll_append]
    cases j with
    | zero =>
      have hrest := ih (j := as.length) (f := fun i => f (i + 1)) (paintAll (f 0 b) x y c)
        fun i b c _ => hrow (i + 1) b c (Nat.succ_ne_zero i)
      rw [List.getElem?_eq_none (Nat.le_refl _)] at hrest
      exact hrest
    | succ j =>
      rw [hrow 0 b c (Nat.succ_ne_zero j).symm]
      exact ih (f := fun i => f (i + 1)) c fun i b c hi => hrow (i + 1) b c (by omega)

theorem paintAll_rowLayers (h : ∀ i b, AreWithin (a.row i) (f i b)) (as : List α)
    (hj : j < a.height) (c : Cell) :
    paintAll (a.rowLayers f as) x (a.top + j) c =
      (as[j]?.map fun b => paintAll (f j b) x (a.top + j) c).getD c := by
  rw [rowLayers, paintAll_flatten (j := j), List.getElem?_take_of_lt hj]
  intro i b c hi
  exact (h i b).paintAll_eq (row_contains_of_ne hi) c

end Area

namespace Block

open Layer

variable {a : Area} {x y : Nat}

theorem covers_title (h : a.isEmpty = false) : a.Covers ⟨a.left + 1, a.top, a.width - 2, 1⟩ := by
  simp only [Area.isEmpty, Bool.or_eq_false_iff, decide_eq_false_iff_not] at h
  intro x y hxy
  simp only [Area.contains_iff] at *
  omega

theorem areWithin_layers (b : Block) (a : Area) : AreWithin a (b.layers a) := by
  unfold layers
  cases h : a.isEmpty with
  | true => exact areWithin_nil a
  | false =>
    apply AreWithin.cons (isWithin_border a _)
    apply AreWithin.cons _ (areWithin_nil a)
    apply (isWithin_ofAligned .left _ 0 _).mono
    exact (covers_title h).trans (Area.covers_row Nat.one_pos)

/-- The inside of a block stays as it is. -/
theorem paintAll_layers (b : Block) (h : (a.inside 0).contains x y = true) (c : Cell) :
    paintAll (b.layers a) x y c = c := by
  have hx := a.covers_inside 0 x y h
  simp only [Area.contains_iff, Area.inside] at h
  have hempty : a.isEmpty = false := by
    simp only [Area.isEmpty, Bool.or_eq_false_iff, decide_eq_false_iff_not]
    omega
  have hsymbol : borderSymbol? a x y = none := by
    simp only [borderSymbol?, hx]
    rw [if_neg (by decide), if_neg (by omega), if_neg (by omega), if_neg (by omega),
      if_neg (by omega), if_neg (by omega), if_neg (by omega)]
  have htitle (l : Line) :
      (ofLine ⟨a.left + 1, a.top, a.width - 2, 1⟩ 0 l).paint x y c = c := by
    apply isWithin_ofAligned .left
    simp only [Area.contains_eq_false_iff, Area.row]
    omega
  rw [layers, hempty, if_neg Bool.false_ne_true, paintAll, List.foldl_cons, List.foldl_cons]
  simp only [paint, hsymbol]
  exact htitle _

end Block

namespace Widget

open Layer

variable (a : Area)

theorem areWithin_line (alignment : Alignment) (i : Nat) (l : Line) :
    AreWithin (a.row i) [.ofAligned alignment a i l] :=
  .cons (isWithin_ofAligned alignment a i l) (areWithin_nil _)

theorem areWithin_entry (i : Nat) (e : Item) :
    AreWithin (a.row i) [.fill (a.row i) e.style, .ofEntry a i e.line] :=
  .cons (isWithin_fill _ _) (.cons (isWithin_ofEntry a i e.line) (areWithin_nil _))

theorem areWithin_layers (w : Widget) : AreWithin a (w.layers a) := by
  cases w with
  | paragraph ls block? style alignment =>
    cases block? with
    | none =>
      have hrows := Area.areWithin_rowLayers (areWithin_line a alignment) ls
      exact .cons (isWithin_fill a style) hrows
    | some b =>
      have hrows := Area.areWithin_rowLayers (areWithin_line (a.inside b.padding) alignment) ls
      exact .cons (isWithin_fill a style)
        ((b.areWithin_layers a).append (hrows.mono (a.covers_inside b.padding)))
  | list items b =>
    have hrows := Area.areWithin_rowLayers (areWithin_entry (a.inside b.padding)) items
    exact (b.areWithin_layers a).append (hrows.mono (a.covers_inside b.padding))

theorem row_eq {s : Screen} {b : Area} {j : Nat} {covered : Mark} {base : Cell}
    {gs : List Glyph} (hgs : Glyph.totalWidth gs ≤ b.width)
    (h : ∀ i < b.width, s.cell (b.left + i) (b.top + j) =
      (Layer.marks b.left (b.top + j) (Glyph.marks covered gs)).paint (b.left + i) (b.top + j)
        base) :
    s.row b j = Glyph.row covered base b.width gs := by
  rw [← map_paint_marks hgs, Screen.row]
  apply List.map_congr_left
  intro i hi
  exact h i (List.mem_range.mp hi)

end Widget

namespace Terminal

open Layer

variable {s : Screen} {a : Area} {b : Block} {i j : Nat}

theorem contains_inside (hj : j < a.height - 2) (hi : i < (a.inside b.padding).width) :
    (a.inside 0).contains ((a.inside b.padding).left + i) ((a.inside b.padding).top + j) =
      true := by
  simp only [Area.contains_iff, Area.inside] at *
  omega

theorem row_paragraph (hs : s.IsBlank a) (ls : List Line) (b : Block) (style : Style)
    (hj : j < a.height - 2) :
    (standard.render (.paragraph ls (some b) style .left) a s).row (a.inside b.padding) j =
      Glyph.row .leave (Cell.blank.restyle style) (a.inside b.padding).width
        ((ls.getD j []).shown (a.inside b.padding).width) := by
  apply Widget.row_eq (Line.totalWidth_shown_le _ _)
  intro i hi
  have hin := contains_inside (b := b) hj hi
  have hout := a.covers_inside 0 _ _ hin
  have hfill : (Layer.fill a style).paint ((a.inside b.padding).left + i)
      ((a.inside b.padding).top + j) .blank = Cell.blank.restyle style := by
    rw [paint, if_pos hout]
  show paintAll ([.fill a style] ++ b.layers a ++
    (a.inside b.padding).rowLayers (fun i l => [.ofAligned .left (a.inside b.padding) i l]) ls)
      _ _ (s.cell _ _) = _
  rw [hs.cell _ _ hout, paintAll_append, paintAll_append, paintAll_singleton, hfill,
    b.paintAll_layers hin, Area.paintAll_rowLayers (Widget.areWithin_line _ .left) ls hj,
    List.getD_eq_getElem?_getD]
  cases ls[j]? with
  | none => exact (paint_marks_nil ..).symm
  | some l => rfl

theorem row_list (hs : s.IsBlank a) (items : List Item) (b : Block) (hj : j < a.height - 2) :
    (standard.render (.list items b) a s).row (a.inside b.padding) j =
      Glyph.row .erase (Cell.blank.restyle ((items[j]?.map (·.style)).getD .transparent))
        (a.inside b.padding).width
        (Line.shownShared (a.inside b.padding).width ((items.map (·.line)).getD j [])) := by
  apply Widget.row_eq (Line.totalWidth_shownShared_le _ _)
  intro i hi
  have hin := contains_inside (b := b) hj hi
  have hout := a.covers_inside 0 _ _ hin
  show paintAll (b.layers a ++ _) _ _ (s.cell _ _) = _
  rw [hs.cell _ _ hout, paintAll_append, b.paintAll_layers hin,
    Area.paintAll_rowLayers (Widget.areWithin_entry _) items hj, List.getD_eq_getElem?_getD,
    List.getElem?_map]
  cases items[j]? with
  | none => exact (paint_marks_nil ..).symm
  | some e =>
    have hcell : ((a.inside b.padding).row j).contains ((a.inside b.padding).left + i)
        ((a.inside b.padding).top + j) = true := by
      simp only [Area.contains_iff, Area.row]
      omega
    show (Layer.ofEntry _ j e.line).paint _ _ ((Layer.fill _ e.style).paint _ _ .blank) = _
    rw [paint, if_pos hcell]
    rfl

theorem firstLength_le (c c' : Constraint) (length : Nat) : firstLength c c' length ≤ length := by
  unfold firstLength
  split <;> omega

theorem lawful_standard : standard.Lawful where
  flatten_clusters := Text.flatten_clusters
  covers_split d c c' a := by
    cases d with
    | horizontal => exact Area.covers_splitColumns (firstLength_le c c' a.width)
    | vertical => exact Area.covers_splitRows (firstLength_le c c' a.height)
  apart_split d c c' a := by
    cases d with
    | horizontal => exact a.apart_splitColumns _
    | vertical => exact a.apart_splitRows _
  size_render _ _ _ := ⟨rfl, rfl⟩
  render_outside w a s _ _ h := (w.areWithin_layers a).paintAll_eq h _
  row_paragraph hs ls b style j hj := by
    rw [row_paragraph hs ls b style hj]
    exact Line.shows_shown rfl _ _
  row_list hs items b j hj := by
    rw [row_list hs items b hj]
    exact Line.shows_shownShared rfl _ _ _

end Terminal

end MatrixLang.Viewer
