import MatrixLang.Proofs.Report.Line
import MatrixLang.Proofs.Viewing.Mark
import MatrixLang.Proofs.Viewing.Terminal
import MatrixLang.Proofs.Viewing.Window
import MatrixLang.Viewer.Pane

/-! # Panes and their offsets

Every pane shows its content from the offset that it settles on, and settles there again. The panes
for the tree and the variables are one pane with different lines.
-/

namespace MatrixLang.Viewer

namespace Window

variable {α β : Type} {offset n : Nat}

theorem shown_map (f : α → β) (ls : List α) :
    shown offset n (ls.map f) = (shown offset n ls).map f := by
  rw [shown, shown, List.map_take, List.map_drop]

theorem getElem?_shown (ls : List α) {j : Nat} (hj : j < n) :
    (shown offset n ls)[j]? = ls[offset + j]? := by
  rw [shown, List.getElem?_take_of_lt hj, List.getElem?_drop]

end Window

theorem map_mapIdx {α β γ : Type} (f : Nat → α → β) (g : β → γ) (as : List α) :
    (as.mapIdx f).map g = as.mapIdx fun i a => g (f i a) := by
  apply List.ext_getElem?
  intro i
  simp [List.getElem?_mapIdx, Function.comp_def]

/-- The drawing of a pane that shows lines row by row inside its border. -/
def Drawing.Presents (t : Terminal) (d : Drawing) (a : Area) (padding : Nat) (ls : List Line) :
    Prop :=
  ∃ w, d = [⟨w, a⟩] ∧ ∀ s : Screen, s.IsBlank a → ∀ j < a.height - 2,
    t.Shows (a.inside padding).width ((ls.getD j []).flatMap (t.symbols ·.text))
      ((t.render w a s).row (a.inside padding) j)

theorem presents_linesPane {t : Terminal} (ht : t.Lawful) (a : Area) (title : String)
    (focused : Bool) (ls : List Line) :
    (linesPane a title focused ls).Presents t a 0 ls :=
  ⟨_, rfl, fun _ hs => ht.row_paragraph hs ls (frame title focused 0) .transparent⟩

namespace SourcePane

variable {t : Terminal} (ht : t.Lawful) (a : Area) (source : List Char) (selected? : Option Nat)
  (problemLines : List Nat) (focused : Bool) (s : SourceScroll) (total n : Nat)

def lines (source : List Char) (selected? : Option Nat) (problemLines : List Nat) : List Line :=
  (Text.lines source).mapIdx fun i l => line selected? problemLines (i + 1) l

theorem text_line (text : List Char) :
    (line selected? problemLines n text).text =
      (if n ∈ problemLines then '●' else ' ') :: Text.padLeft 4 (toString n).toList ++
        ' ' :: text := by
  have hspans (f : Style → Style) :
      ((Highlight.source text).map fun s => { s with style := f s.style }).flatMap (·.text) =
        text := by
    rw [List.flatMap_map]
    exact Highlight.flatMap_text_source text
  simp only [line, Line.text, List.flatMap_cons, hspans, List.contains_iff_mem, List.cons_append,
    List.append_assoc, List.nil_append]

include ht in
theorem presents_draw :
    let r := draw a source selected? problemLines focused s
    r.1.Presents t a 0 (Window.shown r.2.offset (Window.capacity a.height)
      (lines source selected? problemLines)) := by
  intro r
  have hlines : lines source selected? problemLines =
      ((Text.lines source).mapIdx fun i l => (i + 1, l)).map fun p =>
        line selected? problemLines p.1 p.2 := by
    rw [map_mapIdx]
    rfl
  rw [hlines, Window.shown_map]
  exact presents_linesPane ht ..

@[simp] theorem settle_settle :
    settle (settle s selected? total n) selected? total n = settle s selected? total n := by
  simp [settle]

theorem draw_draw :
    draw a source selected? problemLines focused
        (draw a source selected? problemLines focused s).2 =
      draw a source selected? problemLines focused s := by
  simp only [draw, settle_settle]

/-- Settles the source pane with differences that are only taken if they are not below zero. -/
def settle? (s : SourceScroll) (selected? : Option Nat) (total n : Nat) : Option SourceScroll := do
  let offset ←
    if selected? = s.followed then some s.offset
    else match selected? with
      | some line => Window.centre? s.offset line n
      | none => some s.offset
  let offset ← Window.settle? offset total n
  return ⟨offset, selected?⟩

theorem settle?_eq : settle? s selected? total n = some (settle s selected? total n) := by
  unfold settle? settle
  by_cases h : selected? = s.followed
  · simp [h, Window.settle?_eq]
  · rcases selected? with _ | _ | i
    · simp [h, Window.settle?_eq]
    · simp [h, Window.settle?_eq, Window.centre?]
    · simp [h, Window.settle?_eq, Window.centre?_succ]

end SourcePane

namespace ProblemPane

variable {t : Terminal} (a : Area) {problems : List Problem} {selected? : Option Nat}
  (focused : Bool) (offset : Nat) {total n : Nat}

theorem draw_eq (h : problems ≠ []) :
    draw a problems selected? focused offset =
      let offset := settle offset selected? problems.length (Window.capacity a.height)
      ([⟨.list ((Window.shown offset (Window.capacity a.height)
            (problems.mapIdx fun i p => (i, p))).map (item selected?))
          (frame (" Diagnostics (" ++ toString problems.length ++ ") ") focused 1), a⟩],
        offset) := by
  rw [draw, if_neg (by simpa using h)]

theorem presents_draw (ht : t.Lawful) (h : problems ≠ []) :
    let r := draw a problems selected? focused offset
    r.1.Presents t a 1 (Window.shown r.2 (Window.capacity a.height) (problems.map entry)) := by
  intro r
  have hentries : problems.map entry =
      ((problems.mapIdx fun i p => (i, p)).map (item selected?)).map (·.line) := by
    rw [List.map_map, map_mapIdx]
    apply List.ext_getElem?
    intro i
    simp [item]
  simp only [r, draw_eq a focused offset h]
  rw [hentries, Window.shown_map, Window.shown_map]
  exact ⟨_, rfl, fun s hs => ht.row_list hs _ (frame _ focused 1)⟩

/-- The selected entry is still in the window after settling. -/
theorem shows_settle (hn : 0 < n) {i : Nat} (hi : i < total) :
    Window.Shows (settle offset (some i) total n) n i :=
  (Window.shows_reveal hn).settle hi

theorem settle_settle (hn : 0 < n) (h : ∀ i ∈ selected?, i < total) :
    settle (settle offset selected? total n) selected? total n =
      settle offset selected? total n := by
  cases selected? with
  | none => exact Window.settle_settle
  | some i =>
    have hshows := shows_settle offset hn (h i rfl)
    have hreveal := Window.reveal_of_shows hshows
    simp only [settle] at hreveal ⊢
    rw [hreveal, Window.settle_settle]

theorem draw_draw (h : ∀ i ∈ selected?, i < problems.length) :
    draw a problems selected? focused (draw a problems selected? focused offset).2 =
      draw a problems selected? focused offset := by
  by_cases hne : problems = []
  · subst hne
    rfl
  · simp only [draw_eq a focused _ hne]
    rw [settle_settle offset (Window.capacity_pos _) h]

/-- Settles the problems pane with differences that are only taken if they are not below zero. -/
def settle? (selected? : Option Nat) (total n : Nat) : Option Nat := do
  let offset ← match selected? with
    | some i => Window.reveal? offset i n
    | none => some offset
  Window.settle? offset total n

theorem settle?_eq : settle? offset selected? total n = some (settle offset selected? total n) := by
  cases selected? with
  | none => exact Window.settle?_eq ..
  | some i =>
    unfold settle? settle
    simp only [Window.reveal?_eq, Option.bind_eq_bind, Option.bind_some]
    exact Window.settle?_eq ..

end ProblemPane

/-- A pane that shows lines from its settled offset on, or else a notice. -/
def plainPane (a : Area) (title : String) (focused : Bool) (notice : Drawing) (ls : List Line)
    (offset : Nat) : Drawing × Nat :=
  if ls.isEmpty then (notice, offset)
  else
    let offset := Window.settle offset ls.length (Window.capacity a.height)
    (linesPane a title focused (Window.shown offset (Window.capacity a.height) ls), offset)

section PlainPane

variable {t : Terminal} (a : Area) (title : String) (focused : Bool) (notice : Drawing)
  {ls : List Line} (offset : Nat)

theorem plainPane_eq (h : ls ≠ []) :
    plainPane a title focused notice ls offset =
      let offset := Window.settle offset ls.length (Window.capacity a.height)
      (linesPane a title focused (Window.shown offset (Window.capacity a.height) ls), offset) := by
  rw [plainPane, if_neg (by simpa using h)]

theorem presents_plainPane (ht : t.Lawful) (h : ls ≠ []) :
    let r := plainPane a title focused notice ls offset
    r.1.Presents t a 0 (Window.shown r.2 (Window.capacity a.height) ls) := by
  intro r
  simp only [r, plainPane_eq a title focused notice offset h]
  exact presents_linesPane ht ..

theorem plainPane_offset_le (h : ls ≠ []) :
    (plainPane a title focused notice ls offset).2 ≤ ls.length - Window.capacity a.height := by
  rw [plainPane_eq a title focused notice offset h]
  exact Window.settle_le ..

theorem plainPane_plainPane (ls : List Line) :
    plainPane a title focused notice ls (plainPane a title focused notice ls offset).2 =
      plainPane a title focused notice ls offset := by
  by_cases h : ls = []
  · subst h
    rfl
  · simp only [plainPane_eq a title focused notice _ h, Window.settle_settle]

def plainSettle? (total : Nat) (offset n : Nat) : Option Nat :=
  if total = 0 then some offset else Window.settle? offset total n

theorem plainSettle?_eq (ls : List Line) :
    plainSettle? ls.length offset (Window.capacity a.height) =
      some (plainPane a title focused notice ls offset).2 := by
  by_cases h : ls = []
  · subst h
    rfl
  · rw [plainSettle?, if_neg (by simpa using h), Window.settle?_eq,
      plainPane_eq a title focused notice offset h]

end PlainPane

def TreePane.lines (outline? : Option (List Char)) : List Line :=
  (Text.lines (outline?.getD [])).map Highlight.outline

theorem TreePane.draw_eq (a : Area) (outline? : Option (List Char)) (notice : String)
    (focused : Bool) (offset : Nat) :
    draw a outline? notice focused offset =
      plainPane a " Syntax Tree " focused
        (noticePane a " Syntax Tree " focused notice Palette.comment) (lines outline?) offset := by
  rcases outline? with _ | _ | ⟨c, cs⟩
  · rfl
  · rfl
  · have hne : lines (some (c :: cs)) ≠ [] := by
      rw [lines, ne_eq, List.map_eq_nil_iff]
      exact Text.lines_ne_nil (List.cons_ne_nil c cs)
    have hshown : (some (c :: cs)).filter (!·.isEmpty) = some (c :: cs) := rfl
    rw [plainPane_eq _ _ _ _ _ hne, draw, hshown]
    simp only [lines, Option.getD_some, List.length_map, Window.shown_map]

theorem TreePane.draw_draw (a : Area) (outline? : Option (List Char)) (notice : String)
    (focused : Bool) (offset : Nat) :
    draw a outline? notice focused (draw a outline? notice focused offset).2 =
      draw a outline? notice focused offset := by
  rw [draw_eq, draw_eq, plainPane_plainPane]

theorem TreePane.presents_draw {t : Terminal} (ht : t.Lawful) (a : Area)
    (outline? : Option (List Char)) (notice : String) (focused : Bool) (offset : Nat)
    (h : lines outline? ≠ []) :
    let r := draw a outline? notice focused offset
    r.1.Presents t a 0 (Window.shown r.2 (Window.capacity a.height) (lines outline?)) ∧
      r.2 ≤ (lines outline?).length - Window.capacity a.height := by
  rw [draw_eq]
  exact ⟨presents_plainPane a _ focused _ offset ht h, plainPane_offset_le a _ focused _ offset h⟩

theorem TreePane.map_text_lines (outline? : Option (List Char)) :
    (lines outline?).map Line.text = Text.lines (outline?.getD []) := by
  rw [lines, List.map_map, List.map_congr_left (g := id), List.map_id]
  intro l _
  simp [Highlight.outline, Line.text]

def BindingPane.lines : Option Table → List Line
  | none => []
  | some t => t.bindings.map (line (nameWidth t))

theorem BindingPane.draw_eq (a : Area) (table? : Option Table) (focused : Bool) (offset : Nat) :
    draw a table? focused offset =
      plainPane a " Variables " focused
        (noticePane a " Variables " focused "(no variables)" Palette.comment) (lines table?)
        offset := by
  rcases table? with _ | ⟨_ | ⟨b, bs⟩⟩
  · rfl
  · rfl
  · have hne : lines (some ⟨b :: bs⟩) ≠ [] := List.cons_ne_nil _ _
    have hshown : (some (Table.mk (b :: bs))).filter (!·.isEmpty) = some ⟨b :: bs⟩ := rfl
    rw [plainPane_eq _ _ _ _ _ hne, draw, hshown]
    simp only [lines, List.length_map, Window.shown_map, Table.size]

theorem BindingPane.draw_draw (a : Area) (table? : Option Table) (focused : Bool) (offset : Nat) :
    draw a table? focused (draw a table? focused offset).2 = draw a table? focused offset := by
  rw [draw_eq, draw_eq, plainPane_plainPane]

theorem BindingPane.presents_draw {t : Terminal} (ht : t.Lawful) (a : Area)
    (table? : Option Table) (focused : Bool) (offset : Nat) (h : lines table? ≠ []) :
    let r := draw a table? focused offset
    r.1.Presents t a 0 (Window.shown r.2 (Window.capacity a.height) (lines table?)) ∧
      r.2 ≤ (lines table?).length - Window.capacity a.height := by
  rw [draw_eq]
  exact ⟨presents_plainPane a _ focused _ offset ht h, plainPane_offset_le a _ focused _ offset h⟩

end MatrixLang.Viewer
