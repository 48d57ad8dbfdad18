import MatrixLang.Proofs.Viewing.Following
import MatrixLang.Proofs.Viewing.Layout
import MatrixLang.Proofs.Viewing.Pane
import MatrixLang.Proofs.Viewing.Standard

/-! # Settled sessions

A draw settles the offset of every pane that has content and shows the lines from there on. It takes
no difference that is below zero, and a second draw of the same size changes nothing.
-/

namespace MatrixLang.Viewer

namespace Session

/-- The blank columns inside the border of a pane. -/
def padding : Pane → Nat
  | .problems => 1
  | _ => 0

/-- The lines of the content of a pane. -/
def content (s : Session) : Pane → List (List Char)
  | .source =>
    (Text.lines s.source).mapIdx fun i l =>
      (if i + 1 ∈ s.problems.map (·.line) then '●' else ' ') ::
        Text.padLeft 4 (toString (i + 1)).toList ++ ' ' :: l
  | .problems =>
    s.problems.map fun p => Text.padLeft 6 (ProblemPane.tag p.stage).toList ++ ' ' :: p.text.toList
  | .tree => Text.lines ((s.outline?.map (·.toList)).getD [])
  | .bindings =>
    match s.analysis.outcome with
    | .error _ => []
    | .ok checked =>
      let t := checked.findings.bindings
      t.bindings.map fun b =>
        ' ' :: Text.padRight (BindingPane.nameWidth t) b.name.toList ++ [' ', ':', ' '] ++
          (b.type?.elim "?" (·.text)).toList

def lines (s : Session) : Pane → List Line
  | .source => SourcePane.lines s.source s.selectedLine? (s.problems.map (·.line))
  | .problems => s.problems.map ProblemPane.entry
  | .tree => TreePane.lines (s.outline?.map (·.toList))
  | .bindings => BindingPane.lines (s.analysis.outcome.toOption.map (·.findings.bindings))

theorem map_text_lines (s : Session) (p : Pane) : (s.lines p).map Line.text = s.content p := by
  cases p with
  | source =>
    rw [lines, SourcePane.lines, map_mapIdx]
    simp only [SourcePane.text_line]
    rfl
  | problems =>
    rw [lines, List.map_map]
    apply List.map_congr_left
    intro p _
    simp [ProblemPane.entry, Line.text]
  | tree => exact TreePane.map_text_lines _
  | bindings =>
    unfold lines content
    cases s.analysis.outcome with
    | error e => rfl
    | ok checked =>
      show (List.map _ _).map _ = _
      rw [List.map_map]
      apply List.map_congr_left
      intro b _
      cases h : b.type? <;> simp [BindingPane.line, BindingPane.typeSpan, Line.text, h]

section Frame

variable (t : Terminal) (s : Session) (width height : Nat)

def sourceFrame : Drawing × SourceScroll :=
  SourcePane.draw (Layout.ofSize t width height).source s.source s.selectedLine?
    (s.problems.map (·.line)) (s.focus = .source) s.offsets.source

def problemFrame : Drawing × Nat :=
  ProblemPane.draw (Layout.ofSize t width height).problems s.problems s.selected?
    (s.focus = .problems) s.offsets.problems

def treeFrame : Drawing × Nat :=
  TreePane.draw (Layout.ofSize t width height).tree (s.outline?.map (·.toList))
    "(no syntax tree: parsing failed)" (s.focus = .tree) s.offsets.tree

def bindingFrame : Drawing × Nat :=
  BindingPane.draw (Layout.ofSize t width height).bindings
    (s.analysis.outcome.toOption.map (·.findings.bindings)) (s.focus = .bindings) s.offsets.bindings

def paneDrawing : Pane → Drawing
  | .source => (s.sourceFrame t width height).1
  | .problems => (s.problemFrame t width height).1
  | .tree => (s.treeFrame t width height).1
  | .bindings => (s.bindingFrame t width height).1

theorem drawOn_eq :
    s.drawOn t width height =
      (s.paneDrawing t width height .source ++ s.paneDrawing t width height .problems ++
          s.paneDrawing t width height .tree ++ s.paneDrawing t width height .bindings ++
          StatusBar.drawOn t (Layout.ofSize t width height).status s.status s.verdict,
        { s with
          offsets := ⟨(s.sourceFrame t width height).2, (s.problemFrame t width height).2,
            (s.treeFrame t width height).2, (s.bindingFrame t width height).2⟩ }) :=
  rfl

theorem exists_paneDrawing_eq (p : Pane) :
    ∃ w, s.paneDrawing t width height p = [⟨w, (Layout.ofSize t width height).area p⟩] := by
  cases p with
  | source => exact ⟨_, rfl⟩
  | problems =>
    by_cases h : s.problems = []
    · exact ⟨_, by rw [paneDrawing, problemFrame, h]; rfl⟩
    · exact ⟨_, congrArg Prod.fst (ProblemPane.draw_eq _ _ _ h)⟩
  | tree =>
    show ∃ w, (TreePane.draw _ _ _ _ _).1 = _
    unfold TreePane.draw
    split <;> exact ⟨_, rfl⟩
  | bindings =>
    show ∃ w, (BindingPane.draw _ _ _ _).1 = _
    unfold BindingPane.draw
    split <;> exact ⟨_, rfl⟩

/-- A frame draws the panes in their areas, and the two halves of the status bar in the last one. -/
theorem map_area_drawOn :
    let l := Layout.ofSize t width height
    let halves := t.split .horizontal (.percentage 50) (.percentage 50) l.status
    (s.drawOn t width height).1.map (·.area) =
      [l.source, l.problems, l.tree, l.bindings] ++ [halves.1, halves.2] := by
  have hpane (p : Pane) : (s.paneDrawing t width height p).map (·.area) =
      [(Layout.ofSize t width height).area p] := by
    obtain ⟨w, hw⟩ := s.exists_paneDrawing_eq t width height p
    rw [hw]
    rfl
  rw [drawOn_eq]
  simp only [List.map_append, hpane]
  rfl

theorem mem_drawOn {p : Pane} {q : Placement} (h : q ∈ s.paneDrawing t width height p) :
    q ∈ (s.drawOn t width height).1 := by
  rw [drawOn_eq]
  simp only [List.mem_append]
  cases p <;> simp only [h, true_or, or_true]

/-- Every pane with content shows it from its new offset on, and so does an empty source pane. -/
theorem presents_drawOn {t : Terminal} (ht : t.Lawful) {p : Pane}
    (h : p = .source ∨ s.content p ≠ []) :
    let a := (Layout.ofSize t width height).area p
    let n := Window.capacity a.height
    let offset := (s.drawOn t width height).2.offset p
    (s.paneDrawing t width height p).Presents t a (padding p)
        (Window.shown offset n (s.lines p)) ∧
      offset ≤ (s.lines p).length - n := by
  rw [← map_text_lines, ne_eq, List.map_eq_nil_iff] at h
  cases p with
  | source =>
    constructor
    · exact SourcePane.presents_draw ht ..
    · rw [lines, SourcePane.lines, List.length_mapIdx]
      exact Window.settle_le ..
  | problems =>
    have hne : s.problems ≠ [] := by simpa [lines] using h
    constructor
    · exact ProblemPane.presents_draw _ _ _ ht hne
    · rw [lines, List.length_map]
      show (ProblemPane.draw _ _ _ _ _).2 ≤ _
      rw [ProblemPane.draw_eq _ _ _ hne]
      exact Window.settle_le ..
  | tree => exact TreePane.presents_draw ht _ _ _ _ _ (by simpa [lines] using h)
  | bindings => exact BindingPane.presents_draw ht _ _ _ _ (by simpa [lines] using h)

/-- A row inside the border of a pane shows the line with this number behind the offset. -/
theorem shows_drawOn {t : Terminal} (ht : t.Lawful) {p : Pane} (h : p = .source ∨ s.content p ≠ [])
    {j : Nat} (hj : j < ((Layout.ofSize t width height).area p).height - 2) :
    let inside := ((Layout.ofSize t width height).area p).inside (padding p)
    let r := s.drawOn t width height
    t.Shows inside.width (((s.lines p).getD (r.2.offset p + j) []).flatMap (t.symbols ·.text))
      ((t.screen r.1 width height).row inside j) := by
  intro inside r
  obtain ⟨upper, west, east, hdivides⟩ := Layout.exists_divides ht width height
  have hareas : (r.1.map (·.area)).Pairwise Area.Apart := by
    have hhalves := ht.covers_split .horizontal (.percentage 50) (.percentage 50)
      (Layout.ofSize t width height).status
    rw [map_area_drawOn]
    exact Layout.pairwise_cut hdivides.pairwise hhalves.1 hhalves.2 (ht.apart_split _ _ _ _)
  obtain ⟨⟨w, hw, hshows⟩, -⟩ := s.presents_drawOn width height ht h
  have hmem : (⟨w, (Layout.ofSize t width height).area p⟩ : Placement) ∈ r.1 := by
    apply s.mem_drawOn t width height
    rw [hw]
    exact List.mem_cons_self
  obtain ⟨s', hblank, hrow⟩ := ht.row_screen hmem hareas (hdivides.covers_area p)
    (Area.covers_inside _ (padding p))
  have hcapacity : j < Window.capacity ((Layout.ofSize t width height).area p).height :=
    Nat.lt_of_lt_of_le hj (Nat.le_max_right ..)
  have hline := hshows s' hblank j hj
  rw [List.getD_eq_getElem?_getD, Window.getElem?_shown _ hcapacity,
    ← List.getD_eq_getElem?_getD] at hline
  rw [hrow j hj]
  exact hline

theorem displays_drawOn {t : Terminal} (ht : t.Lawful) {p : Pane}
    (h : p = .source ∨ s.content p ≠ []) {j : Nat}
    (hj : j < ((Layout.ofSize t width height).area p).height - 2) :
    let inside := ((Layout.ofSize t width height).area p).inside (padding p)
    let r := s.drawOn t width height
    let row := (t.screen r.1 width height).row inside j
    (∀ text ∈ (s.content p)[r.2.offset p + j]?, t.Displays text row) ∧
      ((s.content p).length ≤ r.2.offset p + j → ∀ c ∈ row, c.symbol = [' ']) := by
  intro inside r row
  have hshows : t.Shows inside.width _ row := s.shows_drawOn width height ht h hj
  rw [← map_text_lines, List.length_map]
  constructor
  · intro text htext
    rw [List.getElem?_map, Option.mem_def, Option.map_eq_some_iff] at htext
    obtain ⟨l, hl, rfl⟩ := htext
    rw [List.getD_eq_getElem?_getD, hl, Option.getD_some] at hshows
    apply Terminal.displays_text
    rwa [Screen.length_row]
  · intro hbehind
    rw [List.getD_eq_getElem?_getD, List.getElem?_eq_none hbehind] at hshows
    exact hshows.blank_of_nil

/-- The offsets after a draw, with differences that are only taken if they are not below zero. -/
def checkedOffsets? : Option Offsets := do
  let l := Layout.ofSize t width height
  let source ← SourcePane.settle? s.offsets.source s.selectedLine? (Text.lines s.source).length
    (Window.capacity l.source.height)
  let problems ←
    (if s.problems.isEmpty then some s.offsets.problems
    else ProblemPane.settle? s.offsets.problems s.selected? s.problems.length
      (Window.capacity l.problems.height))
  let tree ← plainSettle? (s.content .tree).length s.offsets.tree (Window.capacity l.tree.height)
  let bindings ← plainSettle? (s.content .bindings).length s.offsets.bindings
    (Window.capacity l.bindings.height)
  return ⟨source, problems, tree, bindings⟩

theorem checkedOffsets?_eq :
    s.checkedOffsets? t width height = some (s.drawOn t width height).2.offsets := by
  have hproblems :
      (if s.problems.isEmpty then some s.offsets.problems
        else ProblemPane.settle? s.offsets.problems s.selected? s.problems.length
          (Window.capacity (Layout.ofSize t width height).problems.height)) =
        some (s.problemFrame t width height).2 := by
    by_cases h : s.problems = []
    · rw [problemFrame, h]
      rfl
    · rw [if_neg (by simpa using h), ProblemPane.settle?_eq, problemFrame,
        ProblemPane.draw_eq _ _ _ h]
  have htree : plainSettle? (s.content .tree).length s.offsets.tree
      (Window.capacity (Layout.ofSize t width height).tree.height) =
        some (s.treeFrame t width height).2 := by
    rw [treeFrame, TreePane.draw_eq, ← map_text_lines, List.length_map]
    exact plainSettle?_eq ..
  have hbindings : plainSettle? (s.content .bindings).length s.offsets.bindings
      (Window.capacity (Layout.ofSize t width height).bindings.height) =
        some (s.bindingFrame t width height).2 := by
    rw [bindingFrame, BindingPane.draw_eq, ← map_text_lines, List.length_map]
    exact plainSettle?_eq ..
  unfold checkedOffsets?
  simp only [SourcePane.settle?_eq, hproblems, htree, hbindings]
  rfl

/-- A second draw of the same size changes nothing. -/
theorem drawOn_drawOn (h : ∀ i ∈ s.selected?, i < s.problems.length) :
    (s.drawOn t width height).2.drawOn t width height = s.drawOn t width height := by
  have hsource : (s.drawOn t width height).2.sourceFrame t width height =
      s.sourceFrame t width height :=
    SourcePane.draw_draw ..
  have hproblems : (s.drawOn t width height).2.problemFrame t width height =
      s.problemFrame t width height :=
    ProblemPane.draw_draw _ _ _ h
  have htree : (s.drawOn t width height).2.treeFrame t width height = s.treeFrame t width height :=
    TreePane.draw_draw ..
  have hbindings : (s.drawOn t width height).2.bindingFrame t width height =
      s.bindingFrame t width height :=
    BindingPane.draw_draw ..
  rw [(s.drawOn t width height).2.drawOn_eq]
  simp only [paneDrawing, hsource, hproblems, htree, hbindings]
  rfl

end Frame

/-- After a draw in any run every pane with content has an offset that leaves no room unused. Inside
its border it shows the lines of its content from there on, one a row and cut at the right edge, and
nothing behind the last. The selected problem is in view, no difference was below zero, and a second
draw of the same size shows and leaves the same. -/
theorem draw_settles (t : Terminal) (ht : t.Lawful) (cs : List Char) (es : List Event)
    (width height : Nat) :
    let s := run t cs es
    let l := Layout.ofSize t width height
    let r := s.drawOn t width height
    (∀ p, p = .source ∨ s.content p ≠ [] →
        let a := l.area p
        let lines := s.content p
        let offset := r.2.offset p
        offset ≤ lines.length - max 1 (a.height - 2) ∧
          ∀ j < a.height - 2,
            let row := (t.screen r.1 width height).row (a.inside (padding p)) j
            (∀ text ∈ lines[offset + j]?, t.Displays text row) ∧
              (lines.length ≤ offset + j → ∀ c ∈ row, c.symbol = [' '])) ∧
      (∀ i ∈ s.selected?,
        r.2.offset .problems ≤ i ∧ i < r.2.offset .problems + max 1 (l.problems.height - 2)) ∧
      s.checkedOffsets? t width height = some r.2.offsets ∧
      r.2.drawOn t width height = r := by
  intro s l r
  have hselected : ∀ i ∈ s.selected?, i < s.problems.length := by
    intro i hi
    exact (reflects_run t cs es).selected_lt hi
  split_ands
  · intro p hp
    constructor
    · have hlength : (s.lines p).length = (s.content p).length := by
        rw [← map_text_lines, List.length_map]
      rw [← hlength]
      exact (s.presents_drawOn width height ht hp).2
    · intro j hj
      exact s.displays_drawOn width height ht hp hj
  · intro i hi
    have hne : s.problems ≠ [] := List.ne_nil_of_length_pos (Nat.zero_lt_of_lt (hselected i hi))
    have hselect : s.selected? = some i := hi
    show Window.Shows (s.problemFrame t width height).2 _ i
    rw [problemFrame, ProblemPane.draw_eq _ _ _ hne, hselect]
    exact ProblemPane.shows_settle _ (Window.capacity_pos _) (hselected i hi)
  · exact s.checkedOffsets?_eq t width height
  · exact s.drawOn_drawOn t width height hselected

theorem draw_settles_longText :
    let es := scrolledDown ++ [.press (.char 'n'), .draw 20 6]
    let r := (run .standard longText es).drawOn .standard 20 6
    Terminal.standard.Lawful ∧ r.2.offset .source = 0 ∧
      ((Terminal.standard.screen r.1 20 6).row ⟨1, 1, 9, 2⟩ 0).map (·.symbol) =
        "●   1 $  ".toList.map ([·]) := by
  intro es r
  have hoffset : r.2.offset .source = 0 := by
    show ((run _ _ _).drawOn _ _ _).2.offset .source = 0
    rw [run, ofText_longText]
    rfl
  have hcontent : ((run .standard longText es).content .source)[0]? = some "●   1 $".toList := by
    rw [run, ofText_longText]
    decide
  have hsettles := draw_settles .standard Terminal.lawful_standard longText es 20 6
  have hrow := ((hsettles.1 .source (.inl rfl)).2 0 (by decide)).1 "●   1 $".toList
    (by rw [hoffset]; exact hcontent)
  have hplain : "●   1 $".toList.all Text.isOrdinary = true := by decide +kernel
  exact ⟨Terminal.lawful_standard, hoffset,
    hrow.map_symbol (Terminal.isPlain_standard (List.all_eq_true.mp hplain))⟩

end Session

end MatrixLang.Viewer
