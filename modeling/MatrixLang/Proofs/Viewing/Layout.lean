import MatrixLang.Proofs.Viewing.Terminal
import MatrixLang.Viewer.Session

/-! # The areas of a frame

A lawful terminal cuts the screen into areas that share no cell, two for each of the two columns
and one for the status bar.
-/

namespace MatrixLang.Viewer

namespace Session.Layout

/-- The area of a pane. -/
def area (l : Layout) : Pane → Area
  | .source => l.source
  | .problems => l.problems
  | .tree => l.tree
  | .bindings => l.bindings

/-- How the areas of a frame lie on a screen with two columns of panes. -/
structure Divides (l : Layout) (screen upper west east : Area) : Prop where
  panes : screen.Covers upper
  status : upper.Apart l.status
  left : upper.Covers west
  right : upper.Covers east
  columns : west.Apart east
  source : west.Covers l.source
  problems : west.Covers l.problems
  sourceProblems : l.source.Apart l.problems
  tree : east.Covers l.tree
  bindings : east.Covers l.bindings
  treeBindings : l.tree.Apart l.bindings

variable {l : Layout} {screen upper west east : Area}

theorem Divides.covers_area (h : l.Divides screen upper west east) (p : Pane) :
    screen.Covers (l.area p) := by
  cases p with
  | source => exact (h.panes.trans h.left).trans h.source
  | problems => exact (h.panes.trans h.left).trans h.problems
  | tree => exact (h.panes.trans h.right).trans h.tree
  | bindings => exact (h.panes.trans h.right).trans h.bindings

theorem Divides.pairwise (h : l.Divides screen upper west east) :
    [l.source, l.problems, l.tree, l.bindings, l.status].Pairwise Area.Apart := by
  have hacross {a b : Area} (ha : west.Covers a) (hb : east.Covers b) : a.Apart b :=
    (h.columns.mono_left ha).mono_right hb
  have hbar {a b : Area} (hb : upper.Covers b) (ha : b.Covers a) : a.Apart l.status :=
    h.status.mono_left (hb.trans ha)
  simp only [List.pairwise_cons, List.forall_mem_cons, List.not_mem_nil, false_implies,
    implies_true, and_true, List.Pairwise.nil]
  exact ⟨⟨h.sourceProblems, hacross h.source h.tree, hacross h.source h.bindings,
      hbar h.left h.source⟩,
    ⟨hacross h.problems h.tree, hacross h.problems h.bindings, hbar h.left h.problems⟩,
    ⟨h.treeBindings, hbar h.right h.tree⟩, hbar h.right h.bindings⟩

/-- An area that shares no cell with others may be cut in two. -/
theorem pairwise_cut {as : List Area} {a b c : Area} (h : (as ++ [a]).Pairwise Area.Apart)
    (hb : a.Covers b) (hc : a.Covers c) (hbc : b.Apart c) :
    (as ++ [b, c]).Pairwise Area.Apart := by
  obtain ⟨has, -, hlast⟩ := List.pairwise_append.mp h
  apply List.pairwise_append.mpr
  refine ⟨has, List.pairwise_pair.mpr hbc, fun d hd e he => ?_⟩
  have hapart := hlast d hd a List.mem_cons_self
  simp only [List.mem_cons, List.not_mem_nil, or_false] at he
  rcases he with rfl | rfl
  · exact hapart.mono_right hb
  · exact hapart.mono_right hc

theorem exists_divides {t : Terminal} (ht : t.Lawful) (width height : Nat) :
    ∃ upper west east, (ofSize t width height).Divides ⟨0, 0, width, height⟩ upper west east := by
  let upper := (t.split .vertical (.atLeast 0) (.length 1) ⟨0, 0, width, height⟩).1
  let columns := t.split .horizontal (.percentage 55) (.percentage 45) upper
  refine ⟨upper, columns.1, columns.2, ?_⟩
  constructor
  case panes => exact (ht.covers_split ..).1
  case status => apply ht.apart_split
  case left => exact (ht.covers_split ..).1
  case right => exact (ht.covers_split ..).2
  case columns => apply ht.apart_split
  case source => exact (ht.covers_split ..).1
  case problems => exact (ht.covers_split ..).2
  case sourceProblems => apply ht.apart_split
  case tree => exact (ht.covers_split ..).1
  case bindings => exact (ht.covers_split ..).2
  case treeBindings => apply ht.apart_split

end Session.Layout

end MatrixLang.Viewer
