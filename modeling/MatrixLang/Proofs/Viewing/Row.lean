import MatrixLang.Proofs.Viewing.Terminal
import MatrixLang.Viewer.Standard

/-! # Rows of glyphs

The standard terminal puts the glyphs of a line side by side as far as they fit, and in an entry
those that fill no cell share one with others. Both rows show the clusters of the glyphs.
-/

namespace MatrixLang

namespace Text

/-- A character that is a cluster by itself wherever it stands among its like, one cell wide. -/
def isOrdinary (c : Char) : Bool :=
  BreakClass.ofChar c = .other && !isConsonant c && clusterWidth [c] = 1 && c != '\n'

theorem not_joins {t : Tail} {c : Char} (hlast : BreakClass.ofChar t.last = .other)
    (hc : BreakClass.ofChar c = .other) (hconsonant : isConsonant c = false) :
    t.joins c = false := by
  simp [Tail.joins, hlast, hc, hconsonant]

theorem clusters_of_isOrdinary {cs : List Char} (h : ∀ c ∈ cs, isOrdinary c = true) :
    clusters cs = cs.map ([·]) := by
  have hfrom (c : Char) (cs : List Char) (h : ∀ d ∈ c :: cs, isOrdinary d = true) :
      clustersFrom (Tail.ofChar c) [c] cs = (c :: cs).map ([·]) := by
    induction cs generalizing c with
    | nil => rfl
    | cons d cs ih =>
      obtain ⟨hc, hcs⟩ := List.forall_mem_cons.mp h
      have hd := hcs d List.mem_cons_self
      simp only [isOrdinary, Bool.and_eq_true, decide_eq_true_eq, Bool.not_eq_true'] at hc hd
      rw [clustersFrom, not_joins hc.1.1.1 hd.1.1.1 hd.1.1.2, if_neg Bool.false_ne_true, ih d hcs]
      rfl
  cases cs with
  | nil => rfl
  | cons c cs => exact hfrom c cs h

end Text

namespace Viewer

def Mark.paint (base : Cell) : Mark → Cell
  | .write symbol style => { base with symbol }.restyle style
  | .erase => .blank
  | .leave => base

namespace Glyph

variable {room n : Nat} {g : Glyph} {gs hs : List Glyph} {covered : Mark} {base : Cell}

theorem totalWidth_append (gs hs : List Glyph) :
    totalWidth (gs ++ hs) = totalWidth gs + totalWidth hs := by
  induction gs with
  | nil => exact (Nat.zero_add _).symm
  | cons g gs ih => rw [List.cons_append, totalWidth, ih, totalWidth, Nat.add_assoc]

/-- Either all glyphs fit, or the first one that does not has more cells than are left. -/
theorem fit_cases (room : Nat) (gs : List Glyph) :
    fit room gs = gs ∧ totalWidth gs ≤ room ∨
      ∃ g hs, gs = fit room gs ++ g :: hs ∧ totalWidth (fit room gs) ≤ room ∧
        room - totalWidth (fit room gs) < g.width := by
  induction gs generalizing room with
  | nil => exact .inl ⟨rfl, Nat.zero_le _⟩
  | cons g gs ih =>
    unfold fit
    by_cases h : g.width ≤ room
    · rw [if_pos h]
      rcases ih (room - g.width) with ⟨hall, hle⟩ | ⟨k, hs, hgs, hle, hlt⟩
      · rw [hall, totalWidth]
        exact .inl ⟨rfl, by omega⟩
      · refine .inr ⟨k, hs, congrArg (g :: ·) hgs, ?_⟩
        rw [totalWidth]
        omega
    · rw [if_neg h]
      refine .inr ⟨g, gs, rfl, Nat.zero_le _, ?_⟩
      rw [totalWidth]
      omega

theorem totalWidth_fit_le (room : Nat) (gs : List Glyph) : totalWidth (fit room gs) ≤ room := by
  rcases fit_cases room gs with ⟨h, hle⟩ | ⟨-, -, -, hle, -⟩
  · rwa [h]
  · exact hle

theorem length_marks (covered : Mark) (gs : List Glyph) :
    (marks covered gs).length = totalWidth gs := by
  induction gs with
  | nil => rfl
  | cons g gs ih =>
    rw [marks, List.flatMap_cons, List.length_append, ← marks, ih, totalWidth]
    cases g.width <;> simp

theorem totalWidth_shareFrom (g : Glyph) (gs : List Glyph) :
    totalWidth (shareFrom g gs) = g.width + totalWidth gs := by
  fun_induction shareFrom g gs with
  | case1 g h => simp [totalWidth, h]
  | case2 g h => rfl
  | case3 g h gs _ ih => rw [ih, totalWidth, Nat.add_assoc]
  | case4 g h gs hg hh ih =>
    rw [totalWidth, ih, totalWidth]
    show g.width - 1 + (1 + _) = _
    omega
  | case5 g h gs _ _ ih => rw [totalWidth, ih, totalWidth]

theorem totalWidth_share (gs : List Glyph) : totalWidth (share gs) = totalWidth gs := by
  cases gs with
  | nil => rfl
  | cons g gs => exact totalWidth_shareFrom g gs

/-- The cells of glyphs side by side over a cell that lies below them. -/
def cells (covered : Mark) (base : Cell) (gs : List Glyph) : List Cell :=
  (marks covered gs).map (·.paint base)

theorem length_cells (covered : Mark) (base : Cell) (gs : List Glyph) :
    (cells covered base gs).length = totalWidth gs := by
  rw [cells, List.length_map, length_marks]

@[simp] theorem cells_nil (covered : Mark) (base : Cell) : cells covered base [] = [] := rfl

theorem cells_append (covered : Mark) (base : Cell) (gs hs : List Glyph) :
    cells covered base (gs ++ hs) = cells covered base gs ++ cells covered base hs := by
  simp [cells, marks]

theorem cells_cons_of_zero (h : g.width = 0) :
    cells covered base (g :: gs) = cells covered base gs := by
  simp [cells, marks, h]

theorem cells_cons_of_pos (h : 0 < g.width) :
    cells covered base (g :: gs) =
      { base with symbol := g.symbol }.restyle g.style ::
        List.replicate (g.width - 1) (covered.paint base) ++ cells covered base gs := by
  rw [cells, marks, List.flatMap_cons]
  cases hk : g.width with
  | zero => omega
  | succ k => simp [cells, marks, Mark.paint]

def IsCluster (g : Glyph) : Prop := g.width = Text.clusterWidth g.symbol

/-- A row of `n` cells with glyphs at the left, over one cell all along. -/
def row (covered : Mark) (base : Cell) (n : Nat) (gs : List Glyph) : List Cell :=
  cells covered base gs ++ List.replicate (n - totalWidth gs) base

theorem length_row (h : totalWidth gs ≤ n) : (row covered base n gs).length = n := by
  rw [row, List.length_append, length_cells, List.length_replicate]
  omega

end Glyph

namespace Terminal

open Glyph

variable {room n : Nat} {g : Glyph} {gs : List Glyph} {covered : Mark} {base : Cell}
  {more : List Text.Cluster} {row : List Cell}

theorem Shows.unseen_append {ps : List Text.Cluster} (hps : ∀ p ∈ ps, Text.clusterWidth p = 0)
    (h : standard.Shows n more row) : standard.Shows n (ps ++ more) row := by
  induction ps with
  | nil => exact h
  | cons p ps ih =>
    obtain ⟨hp, hps⟩ := List.forall_mem_cons.mp hps
    exact .unseen (.inl hp) (ih hps)

/-- What a glyph stands for that clusters have been joined to: at most one of them fills cells. -/
inductive Joins : List Text.Cluster → Glyph → Prop
  | empty {ps symbol style} : (∀ p ∈ ps, Text.clusterWidth p = 0) → symbol = ps.flatten →
      Joins ps ⟨symbol, style, 0⟩
  | full {before p behind symbol style} :
      (∀ z ∈ before ++ behind, Text.clusterWidth z = 0) → 0 < Text.clusterWidth p →
      symbol = (before ++ p :: behind).flatten →
      Joins (before ++ p :: behind) ⟨symbol, style, Text.clusterWidth p⟩

theorem joins_of_isCluster (h : g.IsCluster) : Joins [g.symbol] g := by
  obtain ⟨symbol, style, width⟩ := g
  obtain rfl : width = Text.clusterWidth symbol := h
  rcases Nat.eq_zero_or_pos (Text.clusterWidth symbol) with hw | hw
  · rw [hw]
    exact .empty (by simp [hw]) (by simp)
  · exact @Joins.full [] symbol [] symbol style (by simp) hw (by simp)

theorem Joins.append {ps : List Text.Cluster} {h : Glyph} (hg : Joins ps g) (hh : h.IsCluster)
    (hw : g.width = 0 ∨ h.width = 0) :
    Joins (ps ++ [h.symbol])
      { g with symbol := g.symbol ++ h.symbol, width := g.width + h.width } := by
  obtain ⟨symbol, style, width⟩ := h
  obtain rfl : width = Text.clusterWidth symbol := hh
  cases hg with
  | @empty _ _ style hps hsymbol =>
    rcases Nat.eq_zero_or_pos (Text.clusterWidth symbol) with hzero | hpos
    · simp only [hzero, Nat.add_zero]
      refine .empty (List.forall_mem_append.mpr ⟨hps, ?_⟩) (by simp [hsymbol])
      simp [hzero]
    · simp only [Nat.zero_add]
      exact @Joins.full ps symbol [] _ style (by simpa using hps) hpos (by simp [hsymbol])
  | @full before p behind _ style hzs hpos hsymbol =>
    obtain hzero : Text.clusterWidth symbol = 0 := by
      rcases hw with hw | hw
      · exact absurd hw (Nat.ne_of_gt hpos)
      · exact hw
    simp only [hzero, Nat.add_zero, List.append_assoc, List.cons_append]
    refine .full ?_ hpos (by simp [hsymbol])
    intro z hz
    rw [← List.append_assoc, List.mem_append, List.mem_singleton] at hz
    rcases hz with hz | rfl
    · exact hzs z hz
    · exact hzero

theorem Joins.shows {ps : List Text.Cluster} (hg : Joins ps g) (base : Cell) (hpos : 0 < g.width)
    {cells : List Cell} (hcells : cells.length + 1 = g.width)
    (h : standard.Shows n more row) :
    standard.Shows n (ps ++ more)
      ({ base with symbol := g.symbol }.restyle g.style :: cells ++ row) := by
  cases hg with
  | empty => cases hpos
  | full hzs _ hsymbol => exact .seen hzs hcells hsymbol h

theorem Joins.shows_cons {ps : List Text.Cluster} (hg : Joins ps g) (hpos : 0 < g.width)
    (h : standard.Shows n more (cells covered base gs ++ row)) :
    standard.Shows n (ps ++ more) (cells covered base (g :: gs) ++ row) := by
  rw [cells_cons_of_pos hpos, List.append_assoc]
  apply hg.shows _ hpos _ h
  rw [List.length_replicate]
  omega

/-- Glyphs that share cells show their clusters. A glyph of one cell has a cell of its own in front
of what those behind it show. -/
theorem shows_shareFrom (g : Glyph) (hgs : ∀ h ∈ gs, h.IsCluster)
    (hrow : standard.Shows n more row) :
    (∀ ps, Joins ps g →
        standard.Shows n (ps ++ (gs.map (·.symbol) ++ more))
          (cells covered base (shareFrom g gs) ++ row)) ∧
      (g.width = 1 → ∃ c rest, cells covered base (shareFrom g gs) = c :: rest ∧
        standard.Shows n (gs.map (·.symbol) ++ more) (rest ++ row)) := by
  fun_induction shareFrom g gs with
  | case1 g hzero =>
    refine ⟨fun ps hg => ?_, fun hone => by omega⟩
    cases hg with
    | empty hps => exact .unseen_append hps hrow
    | full _ hpos => exact absurd hzero (Nat.ne_of_gt hpos)
  | case2 g hzero =>
    have hpos := Nat.pos_of_ne_zero hzero
    refine ⟨fun ps hg => hg.shows_cons hpos hrow, fun hone => ?_⟩
    rw [cells_cons_of_pos hpos, hone]
    exact ⟨_, _, rfl, hrow⟩
  | case3 g h gs hjoin ih =>
    obtain ⟨hh, hgs⟩ := List.forall_mem_cons.mp hgs
    obtain ⟨ihjoins, ihone⟩ := ih hgs
    constructor
    · intro ps hg
      have hjoins := ihjoins _ (hg.append hh (by omega))
      rwa [List.append_assoc] at hjoins
    · intro hone
      have hzero : h.width = 0 := by omega
      obtain ⟨c, rest, hc, hrest⟩ := ihone (by simp [hone, hzero])
      exact ⟨c, rest, hc, .unseen (.inl (hh.symm.trans hzero)) hrest⟩
  | case4 g h gs hjoin hzero ih =>
    obtain ⟨hh, hgs⟩ := List.forall_mem_cons.mp hgs
    obtain ⟨c, rest, hc, hrest⟩ := (ih hgs).2 rfl
    refine ⟨fun ps hg => ?_, fun hone => absurd (.inr ⟨hzero, hone⟩) hjoin⟩
    have hlength : (List.replicate (g.width - 1 - 1) (covered.paint base) ++ [c]).length + 1 =
        g.width := by
      rw [List.length_append, List.length_replicate, List.length_singleton]
      omega
    have hpos : 0 < g.width := by omega
    have hcells := hg.shows base hpos hlength (.unseen (.inl (hh.symm.trans hzero)) hrest)
    rw [cells_cons_of_pos (by show 0 < g.width - 1; omega), hc]
    simpa using hcells
  | case5 g h gs hjoin hzero ih =>
    obtain ⟨hh, hgs⟩ := List.forall_mem_cons.mp hgs
    have hshows := (ih hgs).1 _ (joins_of_isCluster hh)
    have hpos : 0 < g.width := by omega
    refine ⟨fun ps hg => hg.shows_cons hpos hshows, fun hone => ?_⟩
    rw [cells_cons_of_pos hpos, hone]
    exact ⟨_, _, rfl, hshows⟩

theorem shows_share (hgs : ∀ g ∈ gs, g.IsCluster) (hrow : standard.Shows n more row) :
    standard.Shows n (gs.map (·.symbol) ++ more) (cells covered base (share gs) ++ row) := by
  cases gs with
  | nil => exact hrow
  | cons g gs =>
    obtain ⟨hg, hgs⟩ := List.forall_mem_cons.mp hgs
    exact (shows_shareFrom g hgs hrow).1 _ (joins_of_isCluster hg)

theorem shows_replicate (hbase : base.symbol = [' ']) (room : Nat) :
    standard.Shows n [] (List.replicate room base) := by
  apply Shows.blank
  intro c hc
  rwa [List.eq_of_mem_replicate hc]

theorem shows_cut (hbase : base.symbol = [' ']) (hg : g.IsCluster) (h : room < g.width) :
    standard.Shows n (g.symbol :: more) (List.replicate room base) := by
  apply Shows.cut
  · rwa [List.length_replicate, ← show g.width = standard.clusterWidth g.symbol from hg]
  · intro c hc
    rwa [List.eq_of_mem_replicate hc]

theorem shows_fit (hbase : base.symbol = [' ']) (hgs : ∀ g ∈ gs, g.IsCluster) (room : Nat) :
    standard.Shows n (gs.map (·.symbol))
      (Glyph.row covered base room (fit room (gs.filter (·.width ≤ n)))) := by
  induction gs generalizing room with
  | nil => exact shows_replicate hbase room
  | cons g gs ih =>
    obtain ⟨hg, hgs⟩ := List.forall_mem_cons.mp hgs
    rw [List.map_cons]
    by_cases hn : g.width ≤ n
    · rw [List.filter_cons_of_pos (by simpa using hn), fit]
      by_cases hroom : g.width ≤ room
      · rw [if_pos hroom, Glyph.row, totalWidth, ← Nat.sub_sub]
        rcases Nat.eq_zero_or_pos g.width with hzero | hpos
        · rw [cells_cons_of_zero hzero, hzero]
          exact .unseen (.inl (hg.symm.trans hzero)) (ih hgs room)
        · exact (joins_of_isCluster hg).shows_cons hpos (ih hgs _)
      · rw [if_neg hroom]
        exact shows_cut hbase hg (Nat.lt_of_not_le hroom)
    · rw [List.filter_cons_of_neg (by simpa using hn)]
      apply Shows.unseen _ (ih hgs room)
      exact .inr (Nat.lt_of_lt_of_eq (Nat.lt_of_not_le hn) hg)

end Terminal

theorem Span.isCluster_of_mem_glyphs {s : Span} {g : Glyph} (h : g ∈ s.glyphs) : g.IsCluster := by
  obtain ⟨c, -, rfl⟩ := List.mem_map.mp h
  rfl

theorem Span.map_symbol_glyphs (s : Span) :
    s.glyphs.map (·.symbol) = Terminal.standard.symbols s.text := by
  simp [glyphs, Terminal.symbols, Terminal.standard, Function.comp_def]

namespace Line

open Terminal

variable {covered : Mark} {base : Cell}

theorem totalWidth_shown_le (l : Line) (width : Nat) :
    Glyph.totalWidth (l.shown width) ≤ width :=
  Glyph.totalWidth_fit_le _ _

theorem shows_shown (hbase : base.symbol = [' ']) (l : Line) (n : Nat) :
    standard.Shows n (l.flatMap (standard.symbols ·.text))
      (Glyph.row covered base n (l.shown n)) := by
  have hsymbols : l.flatMap (standard.symbols ·.text) = l.glyphs.map (·.symbol) := by
    simp only [glyphs, List.map_flatMap, Span.map_symbol_glyphs]
  rw [hsymbols]
  apply shows_fit hbase
  intro g hg
  obtain ⟨s, -, hs⟩ := List.mem_flatMap.mp hg
  exact Span.isCluster_of_mem_glyphs hs

theorem totalWidth_shownShared_le (room : Nat) (l : Line) :
    Glyph.totalWidth (shownShared room l) ≤ room := by
  induction l generalizing room with
  | nil => exact Nat.zero_le _
  | cons s l ih =>
    unfold shownShared
    by_cases h : room = 0
    · rw [if_pos h]
      exact Nat.zero_le _
    rw [if_neg h, Glyph.totalWidth_append, Glyph.totalWidth_share]
    have hrest := ih (room - Glyph.totalWidth s.glyphs)
    rcases Glyph.fit_cases room s.glyphs with ⟨hall, hle⟩ | ⟨g, hs, hgs, hle, hlt⟩
    · rw [hall]
      omega
    · have htotal := congrArg Glyph.totalWidth hgs
      rw [Glyph.totalWidth_append, Glyph.totalWidth] at htotal
      omega

theorem shownShared_zero (l : Line) : shownShared 0 l = [] := by
  cases l <;> rfl

theorem shows_shownShared (hbase : base.symbol = [' ']) (l : Line) (n room : Nat) :
    standard.Shows n (l.flatMap (standard.symbols ·.text))
      (Glyph.row covered base room (shownShared room l)) := by
  induction l generalizing room with
  | nil => exact shows_replicate hbase room
  | cons s l ih =>
    rcases Nat.eq_zero_or_pos room with rfl | hroom
    · rw [shownShared_zero]
      exact .nil_row ..
    have hcluster : ∀ g ∈ s.glyphs, g.IsCluster := fun g => Span.isCluster_of_mem_glyphs
    rw [List.flatMap_cons, ← Span.map_symbol_glyphs, shownShared, if_neg (Nat.ne_of_gt hroom),
      Glyph.row, Glyph.cells_append, Glyph.totalWidth_append, Glyph.totalWidth_share,
      List.append_assoc]
    rcases Glyph.fit_cases room s.glyphs with ⟨hall, hle⟩ | ⟨g, hs, hgs, hle, hlt⟩
    · rw [hall, ← Nat.sub_sub]
      exact shows_share hcluster (ih _)
    · have htotal := congrArg Glyph.totalWidth hgs
      rw [Glyph.totalWidth_append, Glyph.totalWidth] at htotal
      have hnone : room - Glyph.totalWidth s.glyphs = 0 := by omega
      rw [hnone, shownShared_zero]
      rw [hgs] at hcluster
      obtain ⟨hfit, hg⟩ := List.forall_mem_append.mp hcluster
      conv in s.glyphs.map _ => rw [hgs]
      rw [List.map_append, List.map_cons, List.append_assoc, List.cons_append]
      exact shows_share hfit (shows_cut hbase (hg g List.mem_cons_self) hlt)

end Line

theorem Terminal.isPlain_standard {text : List Char}
    (h : ∀ c ∈ text, Text.isOrdinary c = true) : standard.IsPlain text where
  clusters _ hcs := Text.clusters_of_isOrdinary fun c hc => h c (hcs.subset hc)
  clusterWidth c hc := by
    have hc := h c hc
    simp only [Text.isOrdinary, Bool.and_eq_true, decide_eq_true_eq] at hc
    exact hc.1.2
  unbroken hn := absurd (h _ hn) (by decide)

end Viewer

end MatrixLang
