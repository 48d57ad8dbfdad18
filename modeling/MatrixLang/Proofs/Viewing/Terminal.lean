import Mathlib.Data.List.TakeDrop
import MatrixLang.Viewer.Terminal

/-! # What a terminal shows

The viewer relies on a few laws of its terminal. Widgets whose areas share no cell do not disturb
each other, and inside its border each of them shows its lines from the top, cut at the right edge.
-/

namespace MatrixLang.Viewer

namespace Area

variable {a b c : Area} {x y : Nat}

theorem contains_iff :
    a.contains x y = true ↔
      a.left ≤ x ∧ x < a.left + a.width ∧ a.top ≤ y ∧ y < a.top + a.height := by
  simp [contains, and_assoc]

theorem contains_eq_false_iff :
    a.contains x y = false ↔
      ¬ (a.left ≤ x ∧ x < a.left + a.width ∧ a.top ≤ y ∧ y < a.top + a.height) := by
  rw [← contains_iff, Bool.not_eq_true]

/-- All cells of the second area are cells of the first one. -/
def Covers (a b : Area) : Prop := ∀ x y, b.contains x y = true → a.contains x y = true

/-- No cell of the second area is one of the first one. -/
def Apart (a b : Area) : Prop := ∀ x y, a.contains x y = true → b.contains x y = false

theorem Covers.trans (h : a.Covers b) (h' : b.Covers c) : a.Covers c :=
  fun x y hc => h x y (h' x y hc)

theorem Apart.symm (h : a.Apart b) : b.Apart a := by
  intro x y hb
  cases ha : a.contains x y with
  | false => rfl
  | true => exact absurd (h x y ha) (by simp [hb])

theorem Apart.mono_left (h : a.Apart c) (hab : a.Covers b) : b.Apart c :=
  fun x y hb => h x y (hab x y hb)

theorem Apart.mono_right (h : a.Apart b) (hbc : b.Covers c) : a.Apart c :=
  (h.symm.mono_left hbc).symm

theorem covers_inside (a : Area) (padding : Nat) : a.Covers (a.inside padding) := by
  intro x y h
  simp only [contains_iff, inside] at *
  omega

end Area

namespace Screen

/-- An area of the screen on which nothing has been drawn. -/
structure IsBlank (s : Screen) (a : Area) : Prop where
  covers : (Area.mk 0 0 s.width s.height).Covers a
  cell : ∀ x y, a.contains x y = true → s.cell x y = .blank

theorem length_row (s : Screen) (a : Area) (j : Nat) : (s.row a j).length = a.width := by
  rw [row, List.length_map, List.length_range]

theorem row_congr {s s' : Screen} {a b : Area} {j : Nat} (hab : a.Covers b) (hj : j < b.height)
    (h : ∀ x y, a.contains x y = true → s.cell x y = s'.cell x y) : s.row b j = s'.row b j := by
  apply List.map_congr_left
  intro i hi
  apply h _ _ (hab _ _ _)
  rw [Area.contains_iff]
  have := List.mem_range.mp hi
  omega

end Screen

namespace Terminal

variable (t : Terminal)

/-- The clusters of a text; a line break is not shown. -/
def symbols (cs : List Char) : List (List Char) := (t.clusters cs).filter (· != ['\n'])

/-- A row of cells shows clusters from the left, up to the first that has no room. A cluster that
fills no cell, or more than the `n` cells of the whole row, need not be seen. -/
inductive Shows (n : Nat) : List (List Char) → List Cell → Prop
  | blank {row} : (∀ c ∈ row, c.symbol = [' ']) → Shows n [] row
  | unseen {g gs row} : t.clusterWidth g = 0 ∨ n < t.clusterWidth g → Shows n gs row →
      Shows n (g :: gs) row
  | seen {before g behind gs c covered row} :
      (∀ z ∈ before ++ behind, t.clusterWidth z = 0) → covered.length + 1 = t.clusterWidth g →
      c.symbol = (before ++ g :: behind).flatten → Shows n gs row →
      Shows n (before ++ g :: behind ++ gs) (c :: covered ++ row)
  | cut {g gs row} : row.length < t.clusterWidth g → (∀ c ∈ row, c.symbol = [' ']) →
      Shows n (g :: gs) row

/-- A row of cells shows a text, handed over in pieces, and is cut at its right edge. -/
def Displays (text : List Char) (row : List Cell) : Prop :=
  ∃ pieces : List (List Char), pieces.flatten = text ∧
    t.Shows row.length (pieces.flatMap t.symbols) row

/-- What the viewer relies on. -/
structure Lawful : Prop where
  /-- A text is cut into clusters without loss. -/
  flatten_clusters : ∀ cs, (t.clusters cs).flatten = cs
  /-- The parts of an area lie in it. -/
  covers_split : ∀ d c c' (a : Area), a.Covers (t.split d c c' a).1 ∧ a.Covers (t.split d c c' a).2
  /-- They share no cell. -/
  apart_split : ∀ d c c' a, (t.split d c c' a).1.Apart (t.split d c c' a).2
  size_render : ∀ w a s, (t.render w a s).width = s.width ∧ (t.render w a s).height = s.height
  /-- A widget changes nothing outside its area. -/
  render_outside : ∀ w a s x y, a.contains x y = false → (t.render w a s).cell x y = s.cell x y
  /-- Inside its border a paragraph shows its lines from the top, cut at the right edge. -/
  row_paragraph : ∀ {s : Screen} {a : Area}, s.IsBlank a → ∀ ls b style, ∀ j < a.height - 2,
    t.Shows (a.inside b.padding).width ((ls.getD j []).flatMap (t.symbols ·.text))
      ((t.render (.paragraph ls (some b) style .left) a s).row (a.inside b.padding) j)
  /-- A list shows its entries in the same way. -/
  row_list : ∀ {s : Screen} {a : Area}, s.IsBlank a → ∀ items b, ∀ j < a.height - 2,
    t.Shows (a.inside b.padding).width
      (((items.map (·.line)).getD j []).flatMap (t.symbols ·.text))
      ((t.render (.list items b) a s).row (a.inside b.padding) j)

end Terminal

namespace Terminal

variable {t : Terminal}

theorem Shows.nil_row (t : Terminal) (n : Nat) (gs : List (List Char)) : t.Shows n gs [] := by
  induction gs with
  | nil => exact .blank (by simp)
  | cons g gs ih =>
    rcases Nat.eq_zero_or_pos (t.clusterWidth g) with h | h
    · exact .unseen (.inl h) ih
    · exact .cut h (by simp)

theorem Shows.blank_of_nil {n : Nat} {row : List Cell} (h : t.Shows n [] row) :
    ∀ c ∈ row, c.symbol = [' '] := by
  generalize hgs : ([] : List (List Char)) = gs at h
  cases h with
  | blank hrow => exact hrow
  | unseen => cases hgs
  | seen => simp at hgs
  | cut => cases hgs

section Plain

variable {text : List Char} {row : List Cell}

/-- Every piece of a text is shown character by character, each in a cell of its own. -/
structure IsPlain (t : Terminal) (text : List Char) : Prop where
  clusters : ∀ cs, cs <:+: text → t.clusters cs = cs.map ([·])
  clusterWidth : ∀ c ∈ text, t.clusterWidth [c] = 1
  unbroken : '\n' ∉ text

theorem IsPlain.mono {cs : List Char} (h : t.IsPlain text) (hcs : cs <:+: text) : t.IsPlain cs where
  clusters ds hds := h.clusters ds (hds.trans hcs)
  clusterWidth c hc := h.clusterWidth c (hcs.subset hc)
  unbroken hn := h.unbroken (hcs.subset hn)

theorem IsPlain.symbols_eq (h : t.IsPlain text) : t.symbols text = text.map ([·]) := by
  rw [symbols, h.clusters text List.infix_rfl, List.filter_eq_self]
  rintro g hg
  obtain ⟨c, hc, rfl⟩ := List.mem_map.mp hg
  simp only [bne_iff_ne, ne_eq, List.cons.injEq, and_true]
  rintro rfl
  exact h.unbroken hc

theorem IsPlain.flatMap_symbols {pieces : List (List Char)} (h : t.IsPlain pieces.flatten) :
    pieces.flatMap t.symbols = pieces.flatten.map ([·]) := by
  induction pieces with
  | nil => rfl
  | cons p pieces ih =>
    rw [List.flatten_cons] at h ⊢
    rw [List.flatMap_cons, (h.mono (List.infix_append' [] p _)).symbols_eq,
      ih (h.mono (List.suffix_append p _).isInfix), List.map_append]

theorem Shows.map_symbol {n : Nat} {gs : List (List Char)} (h : t.Shows n gs row)
    (hn : row.length ≤ n) (hgs : ∀ g ∈ gs, t.clusterWidth g = 1) :
    row.map (·.symbol) = gs.takeD row.length [' '] := by
  induction h with
  | @blank row hrow =>
    rw [List.takeD_nil, List.eq_replicate_iff]
    simpa using hrow
  | @unseen g gs row hg _ _ =>
    have hone := hgs g List.mem_cons_self
    obtain rfl : row = [] := List.eq_nil_of_length_eq_zero (by omega)
    rfl
  | @seen before g behind gs c covered row hzero hcovered hsymbol _ ih =>
    have hempty : before ++ behind = [] := by
      apply List.eq_nil_iff_forall_not_mem.mpr
      intro z hz
      have hone := hgs z (by
        rw [List.mem_append] at hz
        simp only [List.mem_append, List.mem_cons]
        tauto)
      exact absurd (hzero z hz) (by omega)
    obtain ⟨rfl, rfl⟩ := List.append_eq_nil_iff.mp hempty
    rw [hgs g (by simp)] at hcovered
    obtain rfl : covered = [] := List.eq_nil_of_length_eq_zero (by omega)
    have hrow := ih (by simp at hn; omega) fun h hh => hgs h (by simp [hh])
    simpa [hsymbol] using hrow
  | @cut g gs row hlt _ =>
    rw [hgs g List.mem_cons_self] at hlt
    obtain rfl : row = [] := List.eq_nil_of_length_eq_zero (by omega)
    rfl

/-- A plain text is shown character by character, with blanks behind it. -/
theorem Displays.map_symbol (h : t.Displays text row) (ht : t.IsPlain text) :
    row.map (·.symbol) = (text.map ([·])).takeD row.length [' '] := by
  obtain ⟨pieces, rfl, hshows⟩ := h
  rw [ht.flatMap_symbols] at hshows
  apply hshows.map_symbol (Nat.le_refl _)
  intro g hg
  obtain ⟨c, hc, rfl⟩ := List.mem_map.mp hg
  exact ht.clusterWidth c hc

end Plain

theorem displays_text {l : Line} {row : List Cell}
    (h : t.Shows row.length (l.flatMap (t.symbols ·.text)) row) : t.Displays l.text row :=
  ⟨l.map (·.text), (List.flatMap_def ..).symm, by rwa [List.flatMap_map]⟩

variable (ht : t.Lawful)
include ht

theorem Lawful.flatten_symbols {cs : List Char} (hn : '\n' ∉ cs) : (t.symbols cs).flatten = cs := by
  have hbreak : ∀ g ∈ t.clusters cs, (g != ['\n']) = true := by
    intro g hg
    rw [bne_iff_ne]
    rintro rfl
    apply hn
    rw [← ht.flatten_clusters cs]
    exact List.mem_flatten_of_mem hg List.mem_cons_self
  rw [symbols, List.filter_eq_self.mpr hbreak, ht.flatten_clusters]

/-- A row that displays a text without line breaks shows clusters that make up the whole text. -/
theorem Lawful.exists_shows {text : List Char} {row : List Cell} (hn : '\n' ∉ text)
    (h : t.Displays text row) : ∃ gs, gs.flatten = text ∧ t.Shows row.length gs row := by
  obtain ⟨pieces, rfl, hshows⟩ := h
  refine ⟨pieces.flatMap t.symbols, ?_, hshows⟩
  have hpieces : pieces.map (List.flatten ∘ t.symbols) = pieces.map id := by
    apply List.map_congr_left
    intro cs hcs
    exact ht.flatten_symbols fun hmem => hn (List.mem_flatten_of_mem hcs hmem)
  rw [List.flatMap_def, List.flatten_flatten, List.map_map, hpieces, List.map_id]

theorem Lawful.size_screen (d : Drawing) (s : Screen) :
    let s' := d.foldl (fun s p => t.render p.widget p.area s) s
    s'.width = s.width ∧ s'.height = s.height := by
  induction d generalizing s with
  | nil => exact ⟨rfl, rfl⟩
  | cons p d ih =>
    have hp := ht.size_render p.widget p.area s
    have hd := ih (t.render p.widget p.area s)
    exact ⟨hd.1.trans hp.1, hd.2.trans hp.2⟩

theorem Lawful.cell_foldl {d : Drawing} {a : Area} (hd : ∀ p ∈ d, p.area.Apart a) (s : Screen)
    {x y : Nat} (h : a.contains x y = true) :
    (d.foldl (fun s p => t.render p.widget p.area s) s).cell x y = s.cell x y := by
  induction d generalizing s with
  | nil => rfl
  | cons p d ih =>
    obtain ⟨hp, hd⟩ := List.forall_mem_cons.mp hd
    rw [List.foldl_cons, ih hd]
    exact ht.render_outside _ _ _ _ _ (hp.symm x y h)

/-- A widget that shares no cell with the others is drawn as on a blank screen. -/
theorem Lawful.row_screen {d : Drawing} {p : Placement} {width height : Nat} (hp : p ∈ d)
    (hd : (d.map (·.area)).Pairwise Area.Apart)
    (hscreen : (Area.mk 0 0 width height).Covers p.area) {b : Area} (hb : p.area.Covers b) :
    ∃ s : Screen, s.IsBlank p.area ∧ ∀ j < b.height,
      (t.screen d width height).row b j = (t.render p.widget p.area s).row b j := by
  obtain ⟨before, behind, rfl⟩ := List.append_of_mem hp
  obtain ⟨-, hbehind, hbefore⟩ := List.pairwise_append.mp (List.pairwise_map.mp hd)
  obtain ⟨hwidth, hheight⟩ := ht.size_screen before (.blank width height)
  refine ⟨t.screen before width height, ⟨?_, fun x y h => ?_⟩, fun j hj => ?_⟩
  · rw [screen, hwidth, hheight]
    exact hscreen
  · rw [screen, ht.cell_foldl (fun q hq => hbefore q hq p List.mem_cons_self) _ h]
    rfl
  · apply Screen.row_congr hb hj
    intro x y h
    have hother (q : Placement) (hq : q ∈ behind) : q.area.Apart p.area :=
      ((List.pairwise_cons.mp hbehind).1 q hq).symm
    rw [screen, List.foldl_append, List.foldl_cons, ht.cell_foldl hother _ h]
    rfl

end Terminal

end MatrixLang.Viewer
