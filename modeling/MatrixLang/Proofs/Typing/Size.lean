import MatrixLang.Proofs.Typing.Precision

/-! # Sizes that fill in a shape

When a program runs its matrices have sizes. A plain operator is rejected between two shapes exactly
if no sizes that fill them in could go together.
-/

namespace MatrixLang

/-- The rows and columns of a matrix when the program runs. -/
structure Size where
  rows : Nat
  columns : Nat
  deriving DecidableEq, Repr

/-- Matrices of the two sizes have as many columns as each other, and as many rows unless one of
them is a single row. -/
def Size.Compatible (a b : Size) : Prop :=
  a.columns = b.columns ∧ (a.rows = b.rows ∨ a.rows = 1 ∨ b.rows = 1)

/-- The size is the shape with its unknown extents filled in. -/
def Shape.Admits (s : Shape) (a : Size) : Prop := s.Covers (.ofSize a.rows a.columns)

section Extents

variable {m n k : Extent}

theorem Extent.Covers.trans (h : m.Covers n) (h' : n.Covers k) : m.Covers k := by
  cases h with
  | same => exact h'
  | unknown => exact .unknown

theorem Extent.exists_covers_known (m : Extent) : ∃ a, m.Covers (.known a) := by
  cases m with
  | known a => exact ⟨a, .same⟩
  | unknown => exact ⟨0, .unknown⟩

theorem exists_agrees_iff :
    (∃ k, Agrees m n k) ↔ ∃ a, m.Covers (.known a) ∧ n.Covers (.known a) := by
  constructor
  · rintro ⟨k, h⟩
    obtain ⟨a, ha⟩ := k.exists_covers_known
    exact ⟨a, h.covers_left.trans ha, h.covers_right.trans ha⟩
  · rintro ⟨a, hm, hn⟩
    obtain ⟨k, hk, _⟩ := Agrees.known.covers hm hn
    exact ⟨k, hk⟩

theorem exists_stretches_iff :
    (∃ k, Stretches m n k) ↔
      ∃ a b, m.Covers (.known a) ∧ n.Covers (.known b) ∧ (a = b ∨ a = 1 ∨ b = 1) := by
  constructor
  · rintro ⟨k, h⟩
    cases h with
    | agree h =>
      obtain ⟨a, hm, hn⟩ := exists_agrees_iff.mp ⟨k, h⟩
      exact ⟨a, a, hm, hn, .inl rfl⟩
    | @left b => exact ⟨1, b, .same, .same, .inr (.inl rfl)⟩
    | @right a => exact ⟨a, 1, .same, .same, .inr (.inr rfl)⟩
  · rintro ⟨a, b, hm, hn, h⟩
    cases hm with
    | unknown => exact ⟨n, .agree .left⟩
    | same =>
      cases hn with
      | unknown => exact ⟨_, .agree .right⟩
      | same =>
        rcases h with rfl | rfl | rfl
        · exact ⟨_, .agree .known⟩
        · exact ⟨_, .left⟩
        · exact ⟨_, .right⟩

end Extents

namespace Shape

variable {s t : Shape}

theorem exists_broadcasts_iff :
    (∃ u, Broadcasts s t u) ↔ ∃ a b, s.Admits a ∧ t.Admits b ∧ a.Compatible b := by
  constructor
  · rintro ⟨u, hr, hc⟩
    obtain ⟨a, b, ha, hb, hab⟩ := exists_stretches_iff.mp ⟨_, hr⟩
    obtain ⟨c, hs, ht⟩ := exists_agrees_iff.mp ⟨_, hc⟩
    exact ⟨⟨a, c⟩, ⟨b, c⟩, ⟨ha, hs⟩, ⟨hb, ht⟩, rfl, hab⟩
  · rintro ⟨⟨a, c⟩, ⟨b, d⟩, hs, ht, hc, hr⟩
    obtain rfl : c = d := hc
    obtain ⟨rows, hrows⟩ := exists_stretches_iff.mpr ⟨a, b, hs.rows, ht.rows, hr⟩
    obtain ⟨columns, hcolumns⟩ := exists_agrees_iff.mpr ⟨c, hs.columns, ht.columns⟩
    exact ⟨⟨rows, columns⟩, hrows, hcolumns⟩

theorem broadcast?_isSome : (s.broadcast? t).isSome ↔ ∃ u, Broadcasts s t u := by
  simp only [Option.isSome_iff_exists, broadcast?_eq_some_iff]

theorem combine_eq_shapes_iff {op : Arithmetic} :
    (Ty.matrix s).combine (.plain op) (.matrix t) = .error (.shapes s t) ↔
      (s.broadcast? t).isSome = false := by
  rw [Ty.combine, Ty.combinePlain]
  cases s.broadcast? t <;> simp

/-- The rows and columns of two operands fit together as far as they are known exactly if the
operands can turn out to have sizes that do, and shapes that no sizes can make fit are the only ones
that a plain operator reports. -/
theorem broadcast?_isSome_iff (s t : Shape) :
    ((s.broadcast? t).isSome ↔ ∃ a b, s.Admits a ∧ t.Admits b ∧ a.Compatible b) ∧
      ∀ op, (Ty.matrix s).combine (.plain op) (.matrix t) = .error (.shapes s t) ↔
        ∀ a b, s.Admits a → t.Admits b → ¬ a.Compatible b := by
  have hfits := broadcast?_isSome.trans (exists_broadcasts_iff (s := s) (t := t))
  refine ⟨hfits, fun op => ?_⟩
  rw [combine_eq_shapes_iff, ← Bool.not_eq_true, hfits]
  simp only [not_exists, not_and]

end Shape

end MatrixLang
