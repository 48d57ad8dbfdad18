import MatrixLang.Proofs.Typing.System

/-! # The combination of operand types

The rules for operands are what the check computes: the combination of two types is a function, and
it is defined where a rule applies.
-/

namespace MatrixLang

theorem Extent.unify?_eq_some_iff {m n k : Extent} : m.unify? n = some k ↔ Agrees m n k := by
  constructor
  · intro h
    cases m with
    | known a =>
      cases n with
      | known b =>
        obtain ⟨rfl, rfl⟩ : a = b ∧ known a = k := by simpa [unify?] using h
        exact .known
      | unknown =>
        obtain rfl : known a = k := by simpa [unify?] using h
        exact .right
    | unknown =>
      obtain rfl : n = k := by simpa [unify?] using h
      exact .left
  · rintro (_ | _ | _)
    · exact if_pos rfl
    · rfl
    · cases m <;> rfl

theorem Extent.unify?_eq_none {m n : Extent} (h : m.unify? n = none) :
    ∃ a b, m = .known a ∧ n = .known b ∧ a ≠ b := by
  cases m with
  | known a =>
    cases n with
    | known b => exact ⟨a, b, rfl, rfl, by simpa [unify?] using h⟩
    | unknown => simp [unify?] at h
  | unknown => simp [unify?] at h

theorem Shape.broadcast?_eq_some_iff {s t u : Shape} :
    s.broadcast? t = some u ↔ Broadcasts s t u := by
  obtain ⟨m, i⟩ := s
  obtain ⟨n, j⟩ := t
  obtain ⟨k, l⟩ := u
  constructor
  · intro h
    unfold broadcast? at h
    cases hc : i.unify? j with
    | none => simp [hc] at h
    | some columns =>
      have hc' := Extent.unify?_eq_some_iff.mp hc
      cases hr : m.unify? n with
      | some rows =>
        obtain ⟨rfl, rfl⟩ : rows = k ∧ columns = l := by simpa [hc, hr] using h
        exact ⟨.agree (Extent.unify?_eq_some_iff.mp hr), hc'⟩
      | none =>
        obtain ⟨a, b, rfl, rfl, _⟩ := Extent.unify?_eq_none hr
        simp only [hc, hr, isRow, decide_eq_true_eq, Extent.known.injEq] at h
        split at h
        next ha =>
          obtain ⟨rfl, rfl⟩ : Extent.known b = k ∧ columns = l := by simpa using h
          exact ⟨ha ▸ .left, hc'⟩
        split at h
        next hb =>
          obtain ⟨rfl, rfl⟩ : Extent.known a = k ∧ columns = l := by simpa using h
          exact ⟨hb ▸ .right, hc'⟩
        · simp at h
  · rintro ⟨hr, hc⟩
    have hc' := Extent.unify?_eq_some_iff.mpr hc
    dsimp only at hr hc'
    cases hr with
    | agree h => simp [broadcast?, hc', Extent.unify?_eq_some_iff.mpr h]
    | @left n =>
      by_cases hn : 1 = n
      · obtain rfl := hn
        have hm := Extent.unify?_eq_some_iff.mpr (@Agrees.known 1)
        simp [broadcast?, hc', hm]
      · have hm : (Extent.known 1).unify? (.known n) = none := if_neg hn
        simp [broadcast?, hc', hm, isRow]
    | @right n =>
      by_cases hn : n = 1
      · obtain rfl := hn
        have hm := Extent.unify?_eq_some_iff.mpr (@Agrees.known 1)
        simp [broadcast?, hc', hm]
      · have hm : (Extent.known n).unify? (.known 1) = none := if_neg hn
        simp [broadcast?, hc', hm, hn, isRow]

theorem Ty.isNumeric_iff {τ : Ty} : τ.isNumeric = true ↔ τ.Number := by
  constructor
  · intro h
    cases τ with
    | int => exact .int
    | float => exact .float
    | _ => simp [isNumeric] at h
  · rintro (_ | _) <;> rfl

theorem Ty.combinePlain_eq_ok_iff {op : Arithmetic} {σ τ υ : Ty} :
    combinePlain op σ τ = .ok υ ↔ Combines (.plain op) σ τ υ := by
  constructor
  · intro h
    cases σ <;> cases τ <;> simp [combinePlain, isNumeric, isMatrix] at h
    case int.int => exact h ▸ .ints
    case int.float => exact h ▸ .floatRight .int
    case float.int => exact h ▸ .floatLeft .int
    case float.float => exact h ▸ .floatLeft .float
    case matrix.matrix s t =>
      cases hb : s.broadcast? t with
      | none => simp [hb] at h
      | some u =>
        obtain rfl : matrix u = υ := by simpa [hb] using h
        exact .matrices (Shape.broadcast?_eq_some_iff.mp hb)
  · intro h
    cases h with
    | ints => rfl
    | floatRight h => cases h <;> rfl
    | floatLeft h => cases h <;> rfl
    | matrices h => simp [combinePlain, Shape.broadcast?_eq_some_iff.mpr h]

theorem Ty.combineElementwise_eq_ok_iff {op : Arithmetic} {σ τ υ : Ty} :
    combineElementwise σ τ = .ok υ ↔ Combines (.elementwise op) σ τ υ := by
  constructor
  · intro h
    cases σ <;> cases τ <;> simp [combineElementwise, isNumeric] at h
    case int.matrix => exact h ▸ .scaledLeft .int
    case float.matrix => exact h ▸ .scaledLeft .float
    case matrix.int => exact h ▸ .scaledRight .int
    case matrix.float => exact h ▸ .scaledRight .float
  · intro h
    cases h with
    | scaledRight h => cases h <;> rfl
    | scaledLeft h => cases h <;> rfl

theorem Ty.combine_eq_ok_iff {op : BinaryOperator} {σ τ υ : Ty} :
    σ.combine op τ = .ok υ ↔ Combines op σ τ υ := by
  cases op with
  | plain op => exact combinePlain_eq_ok_iff
  | elementwise op => exact combineElementwise_eq_ok_iff

end MatrixLang
