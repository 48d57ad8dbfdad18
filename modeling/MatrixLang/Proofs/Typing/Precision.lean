import Mathlib.Data.Option.Defs
import MatrixLang.Proofs.Typing.Sound

/-! # Extents that are not known

A type with unknown extents stands for all the types that fill them in. Knowing fewer extents of the
variables neither makes the check reject an expression nor gives it a wrong type, except where a
plain operator has a single row on one side and an unknown number of rows on the other: the rows are
then taken for one row, though there may be more.
-/

namespace MatrixLang

section Covers

/-- The second extent is the first one, unless that is unknown. -/
inductive Extent.Covers : Extent → Extent → Prop
  | same {m} : Covers m m
  | unknown {m} : Covers .unknown m

structure Shape.Covers (s t : Shape) : Prop where
  rows : s.rows.Covers t.rows
  columns : s.columns.Covers t.columns

/-- The second type is the first one with some of its unknown extents filled in. -/
inductive Ty.Covers : Ty → Ty → Prop
  | same {τ} : Covers τ τ
  | matrix {s t} : s.Covers t → Covers (.matrix s) (.matrix t)

structure Binding.Covers (b c : Binding) : Prop where
  name : b.name = c.name
  type? : Option.Rel Ty.Covers b.type? c.type?

def Table.Covers (t u : Table) : Prop := List.Forall₂ Binding.Covers t.bindings u.bindings

theorem Table.Covers.find? {t u : Table} (h : t.Covers u) (x : String) :
    Option.Rel Binding.Covers (t.find? x) (u.find? x) := by
  obtain ⟨bs⟩ := t
  obtain ⟨cs⟩ := u
  unfold Table.find?
  unfold Table.Covers at h
  dsimp only at h ⊢
  induction h with
  | nil => exact .none
  | @cons b c bs cs hb _ ih =>
    rw [List.find?_cons, List.find?_cons, hb.name]
    cases c.name == x with
    | true => exact .some hb
    | false => exact ih

variable {σ τ : Ty}

theorem Ty.Covers.isNumeric (h : σ.Covers τ) : σ.isNumeric = τ.isNumeric := by
  cases h <;> rfl

theorem Ty.Covers.isMatrix (h : σ.Covers τ) : σ.isMatrix = τ.isMatrix := by
  cases h <;> rfl

theorem Ty.Covers.eq_int_iff (h : σ.Covers τ) : σ = .int ↔ τ = .int := by
  cases h with
  | same => rfl
  | matrix => simp

theorem Ty.Covers.number (h : σ.Covers τ) (hn : τ.Number) : σ.Number := by
  rw [← isNumeric_iff] at hn ⊢
  exact h.isNumeric.trans hn

theorem Ty.Covers.eq_of_number (h : σ.Covers τ) (hn : τ.Number) : σ = τ := by
  cases h with
  | same => rfl
  | matrix => cases hn

theorem Ty.Covers.exists_matrix {t : Shape} (h : σ.Covers (.matrix t)) :
    ∃ s : Shape, σ = .matrix s ∧ s.Covers t := by
  cases h with
  | same => exact ⟨t, rfl, .same, .same⟩
  | matrix h => exact ⟨_, rfl, h⟩

end Covers

section Combination

/-- One side has a single row and the other an unknown number of rows. -/
def Extent.Ambiguous (m n : Extent) : Prop :=
  (m = .known 1 ∧ n = .unknown) ∨ (m = .unknown ∧ n = .known 1)

variable {m n k m' n' k' : Extent}

theorem Agrees.covers_left (h : Agrees m n k) : m.Covers k := by
  cases h with
  | known | right => exact .same
  | left => exact .unknown

theorem Agrees.covers_right (h : Agrees m n k) : n.Covers k := by
  cases h with
  | known | left => exact .same
  | right => exact .unknown

theorem Agrees.covers (h : Agrees m' n' k') (hm : m.Covers m') (hn : n.Covers n') :
    ∃ k, Agrees m n k ∧ k.Covers k' := by
  cases hm with
  | same =>
    cases hn with
    | same => exact ⟨k', h, .same⟩
    | unknown => exact ⟨m, .right, h.covers_left⟩
  | unknown =>
    cases hn with
    | same => exact ⟨n, .left, h.covers_right⟩
    | unknown => exact ⟨.unknown, .left, .unknown⟩

theorem Stretches.covers (h : Stretches m' n' k') (hm : m.Covers m') (hn : n.Covers n')
    (hd : ¬ m.Ambiguous n) : ∃ k, Stretches m n k ∧ k.Covers k' := by
  cases h with
  | agree h =>
    obtain ⟨k, hk, hc⟩ := h.covers hm hn
    exact ⟨k, .agree hk, hc⟩
  | left =>
    cases hn with
    | same =>
      cases hm with
      | same => exact ⟨_, .left, .same⟩
      | unknown => exact ⟨_, .agree .left, .same⟩
    | unknown =>
      cases hm with
      | same => exact absurd (.inl ⟨rfl, rfl⟩) hd
      | unknown => exact ⟨_, .agree .left, .unknown⟩
  | right =>
    cases hm with
    | same =>
      cases hn with
      | same => exact ⟨_, .right, .same⟩
      | unknown => exact ⟨_, .agree .right, .same⟩
    | unknown =>
      cases hn with
      | same => exact absurd (.inr ⟨rfl, rfl⟩) hd
      | unknown => exact ⟨_, .agree .left, .unknown⟩

theorem Stretches.eq_one (h : Stretches m n k) (hd : m.Ambiguous n) : k = .known 1 := by
  rcases hd with ⟨rfl, rfl⟩ | ⟨rfl, rfl⟩
  · rcases h with ⟨_ | _ | _⟩
    rfl
  · rcases h with ⟨_ | _ | _⟩
    rfl

/-- The rows of a sum cover those of all sums that it stands for, unless it is ambiguous. -/
theorem Extent.not_ambiguous_iff :
    ¬ m.Ambiguous n ↔ ∀ m' n' k', m.Covers m' → n.Covers n' → Stretches m' n' k' →
      ∃ k, Stretches m n k ∧ k.Covers k' := by
  constructor
  · exact fun hd m' n' k' hm hn h => h.covers hm hn hd
  · intro h hd
    have hk : ∃ k, Stretches m n k ∧ k.Covers (.known 2) := by
      rcases hd with ⟨rfl, rfl⟩ | ⟨rfl, rfl⟩
      · exact h _ _ _ .same .unknown .left
      · exact h _ _ _ .unknown .same .right
    obtain ⟨k, hs, hc⟩ := hk
    obtain rfl := hs.eq_one hd
    cases hc

/-- The plain operators do not have a single row beside an unknown number of rows. -/
def Ty.Unambiguous : BinaryOperator → Ty → Ty → Prop
  | .plain _, .matrix s, .matrix t => ¬ s.rows.Ambiguous t.rows
  | _, _, _ => True

theorem Combines.covers {op : BinaryOperator} {σ τ σ' τ' υ' : Ty} (h : Combines op σ' τ' υ')
    (hσ : σ.Covers σ') (hτ : τ.Covers τ') (hd : Ty.Unambiguous op σ τ) :
    ∃ υ, Combines op σ τ υ ∧ υ.Covers υ' := by
  cases h with
  | ints =>
    obtain rfl := hσ.eq_of_number .int
    obtain rfl := hτ.eq_of_number .int
    exact ⟨_, .ints, .same⟩
  | floatRight hn =>
    obtain rfl := hσ.eq_of_number hn
    obtain rfl := hτ.eq_of_number .float
    exact ⟨_, .floatRight hn, .same⟩
  | floatLeft hn =>
    obtain rfl := hσ.eq_of_number .float
    obtain rfl := hτ.eq_of_number hn
    exact ⟨_, .floatLeft hn, .same⟩
  | matrices h =>
    obtain ⟨s, rfl, hs⟩ := hσ.exists_matrix
    obtain ⟨t, rfl, ht⟩ := hτ.exists_matrix
    obtain ⟨rows, hr, hrc⟩ := h.1.covers hs.rows ht.rows hd
    obtain ⟨columns, hc, hcc⟩ := h.2.covers hs.columns ht.columns
    exact ⟨.matrix ⟨rows, columns⟩, .matrices ⟨hr, hc⟩, .matrix ⟨hrc, hcc⟩⟩
  | scaledRight hn =>
    obtain ⟨s, rfl, hs⟩ := hσ.exists_matrix
    exact ⟨_, .scaledRight (hτ.number hn), .matrix hs⟩
  | scaledLeft hn =>
    obtain ⟨t, rfl, ht⟩ := hτ.exists_matrix
    exact ⟨_, .scaledLeft (hσ.number hn), .matrix ht⟩

end Combination

open Check

namespace Check

section Basic

variable {ε ε' : Type} {s : Checker ε} {s' : Checker ε'} {line : Nat} {t t' u u' : Option Ty}

theorem combined_covers {op : BinaryOperator} (ht : Option.Rel Ty.Covers t t')
    (hu : Option.Rel Ty.Covers u u')
    (hd : ∀ σ τ, t = some σ → u = some τ → Ty.Unambiguous op σ τ)
    (h : Quiet (combined line op t' u') s') :
    ∃ v v', combined line op t u s = (v, s) ∧ combined line op t' u' s' = (v', s') ∧
      Option.Rel Ty.Covers v v' := by
  cases ht with
  | none => exact absurd h not_quiet_report_bind
  | @some σ σ' hσ =>
    cases hu with
    | none => exact absurd h not_quiet_report_bind
    | @some τ τ' hτ =>
      obtain ⟨υ', hυ'⟩ := h.combines
      obtain ⟨υ, hυ, hc⟩ := hυ'.covers hσ hτ (hd σ τ rfl rfl)
      simp only [combined, Ty.combine_eq_ok_iff.mpr hυ, Ty.combine_eq_ok_iff.mpr hυ']
      exact ⟨some υ, some υ', rfl, rfl, .some hc⟩

theorem transposed_covers (ht : Option.Rel Ty.Covers t t') (h : Quiet (transposed line t') s') :
    ∃ v v', transposed line t s = (v, s) ∧ transposed line t' s' = (v', s') ∧
      Option.Rel Ty.Covers v v' := by
  cases ht with
  | none => exact absurd h not_quiet_report_bind
  | @some τ τ' hτ =>
    obtain ⟨shape', rfl⟩ := h.eq_matrix
    obtain ⟨shape, rfl, hc⟩ := hτ.exists_matrix
    exact ⟨_, _, rfl, rfl, .some (.matrix ⟨hc.columns, hc.rows⟩)⟩

theorem negated_covers (ht : Option.Rel Ty.Covers t t') (h : Quiet (negated line t') s') :
    negated line t s = (t, s) ∧ negated line t' s' = (t', s') := by
  cases ht with
  | none => exact absurd h not_quiet_report_bind
  | @some τ τ' hτ =>
    have hn' : τ'.isNumeric = true ∨ τ'.isMatrix = true := by
      rcases h.number_or_matrix with hn | ⟨shape, rfl⟩
      · exact .inl (Ty.isNumeric_iff.mpr hn)
      · exact .inr rfl
    have hn : τ.isNumeric = true ∨ τ.isMatrix = true := by
      rwa [hτ.isNumeric, hτ.isMatrix]
    simp only [negated, hn, hn', if_true]
    exact ⟨rfl, rfl⟩

theorem requireIndex_covers (ht : Option.Rel Ty.Covers t t')
    (h : Quiet (requireIndex line t') s') :
    requireIndex line t s = ((), s) ∧ requireIndex line t' s' = ((), s') := by
  cases ht with
  | none => exact ⟨rfl, rfl⟩
  | @some τ τ' hτ =>
    obtain rfl := h.eq_int
    obtain rfl := hτ.eq_int_iff.mpr rfl
    exact ⟨rfl, rfl⟩

end Basic

end Check

section Expressions

variable {ε ε' : Type} [Environment ε] [Environment ε'] {s : Checker ε} {s' : Checker ε'}

/-- Both checkers bind the same names, and the first types cover the second ones. -/
def Checker.Covers (s : Checker ε) (s' : Checker ε') : Prop :=
  ∀ x, Option.Rel Binding.Covers (Environment.find? s.environment x)
    (Environment.find? s'.environment x)

namespace Node

def operands : Node → List Node
  | .reference r => r.indices
  | .matrix rows _ => rows.flatten
  | .builtin _ arguments _ => arguments
  | .binary _ left right _ | .comparison _ left right _ => [left, right]
  | .unary _ operand _ => [operand]
  | _ => []

/-- An expression is part of another one. -/
inductive Within (d : Node) : Node → Prop
  | self : Within d d
  | operand {o e : Node} : o ∈ e.operands → Within d o → Within d e

/-- No plain operator within the expression has a single row beside an unknown number of rows. -/
def Unambiguous (s : Checker ε) (e : Node) : Prop :=
  ∀ op left right l, Within (.binary op left right l) e →
    ∀ σ τ, (check left s).1 = some σ → (check right s).1 = some τ → Ty.Unambiguous op σ τ

theorem Unambiguous.operand {o e : Node} (h : e.Unambiguous s) (ho : o ∈ e.operands) :
    o.Unambiguous s :=
  fun op left right l hw => h op left right l (.operand ho hw)

theorem Unambiguous.of_binary {op : BinaryOperator} {left right : Node} {l : Location}
    (h : (binary op left right l).Unambiguous s) :
    ∀ σ τ, (check left s).1 = some σ → (check right s).1 = some τ → Ty.Unambiguous op σ τ :=
  h op left right l .self

/-- An expression is unambiguous if its operands are, and if it is itself in case it is binary. -/
theorem unambiguous_of_operands {e : Node} (ho : ∀ o ∈ e.operands, o.Unambiguous s)
    (hb : ∀ op left right l, e = .binary op left right l →
      ∀ σ τ, (check left s).1 = some σ → (check right s).1 = some τ → Ty.Unambiguous op σ τ) :
    e.Unambiguous s := by
  intro op left right l hw
  cases hw with
  | self => exact hb op left right l rfl
  | operand hm hw => exact ho _ hm op left right l hw

/-- Both checkers check the expression in silence, and the first type covers the second. -/
def Covered (s : Checker ε) (s' : Checker ε') (e : Node) : Prop :=
  ∃ t t', check e s = (t, s) ∧ check e s' = (t', s') ∧ Option.Rel Ty.Covers t t'

theorem covered_of_eq {e : Node} {t : Option Ty} (h : check e s = (t, s))
    (h' : check e s' = (t, s')) : Covered s s' e := by
  refine ⟨t, t, h, h', ?_⟩
  cases t with
  | none => exact .none
  | some τ => exact .some .same

theorem variableType_covers {line : Nat} {x : String} (hs : s.Covers s')
    (h : Quiet (variableType line x) s') :
    ∃ v v', variableType line x s = (v, s) ∧ variableType line x s' = (v', s') ∧
      Option.Rel Ty.Covers v v' := by
  have hx := hs x
  generalize hb : Environment.find? s.environment x = b at hx
  generalize hb' : Environment.find? s'.environment x = b' at hx
  have hf : Check.find? x s = (b, s) := by rw [Check.find?, hb]
  have hf' : Check.find? x s' = (b', s') := by rw [Check.find?, hb']
  cases hx with
  | none => exact absurd (h.right hf' rfl) not_quiet_report_bind
  | @some b b' hx => exact ⟨b.type?, b'.type?, bind_eq hf, bind_eq hf', hx.type?⟩

section Lists

theorem checkIndices_covers {is : List Node} (ih : ∀ i ∈ is, Quiet (check i) s' → Covered s s' i)
    (h : Quiet (checkIndices is) s') :
    checkIndices is s = ((), s) ∧ checkIndices is s' = ((), s') := by
  induction is with
  | nil => exact ⟨rfl, rfl⟩
  | cons i is ih' =>
    rw [List.forall_mem_cons] at ih
    simp only [checkIndices] at h ⊢
    obtain ⟨t, t', ht, ht', hc⟩ := ih.1 h.left
    have h₁ := h.right ht' rfl
    obtain ⟨hi, hi'⟩ := requireIndex_covers (s := s) hc h₁.left
    rw [bind_eq ht, bind_eq hi, bind_eq ht', bind_eq hi']
    exact ih' ih.2 (h₁.right hi' rfl)

theorem checkElements_covers {line : Nat} {es : List Node}
    (ih : ∀ e ∈ es, Quiet (check e) s' → Covered s s' e)
    (h : Quiet (checkElements line false es) s') :
    checkElements line false es s = ((), s) ∧ checkElements line false es s' = ((), s') := by
  induction es with
  | nil => exact ⟨rfl, rfl⟩
  | cons e es ih' =>
    rw [List.forall_mem_cons] at ih
    simp only [checkElements] at h ⊢
    obtain ⟨t, t', ht, ht', hc⟩ := ih.1 h.left
    have hn : t.any (·.isNumeric) = t'.any (·.isNumeric) := by
      cases hc with
      | none => rfl
      | some hτ => exact hτ.isNumeric
    have h₁ := h.right ht' rfl
    rw [bind_eq ht, bind_eq ht', hn]
    split at h₁
    next hn' =>
      rw [if_pos hn', if_pos hn']
      exact ih' ih.2 h₁
    next => exact absurd h₁ not_quiet_report_bind

theorem checkRows_covers {line : Nat} {rows : List (List Node)}
    (ih : ∀ row ∈ rows, ∀ e ∈ row, Quiet (check e) s' → Covered s s' e)
    (h : Quiet (checkRows line rows) s') :
    checkRows line rows s = ((), s) ∧ checkRows line rows s' = ((), s') := by
  induction rows with
  | nil => exact ⟨rfl, rfl⟩
  | cons row rows ih' =>
    rw [List.forall_mem_cons] at ih
    simp only [checkRows] at h ⊢
    obtain ⟨hr, hr'⟩ := checkElements_covers ih.1 h.left
    rw [bind_eq hr, bind_eq hr']
    exact ih' ih.2 (h.right hr' rfl)

theorem checkArguments_covers {es : List Node}
    (ih : ∀ e ∈ es, Quiet (check e) s' → Covered s s' e) (h : Quiet (checkArguments es) s') :
    ∃ all, checkArguments es s = (all, s) ∧ checkArguments es s' = (all, s') := by
  induction es with
  | nil => exact ⟨true, rfl, rfl⟩
  | cons e es ih' =>
    rw [List.forall_mem_cons] at ih
    simp only [checkArguments] at h ⊢
    obtain ⟨t, t', ht, ht', hc⟩ := ih.1 h.left
    obtain ⟨all, hall, hall'⟩ := ih' ih.2 (h.right ht' rfl).left
    have hi : t = some .int ↔ t' = some .int := by
      cases hc with
      | none => rfl
      | some hτ => simpa using hτ.eq_int_iff
    rw [bind_eq ht, bind_eq hall, bind_eq ht', bind_eq hall']
    exact ⟨_, rfl, by simp only [hi]; rfl⟩

end Lists

section Cases

variable {e left right : Node} {es is : List Node} {rows : List (List Node)} {l : Location}

theorem covered_reference {x : String} (hs : s.Covers s')
    (ih : ∀ i ∈ is, Quiet (check i) s' → Covered s s' i)
    (h : Quiet (check (.reference ⟨x, is, l⟩)) s') : Covered s s' (.reference ⟨x, is, l⟩) := by
  simp only [check, checkReference] at h
  obtain ⟨hi, hi'⟩ := checkIndices_covers ih h.left
  obtain ⟨t, t', ht, ht', hc⟩ := variableType_covers hs (h.right hi' rfl)
  refine ⟨t, t', ?_, ?_, hc⟩
  · rw [check, checkReference, bind_eq hi, ht]
  · rw [check, checkReference, bind_eq hi', ht']

theorem covered_matrix (ih : ∀ row ∈ rows, ∀ e ∈ row, Quiet (check e) s' → Covered s s' e)
    (h : Quiet (check (.matrix rows l)) s') : Covered s s' (.matrix rows l) := by
  simp only [check] at h
  split at h
  next => exact absurd h not_quiet_report_bind
  next hr =>
    obtain ⟨hrows, hrows'⟩ := checkRows_covers ih h.left
    refine covered_of_eq (t := some (.matrix (.ofSize rows.length (rows.headD []).length))) ?_ ?_
    · simp only [check, hr, Bool.false_eq_true, if_false]
      rw [bind_eq hrows, pure_apply]
    · simp only [check, hr, Bool.false_eq_true, if_false]
      rw [bind_eq hrows', pure_apply]

theorem covered_builtin {b : Builtin} (he : ∀ e ∈ es, e.IsExpression)
    (ih : ∀ e ∈ es, Quiet (check e) s' → Covered s s' e) (h : Quiet (check (.builtin b es l)) s') :
    Covered s s' (.builtin b es l) := by
  obtain ⟨ms, hms⟩ := mapM_extent?_eq he
  simp only [check, hms] at h
  obtain ⟨all, hall, hall'⟩ := checkArguments_covers ih h.left
  have h₁ := h.right hall' rfl
  split at h₁
  next ht =>
    refine covered_of_eq (t := (Shape.ofExtents? ms).map .matrix) ?_ ?_
    · simp only [check, hms]
      rw [bind_eq hall, if_pos ht, pure_apply]
    · simp only [check, hms]
      rw [bind_eq hall', if_pos ht, pure_apply]
  next => exact absurd h₁ not_quiet_report_bind

theorem covered_binary {op : BinaryOperator} (ihl : Quiet (check left) s' → Covered s s' left)
    (ihr : Quiet (check right) s' → Covered s s' right)
    (hd : (binary op left right l).Unambiguous s)
    (h : Quiet (check (.binary op left right l)) s') : Covered s s' (.binary op left right l) := by
  simp only [check] at h
  obtain ⟨t, t', ht, ht', hc⟩ := ihl h.left
  have h₁ := h.right ht' rfl
  obtain ⟨u, u', hu, hu', hc'⟩ := ihr h₁.left
  have hd' (σ τ : Ty) (hσ : t = some σ) (hτ : u = some τ) : Ty.Unambiguous op σ τ :=
    hd.of_binary σ τ (by rw [ht, hσ]) (by rw [hu, hτ])
  obtain ⟨v, v', hv, hv', hcv⟩ := combined_covers (s := s) hc hc' hd' (h₁.right hu' rfl)
  refine ⟨v, v', ?_, ?_, hcv⟩
  · rw [check, bind_eq ht, bind_eq hu, hv]
  · rw [check, bind_eq ht', bind_eq hu', hv']

theorem covered_comparison {c : Comparison} (ihl : Quiet (check left) s' → Covered s s' left)
    (ihr : Quiet (check right) s' → Covered s s' right)
    (h : Quiet (check (.comparison c left right l)) s') :
    Covered s s' (.comparison c left right l) := by
  simp only [check] at h
  obtain ⟨t, t', ht, ht', _⟩ := ihl h.left
  obtain ⟨u, u', hu, hu', _⟩ := ihr (h.right ht' rfl).left
  refine covered_of_eq (t := some .boolean) ?_ ?_
  · rw [check, bind_eq ht, bind_eq hu, pure_apply]
  · rw [check, bind_eq ht', bind_eq hu', pure_apply]

theorem covered_unary {op : UnaryOperator} (ih : Quiet (check e) s' → Covered s s' e)
    (h : Quiet (check (.unary op e l)) s') : Covered s s' (.unary op e l) := by
  cases op with
  | transpose =>
    simp only [check] at h
    obtain ⟨t, t', ht, ht', hc⟩ := ih h.left
    obtain ⟨v, v', hv, hv', hc'⟩ := transposed_covers (s := s) hc (h.right ht' rfl)
    refine ⟨v, v', ?_, ?_, hc'⟩
    · rw [check, bind_eq ht, hv]
    · rw [check, bind_eq ht', hv']
  | negate =>
    simp only [check] at h
    obtain ⟨t, t', ht, ht', hc⟩ := ih h.left
    obtain ⟨hv, hv'⟩ := negated_covers (s := s) hc (h.right ht' rfl)
    refine ⟨t, t', ?_, ?_, hc⟩
    · rw [check, bind_eq ht, hv]
    · rw [check, bind_eq ht', hv']

end Cases

/-- Where a check with known extents is silent, so is the check without them, and the type that it
gives covers the other. -/
theorem IsExpression.covered {e : Node} (he : e.IsExpression) (hs : s.Covers s')
    (hd : e.Unambiguous s) (h : Quiet (check e) s') : Covered s s' e := by
  induction he with
  | integer | float | string => exact covered_of_eq rfl rfl
  | reference _ ih => exact covered_reference hs (fun i hm => ih i hm (hd.operand hm)) h
  | matrix _ _ _ ih =>
    refine covered_matrix (fun row hm e hm' => ih row hm e hm' (hd.operand ?_)) h
    exact List.mem_flatten.mpr ⟨row, hm, hm'⟩
  | builtin _ he ih => exact covered_builtin he (fun e hm => ih e hm (hd.operand hm)) h
  | binary _ _ ihl ihr =>
    exact covered_binary (ihl (hd.operand (by simp [operands])))
      (ihr (hd.operand (by simp [operands]))) hd h
  | comparison _ _ ihl ihr =>
    exact covered_comparison (ihl (hd.operand (by simp [operands])))
      (ihr (hd.operand (by simp [operands]))) h
  | unary _ ih => exact covered_unary (ih (hd.operand (by simp [operands]))) h

end Node

end Expressions

namespace Checker

def ofTable (t : Table) : Checker Scopes := ⟨⟨t, []⟩, 0, []⟩

theorem covers_ofTable {t u : Table} (h : t.Covers u) : (ofTable t).Covers (ofTable u) := h.find?

/-- A table with fewer known extents leads to the same silence and to a type that covers the other,
for every expression in which no plain operator is ambiguous. -/
theorem expression_covers {t u : Table} {e : Node} (ht : t.Covers u) (he : e.IsExpression)
    (hd : e.Unambiguous (ofTable t)) (h : ((ofTable u).expression e).2.diagnostics = []) :
    ((ofTable t).expression e).2.diagnostics = [] ∧
      Option.Rel Ty.Covers ((ofTable t).expression e).1 ((ofTable u).expression e).1 := by
  obtain ⟨σ, τ, hσ, hτ, hc⟩ := he.covered (covers_ofTable ht) hd h
  rw [expression, expression, hσ, hτ]
  exact ⟨rfl, hc⟩

section Rows

def openTable : Table := ⟨[⟨"x", some (.matrix ⟨.unknown, .known 2⟩)⟩]⟩

def fixedTable : Table := ⟨[⟨"x", some (.matrix (.ofSize 5 2))⟩]⟩

def columnSum : Node :=
  .binary (.plain .add) (.unary .transpose (.reference ⟨"x", [], ⟨1, 1⟩⟩) ⟨1, 2⟩)
    (.builtin .zeros [.integer (2 : Nat) ⟨1, 12⟩, .integer (5 : Nat) ⟨1, 15⟩] ⟨1, 6⟩) ⟨1, 4⟩

/-- The expression `((x + [1, 2])' + zeros(2, 5)) == 0`. -/
def stretchedSum : Node :=
  .comparison .equal
    (.binary (.plain .add)
      (.unary .transpose
        (.binary (.plain .add) (.reference ⟨"x", [], ⟨1, 3⟩⟩)
          (.matrix [[.integer (1 : Nat) ⟨1, 8⟩, .integer (2 : Nat) ⟨1, 11⟩]] ⟨1, 7⟩) ⟨1, 5⟩)
        ⟨1, 14⟩)
      (.builtin .zeros [.integer (2 : Nat) ⟨1, 24⟩, .integer (5 : Nat) ⟨1, 27⟩] ⟨1, 18⟩) ⟨1, 16⟩)
    (.integer (0 : Nat) ⟨1, 34⟩) ⟨1, 31⟩

theorem openTable_covers : openTable.Covers fixedTable :=
  .cons ⟨rfl, .some (.matrix ⟨.unknown, .same⟩)⟩ .nil

/-- With five rows the check passes the expression, and without them it rejects it. -/
theorem stretchedSum_rejected :
    openTable.Covers fixedTable ∧ stretchedSum.IsExpression ∧
      ((ofTable fixedTable).expression stretchedSum).1 = some .boolean ∧
      ((ofTable fixedTable).expression stretchedSum).2.diagnostics = [] ∧
      ((ofTable openTable).expression stretchedSum).2.diagnostics =
        [⟨1, .combination (.shapes (.ofSize 2 1) (.ofSize 2 5))⟩] := by
  refine ⟨openTable_covers, ?_, rfl, rfl, rfl⟩
  exact .comparison
    (.binary
      (.unary (.binary (.reference nofun)
        (.matrix (by simp) (by simp) (by simpa using ⟨.integer, .integer⟩))))
      (.builtin (by simp) (by simpa using ⟨.integer, .integer⟩)))
    .integer

theorem isExpression_columnSum : columnSum.IsExpression :=
  .binary (.unary (.reference nofun)) (.builtin (by simp) (by simpa using ⟨.integer, .integer⟩))

theorem unambiguous_columnSum : columnSum.Unambiguous (ofTable openTable) := by
  have hx : Node.Unambiguous (ofTable openTable) (.reference ⟨"x", [], ⟨1, 1⟩⟩) :=
    Node.unambiguous_of_operands (by simp [Node.operands]) (by simp)
  have hi (n : Int) (l : Location) : Node.Unambiguous (ofTable openTable) (.integer n l) :=
    Node.unambiguous_of_operands (by simp [Node.operands]) (by simp)
  refine Node.unambiguous_of_operands ?_ ?_
  · simp only [columnSum, Node.operands, List.forall_mem_cons]
    exact ⟨Node.unambiguous_of_operands (by simpa [Node.operands] using hx) (by simp),
      Node.unambiguous_of_operands (by simpa [Node.operands] using ⟨hi _ _, hi _ _⟩) (by simp),
      List.forall_mem_nil _⟩
  · rintro _ _ _ _ ⟨⟩ _ _ ⟨⟩ ⟨⟩
    simp [Ty.Unambiguous, Extent.Ambiguous, Shape.transpose]

theorem columnSum_covers :
    ((ofTable fixedTable).expression columnSum).2.diagnostics = [] ∧
      ((ofTable openTable).expression columnSum).2.diagnostics = [] :=
  ⟨rfl, (expression_covers openTable_covers isExpression_columnSum unambiguous_columnSum rfl).1⟩

end Rows

end Checker

end MatrixLang
