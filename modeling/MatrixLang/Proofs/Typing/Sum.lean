import Mathlib.Data.List.Perm.Basic
import MatrixLang.Proofs.Typing.Combine

/-! # Sums of many operands

Under a plain operator the order of the operands has no influence on the type of the result, and
neither has their grouping. Sums of extents, of shapes and of types are each commutative and
associative as far as they are defined, and one of them fails in every grouping if it fails in any.
-/

namespace MatrixLang

section Laws

variable {m n k l j : Extent}

theorem Agrees.self : Agrees m m m := by
  cases m with
  | known => exact .known
  | unknown => exact .left

theorem Agrees.symm (h : Agrees m n k) : Agrees n m k := by
  cases h with
  | known => exact .known
  | left => exact .right
  | right => exact .left

theorem Agrees.assoc (h : Agrees m n k) (h' : Agrees k l j) :
    ∃ i, Agrees n l i ∧ Agrees m i j := by
  cases h with
  | known => exact ⟨j, h', by cases h' <;> exact .known⟩
  | left => exact ⟨j, h', .left⟩
  | right => exact ⟨l, .left, h'⟩

theorem Stretches.symm (h : Stretches m n k) : Stretches n m k := by
  cases h with
  | agree h => exact .agree h.symm
  | left => exact .right
  | right => exact .left

theorem Stretches.absorb (h : Stretches m n k) : Stretches m k k := by
  cases h with
  | agree h =>
    cases h with
    | known | right => exact .agree .self
    | left => exact .agree .left
  | left => exact .left
  | right => exact .agree .self

theorem Stretches.exists_known {a : Nat} (h : Stretches (.known a) n k) : ∃ b, k = .known b := by
  rcases h with ⟨_ | _ | _⟩ | _ | _ <;> exact ⟨_, rfl⟩

theorem Stretches.assoc (h : Stretches m n k) (h' : Stretches k l j) :
    ∃ i, Stretches n l i ∧ Stretches m i j := by
  cases h with
  | agree h =>
    cases h with
    | known => exact ⟨j, h', h'.absorb⟩
    | left => exact ⟨j, h', .agree .left⟩
    | right => exact ⟨l, .agree .left, h'⟩
  | left =>
    obtain ⟨b, rfl⟩ := h'.exists_known
    exact ⟨.known b, h', .left⟩
  | right =>
    cases h' with
    | agree h' =>
      cases h' with
      | known => exact ⟨_, .left, .agree .known⟩
      | right => exact ⟨_, .agree .right, .right⟩
    | left => exact ⟨_, .left, .left⟩
    | right => exact ⟨_, .agree .known, .right⟩

variable {s t u v w : Shape}

theorem Broadcasts.self : Broadcasts s s s := ⟨.agree .self, .self⟩

theorem Broadcasts.symm (h : Broadcasts s t u) : Broadcasts t s u := ⟨h.1.symm, h.2.symm⟩

theorem Broadcasts.assoc (h : Broadcasts s t u) (h' : Broadcasts u v w) :
    ∃ x, Broadcasts t v x ∧ Broadcasts s x w := by
  obtain ⟨rows, hr, hr'⟩ := h.1.assoc h'.1
  obtain ⟨columns, hc, hc'⟩ := h.2.assoc h'.2
  exact ⟨⟨rows, columns⟩, ⟨hr, hc⟩, ⟨hr', hc'⟩⟩

variable {op : Arithmetic} {ρ σ τ υ φ : Ty}

theorem Combines.symm {op : BinaryOperator} (h : Combines op σ τ υ) : Combines op τ σ υ := by
  cases h with
  | ints => exact .ints
  | floatRight h => exact .floatLeft h
  | floatLeft h => exact .floatRight h
  | matrices h => exact .matrices h.symm
  | scaledRight h => exact .scaledLeft h
  | scaledLeft h => exact .scaledRight h

theorem Combines.of_float (h : Combines (.plain op) .float τ υ) : τ.Number ∧ υ = .float := by
  cases h with
  | floatRight => exact ⟨.float, rfl⟩
  | floatLeft h => exact ⟨h, rfl⟩

theorem Ty.Number.exists_combines (hσ : σ.Number) (hτ : τ.Number) :
    ∃ υ, υ.Number ∧ Combines (.plain op) σ τ υ := by
  cases hσ with
  | int =>
    cases hτ with
    | int => exact ⟨.int, .int, .ints⟩
    | float => exact ⟨.float, .float, .floatRight .int⟩
  | float => exact ⟨.float, .float, .floatLeft hτ⟩

theorem Combines.assoc (h : Combines (.plain op) ρ σ υ) (h' : Combines (.plain op) υ τ φ) :
    ∃ ψ, Combines (.plain op) σ τ ψ ∧ Combines (.plain op) ρ ψ φ := by
  cases h with
  | ints =>
    cases h' with
    | ints => exact ⟨.int, .ints, .ints⟩
    | floatRight => exact ⟨.float, .floatRight .int, .floatRight .int⟩
  | floatRight h =>
    obtain ⟨hτ, rfl⟩ := h'.of_float
    exact ⟨.float, .floatLeft hτ, .floatRight h⟩
  | floatLeft h =>
    obtain ⟨hτ, rfl⟩ := h'.of_float
    obtain ⟨ψ, hψ, hc⟩ := h.exists_combines hτ
    exact ⟨ψ, hc, .floatLeft hψ⟩
  | matrices h =>
    cases h' with
    | floatRight hn => cases hn
    | matrices h' =>
      obtain ⟨x, hx, hx'⟩ := h.assoc h'
      exact ⟨.matrix x, .matrices hx, .matrices hx'⟩

end Laws

namespace Ty

def combine? (op : Arithmetic) (σ τ : Ty) : Option Ty := (σ.combine (.plain op) τ).toOption

/-- The combination of two results, which fails if one of them has failed. -/
def join? (op : Arithmetic) (a b : Option Ty) : Option Ty := do (← a).combine? op (← b)

section Join

variable {op : Arithmetic} {σ τ υ : Ty}

theorem combine?_eq_some_iff : σ.combine? op τ = some υ ↔ Combines (.plain op) σ τ υ := by
  rw [← combine_eq_ok_iff, combine?]
  cases σ.combine (.plain op) τ <;> simp [Except.toOption]

theorem combine?_comm (σ τ : Ty) : σ.combine? op τ = τ.combine? op σ := by
  ext υ
  rw [combine?_eq_some_iff, combine?_eq_some_iff]
  exact ⟨.symm, .symm⟩

/-- Three operands have one type in both groupings, or none in both. -/
theorem combine?_assoc (σ τ υ : Ty) :
    (σ.combine? op τ).bind (·.combine? op υ) = (τ.combine? op υ).bind (σ.combine? op ·) := by
  ext φ
  simp only [Option.bind_eq_some_iff, combine?_eq_some_iff]
  constructor
  · rintro ⟨ψ, h, h'⟩
    exact h.assoc h'
  · rintro ⟨ψ, h, h'⟩
    obtain ⟨χ, hχ, hχ'⟩ := h.symm.assoc h'.symm
    exact ⟨χ, hχ.symm, hχ'.symm⟩

theorem combine?_matrix_self (s : Shape) :
    (matrix s).combine? op (.matrix s) = some (.matrix s) :=
  combine?_eq_some_iff.mpr (.matrices .self)

theorem join?_eq_some_iff {a b : Option Ty} :
    join? op a b = some υ ↔
      ∃ σ τ, a = some σ ∧ b = some τ ∧ σ.combine (.plain op) τ = .ok υ := by
  simp only [join?, bind, Option.bind_eq_some_iff, combine?_eq_some_iff, combine_eq_ok_iff]
  constructor
  · rintro ⟨σ, ha, τ, hb, h⟩
    exact ⟨σ, τ, ha, hb, h⟩
  · rintro ⟨σ, τ, ha, hb, h⟩
    exact ⟨σ, ha, τ, hb, h⟩

instance : Std.Commutative (join? op) where
  comm a b := by
    cases a <;> cases b <;> try rfl
    exact combine?_comm _ _

instance : Std.Associative (join? op) where
  assoc a b c := by
    cases a <;> cases b <;> cases c <;> simp [join?, combine?_assoc]

end Join

/-- The types combined one behind the other: a type or a failure, or nothing for no types. -/
def joinAll? (op : Arithmetic) (ts : List Ty) : Option (Option Ty) :=
  (ts.map fun t => some (some t)).foldr (Option.merge (join? op)) none

section JoinAll

variable {op : Arithmetic} {ts us : List Ty}

theorem joinAll?_append :
    joinAll? op (ts ++ us) = Option.merge (join? op) (joinAll? op ts) (joinAll? op us) := by
  calc joinAll? op (ts ++ us)
      = (ts.map fun t => some (some t)).foldr (Option.merge (join? op)) (joinAll? op us) := by
        rw [joinAll?, List.map_append, List.foldr_append, ← joinAll?]
    _ = (ts.map fun t => some (some t)).foldr (Option.merge (join? op))
          (Option.merge (join? op) none (joinAll? op us)) := by rw [Option.merge_none_left]
    _ = Option.merge (join? op) (joinAll? op ts) (joinAll? op us) := List.foldr_assoc

theorem joinAll?_eq_of_perm (h : ts.Perm us) : joinAll? op ts = joinAll? op us :=
  (h.map _).foldr_op_eq

end JoinAll

/-- Operands with parentheses around each pair of them. -/
inductive Grouping where
  | operand (type : Ty)
  | pair (left right : Grouping)
  deriving DecidableEq, Repr

namespace Grouping

def types : Grouping → List Ty
  | operand t => [t]
  | pair left right => left.types ++ right.types

/-- The type of the whole, if all pairs combine. -/
def combined? (op : Arithmetic) : Grouping → Option Ty
  | operand t => some t
  | pair left right => join? op (left.combined? op) (right.combined? op)

theorem joinAll?_types (op : Arithmetic) (g : Grouping) :
    joinAll? op g.types = some (g.combined? op) := by
  induction g with
  | operand t => rfl
  | pair left right ihl ihr => rw [types, joinAll?_append, ihl, ihr, combined?, Option.merge]

/-- The combination of types under a plain operator is commutative and associative, also in where it
fails, and it leaves a shape that is combined with itself as it is. So operands have one type in
every order and every grouping, or none in any. -/
theorem combined?_eq_of_perm (op : Arithmetic) :
    (∀ σ τ : Ty, σ.combine? op τ = τ.combine? op σ) ∧
      (∀ σ τ υ : Ty,
        (σ.combine? op τ).bind (·.combine? op υ) = (τ.combine? op υ).bind (σ.combine? op ·)) ∧
      (∀ s : Shape, (matrix s).combine? op (.matrix s) = some (.matrix s)) ∧
      ∀ g h : Grouping, g.types.Perm h.types → g.combined? op = h.combined? op := by
  refine ⟨combine?_comm, combine?_assoc, combine?_matrix_self, fun g h hp => ?_⟩
  have hall : joinAll? op g.types = joinAll? op h.types := joinAll?_eq_of_perm hp
  rw [joinAll?_types, joinAll?_types] at hall
  exact Option.some.inj hall

section Rows

def twoColumns (rows : Extent) : Grouping := operand (.matrix ⟨rows, .known 2⟩)

/-- A sum of three rows, an unknown number of rows and one row. -/
def rowSum : Grouping :=
  pair (pair (twoColumns (.known 3)) (twoColumns .unknown)) (twoColumns (.known 1))

/-- The same operands in another order, the single row among the unknown ones first. -/
def turnedSum : Grouping :=
  pair (twoColumns (.known 3)) (pair (twoColumns (.known 1)) (twoColumns .unknown))

theorem combined?_turnedSum :
    rowSum.types.Perm turnedSum.types ∧
      turnedSum.combined? .add = some (.matrix (.ofSize 3 2)) := by
  have hp : rowSum.types.Perm turnedSum.types := by decide
  refine ⟨hp, ?_⟩
  rw [← (combined?_eq_of_perm .add).2.2.2 rowSum turnedSum hp]
  rfl

end Rows

end Grouping

end Ty

end MatrixLang
