import MatrixLang.Tree.Basic
import MatrixLang.Typing.Table

/-! # The type system

Which expressions have which type, and which statements are well typed and bind which names. One
context runs through a whole program, and blocks open none of their own.
-/

namespace MatrixLang

/-- The types of the bound names, in the order in which they were first bound. -/
abbrev Context := List (String × Ty)

namespace Context

/-- Gives a name a type, anew or again at its place. -/
def bind (x : String) (τ : Ty) : Context → Context
  | [] => [(x, τ)]
  | (y, σ) :: Γ => if y = x then (x, τ) :: Γ else (y, σ) :: bind x τ Γ

def toTable (Γ : Context) : Table := ⟨Γ.map fun b => ⟨b.1, some b.2⟩⟩

theorem putInto_map (x : String) (τ : Ty) (Γ : Context) :
    Table.putInto ⟨x, some τ⟩ (Γ.map fun b => ⟨b.1, some b.2⟩) =
      (bind x τ Γ).map fun b => ⟨b.1, some b.2⟩ := by
  induction Γ with
  | nil => rfl
  | cons b Γ ih =>
    obtain ⟨y, σ⟩ := b
    rw [List.map_cons, Table.putInto, bind, ih]
    by_cases hy : y = x
    · rw [if_pos hy, if_pos hy, List.map_cons]
    · rw [if_neg hy, if_neg hy, List.map_cons]

theorem toTable_bind (x : String) (τ : Ty) (Γ : Context) :
    toTable (bind x τ Γ) = (toTable Γ).put ⟨x, some τ⟩ :=
  congrArg Table.mk (putInto_map x τ Γ).symm

theorem find?_toTable (Γ : Context) (x : String) :
    (toTable Γ).find? x = (Γ.lookup x).map fun τ => ⟨x, some τ⟩ := by
  unfold toTable Table.find?
  induction Γ with
  | nil => rfl
  | cons b Γ ih =>
    obtain ⟨y, σ⟩ := b
    rw [List.map_cons, List.find?_cons, List.lookup_cons, ih]
    by_cases hy : y = x
    · simp [hy]
    · have hx : (x == y) = false := by simpa using Ne.symm hy
      have hy' : (y == x) = false := by simpa using hy
      simp only [hx, hy']

theorem type?_isSome_of_mem_toTable {Γ : Context} {b : Binding} (h : b ∈ (toTable Γ).bindings) :
    b.type?.isSome = true := by
  obtain ⟨⟨x, τ⟩, _, rfl⟩ := List.mem_map.mp h
  rfl

end Context

section Combination

/-- Two extents agree on a third: an unknown one with any other, a known one with itself. -/
inductive Agrees : Extent → Extent → Extent → Prop
  | known {n} : Agrees (.known n) (.known n) (.known n)
  | left {m} : Agrees .unknown m m
  | right {m} : Agrees m .unknown m

/-- The row counts of two operands and of their sum. A single row is repeated for a known count. -/
inductive Stretches : Extent → Extent → Extent → Prop
  | agree {m n k} : Agrees m n k → Stretches m n k
  | left {n} : Stretches (.known 1) (.known n) (.known n)
  | right {n} : Stretches (.known n) (.known 1) (.known n)

def Broadcasts (s t u : Shape) : Prop :=
  Stretches s.rows t.rows u.rows ∧ Agrees s.columns t.columns u.columns

inductive Ty.Number : Ty → Prop
  | int : Number .int
  | float : Number .float

/-- The types of two operands and of the result of an operator between them. -/
inductive Combines : BinaryOperator → Ty → Ty → Ty → Prop
  | ints {op} : Combines (.plain op) .int .int .int
  | floatRight {op τ} : τ.Number → Combines (.plain op) τ .float .float
  | floatLeft {op τ} : τ.Number → Combines (.plain op) .float τ .float
  | matrices {op s t u} : Broadcasts s t u →
      Combines (.plain op) (.matrix s) (.matrix t) (.matrix u)
  | scaledRight {op s τ} : τ.Number → Combines (.elementwise op) (.matrix s) τ (.matrix s)
  | scaledLeft {op s τ} : τ.Number → Combines (.elementwise op) τ (.matrix s) (.matrix s)

end Combination

/-- The extent that a dimension gives: known for a literal only. -/
inductive Measures : Node → Extent → Prop
  | literal {n : Nat} {l} : Measures (.integer n l) (.known n)
  | computed {e} : (∀ n l, e ≠ .integer n l) → Measures e .unknown

/-- The types of expressions. -/
inductive HasType (Γ : Context) : Node → Ty → Prop
  | integer {n l} : HasType Γ (.integer n l) .int
  | float {x l} : HasType Γ (.float x l) .float
  | string {s l} : HasType Γ (.string s l) .string
  | reference {r τ} : (∀ i ∈ r.indices, HasType Γ i .int) → Γ.lookup r.name = some τ →
      HasType Γ (.reference r) τ
  | matrix {rows columns l} {element : Node → Ty} : (∀ row ∈ rows, row.length = columns) →
      (∀ row ∈ rows, ∀ e ∈ row, HasType Γ e (element e)) →
      (∀ row ∈ rows, ∀ e ∈ row, (element e).Number) →
      HasType Γ (.matrix rows l) (.matrix (.ofSize rows.length columns))
  | column {b a m l} : HasType Γ a .int → Measures a m →
      HasType Γ (.builtin b [a] l) (.matrix ⟨m, .known 1⟩)
  | sized {b a c es m n l} : (∀ e ∈ a :: c :: es, HasType Γ e .int) → Measures a m →
      Measures c n → HasType Γ (.builtin b (a :: c :: es) l) (.matrix ⟨m, n⟩)
  | binary {op left right σ τ υ l} : HasType Γ left σ → HasType Γ right τ → Combines op σ τ υ →
      HasType Γ (.binary op left right l) υ
  | comparison {c left right σ τ l} : HasType Γ left σ → HasType Γ right τ →
      HasType Γ (.comparison c left right l) .boolean
  | transpose {e s l} : HasType Γ e (.matrix s) →
      HasType Γ (.unary .transpose e l) (.matrix ⟨s.columns, s.rows⟩)
  | negateNumber {e τ l} : HasType Γ e τ → τ.Number → HasType Γ (.unary .negate e l) τ
  | negateMatrix {e s l} : HasType Γ e (.matrix s) →
      HasType Γ (.unary .negate e l) (.matrix s)

mutual

/-- A statement is well typed in a context, inside a loop or outside, and another context holds
behind it. -/
inductive WellTyped : Bool → Context → Node → Context → Prop
  | assign {inLoop Γ x lx e τ l} : HasType Γ e τ →
      WellTyped inLoop Γ (.assignment ⟨x, [], lx⟩ .plain e l) (Γ.bind x τ)
  | update {inLoop Γ x lx op e σ τ υ l} : HasType Γ e τ → Γ.lookup x = some σ →
      Combines (.plain op) σ τ υ →
      WellTyped inLoop Γ (.assignment ⟨x, [], lx⟩ (.compound op) e l) (Γ.bind x υ)
  | element {inLoop Γ x i is lx op e σ τ l} : HasType Γ e τ →
      HasType Γ (.reference ⟨x, i :: is, lx⟩) σ →
      WellTyped inLoop Γ (.assignment ⟨x, i :: is, lx⟩ op e l) Γ
  | instruction {inLoop Γ i es l} :
      (i = .breakLoop ∨ i = .continueLoop → inLoop = true) → (∀ e ∈ es, ∃ τ, HasType Γ e τ) →
      WellTyped inLoop Γ (.instruction i es l) Γ
  | expression {inLoop Γ e τ l} : HasType Γ e τ → WellTyped inLoop Γ (.expression e l) Γ
  | conditional {inLoop Γ Δ c b l} : HasType Γ c .boolean → WellTypedAll inLoop Γ b.statements Δ →
      WellTyped inLoop Γ (.conditional c b none l) Δ
  | elseIf {inLoop Γ Δ Ε c b s l} : HasType Γ c .boolean → WellTypedAll inLoop Γ b.statements Δ →
      WellTyped inLoop Δ s Ε → WellTyped inLoop Γ (.conditional c b (some (.elseIf s)) l) Ε
  | elseBlock {inLoop Γ Δ Ε c b b' l} : HasType Γ c .boolean →
      WellTypedAll inLoop Γ b.statements Δ → WellTypedAll inLoop Δ b'.statements Ε →
      WellTyped inLoop Γ (.conditional c b (some (.block b')) l) Ε
  | whileLoop {inLoop Γ Δ c b l} : HasType Γ c .boolean → WellTypedAll true Γ b.statements Δ →
      WellTyped inLoop Γ (.whileLoop c b l) Δ
  | forLoop {inLoop Γ Δ x is lx lower upper lb b l} : HasType Γ lower .int →
      HasType Γ upper .int → WellTypedAll true (Γ.bind x .int) b.statements Δ →
      WellTyped inLoop Γ (.forLoop ⟨x, is, lx⟩ ⟨lower, upper, lb⟩ b l) Δ

inductive WellTypedAll : Bool → Context → List Node → Context → Prop
  | nil {inLoop Γ} : WellTypedAll inLoop Γ [] Γ
  | cons {inLoop Γ Δ Ε s ss} : WellTyped inLoop Γ s Δ → WellTypedAll inLoop Δ ss Ε →
      WellTypedAll inLoop Γ (s :: ss) Ε

end

def Program.WellTyped (p : Program) (Γ : Context) : Prop := WellTypedAll false [] p.statements Γ

end MatrixLang
