import MatrixLang.Proofs.Lexing.Origin
import MatrixLang.Proofs.Syntax.Program

/-! # The trees of program texts

A tree that a text gives has expressions where expressions belong and statements where statements
do, and its literals, rows and arguments are as the grammar has them. The type of trees alone says
none of this.
-/

namespace MatrixLang

namespace Node

/-- The expressions that a text can give. -/
inductive IsExpression : Node → Prop
  | integer {n : Nat} {l} : IsExpression (.integer n l)
  | float {x l} : IsExpression (.float x l)
  | string {s l} : IsExpression (.string s l)
  | reference {r} : (∀ i ∈ r.indices, IsExpression i) → IsExpression (.reference r)
  | matrix {rows l} : rows ≠ [] → (∀ row ∈ rows, row ≠ []) →
      (∀ row ∈ rows, ∀ e ∈ row, IsExpression e) → IsExpression (.matrix rows l)
  | builtin {b es l} : es ≠ [] → (∀ e ∈ es, IsExpression e) → IsExpression (.builtin b es l)
  | binary {op left right l} : IsExpression left → IsExpression right →
      IsExpression (.binary op left right l)
  | comparison {c left right l} : IsExpression left → IsExpression right →
      IsExpression (.comparison c left right l)
  | unary {op e l} : IsExpression e → IsExpression (.unary op e l)

/-- The statements that a text can give. -/
inductive IsStatement : Node → Prop
  | assignment {r op e l} : (∀ i ∈ r.indices, IsExpression i) → IsExpression e →
      IsStatement (.assignment r op e l)
  | instruction {i es l} : (∀ e ∈ es, IsExpression e) → IsStatement (.instruction i es l)
  | expression {e l} : IsExpression e → IsStatement (.expression e l)
  | conditional {c b l} : IsExpression c → (∀ s ∈ b.statements, IsStatement s) →
      IsStatement (.conditional c b none l)
  | elseIf {c b l c' b' a' l'} : IsExpression c → (∀ s ∈ b.statements, IsStatement s) →
      IsStatement (.conditional c' b' a' l') →
      IsStatement (.conditional c b (some (.elseIf (.conditional c' b' a' l'))) l)
  | elseBlock {c b b' l} : IsExpression c → (∀ s ∈ b.statements, IsStatement s) →
      (∀ s ∈ b'.statements, IsStatement s) → IsStatement (.conditional c b (some (.block b')) l)
  | whileLoop {c b l} : IsExpression c → (∀ s ∈ b.statements, IsStatement s) →
      IsStatement (.whileLoop c b l)
  | forLoop {x lx bounds b l} : IsExpression bounds.lower → IsExpression bounds.upper →
      (∀ s ∈ b.statements, IsStatement s) → IsStatement (.forLoop ⟨x, [], lx⟩ bounds b l)

theorem IsStatement.parts_of_conditional {e : Node} {b : Block Node}
    {a : Option (Alternative Node)} {l : Location} (h : IsStatement (.conditional e b a l)) :
    e.IsExpression ∧ (∀ n ∈ b.statements, n.IsStatement) ∧
      (∀ n, a = some (.elseIf n) → n.IsStatement) ∧
      ∀ b', a = some (.block b') → ∀ n ∈ b'.statements, n.IsStatement := by
  cases h with
  | conditional he hb => exact ⟨he, hb, nofun, nofun⟩
  | elseIf he hb hn =>
    refine ⟨he, hb, ?_, nofun⟩
    rintro n ⟨⟩
    exact hn
  | elseBlock he hb hb' =>
    refine ⟨he, hb, nofun, ?_⟩
    rintro b' ⟨⟩
    exact hb'

end Node

namespace Phrase

open Node

def Unsigned (us : List Token) : Prop := ∀ t ∈ us, ∀ n, t.kind = .integer n → 0 ≤ n

section Unsigned

variable {us vs : List Token} {t : Token}

theorem unsigned_cons_iff :
    Unsigned (t :: us) ↔ (∀ n, t.kind = .integer n → 0 ≤ n) ∧ Unsigned us :=
  List.forall_mem_cons

theorem unsigned_append_iff : Unsigned (us ++ vs) ↔ Unsigned us ∧ Unsigned vs :=
  List.forall_mem_append

theorem Unsigned.left (h : Unsigned (us ++ vs)) : Unsigned us := (unsigned_append_iff.mp h).1

theorem Unsigned.right (h : Unsigned (us ++ vs)) : Unsigned vs := (unsigned_append_iff.mp h).2

theorem Unsigned.tail (h : Unsigned (t :: us)) : Unsigned us := (unsigned_cons_iff.mp h).2

end Unsigned

theorem Expressions.values_ne_nil {us : List Token} {es : List Node} (h : Expressions us es) :
    es ≠ [] := by
  cases h <;> exact List.cons_ne_nil _ _

theorem Rows.rows_ne_nil {us : List Token} {rows : List (List Node)} (h : Rows us rows) :
    rows ≠ [] := by
  cases h <;> exact List.cons_ne_nil _ _

mutual

theorem Chain.isExpression {l us e} : Chain l us e → Unsigned us → IsExpression e
  | .operand h, hu => h.isExpression hu
  | @Chain.join _ _ _ _ _ _ c h _ _ h', hu => by
    have hl := h.isExpression hu.left
    have hr := h'.isExpression hu.right.tail
    cases c with
    | binary op => exact .binary hl hr
    | comparison c => exact .comparison hl hr

theorem Operand.isExpression {l us e} : Operand l us e → Unsigned us → IsExpression e
  | .equality h, hu | .relational h, hu | .additive h, hu => h.isExpression hu
  | .multiplicative h, hu => h.isExpression hu

theorem Negation.isExpression {us e} : Negation us e → Unsigned us → IsExpression e
  | .transposed h, hu => h.isExpression hu
  | .negate _ h, hu => .unary (h.isExpression hu.tail)

theorem Transposed.isExpression {us e} : Transposed us e → Unsigned us → IsExpression e
  | .primary h, hu => h.isExpression hu
  | .transpose h _, hu => .unary (h.isExpression hu.left)

theorem Primary.isExpression {us e} : Primary us e → Unsigned us → IsExpression e
  | @Primary.integer t n ht, hu => by
    obtain ⟨n, rfl⟩ := Int.eq_ofNat_of_zero_le ((unsigned_cons_iff.mp hu).1 n ht)
    exact .integer
  | .float _, _ => .float
  | .string _, _ => .string
  | .reference h, hu => .reference (h.isExpression hu)
  | .builtin _ _ h _, hu =>
    .builtin h.values_ne_nil (h.isExpression hu.tail.tail.left)
  | .matrix _ h _, hu =>
    .matrix h.rows_ne_nil (fun row hr => (h.isExpression hu.tail.left row hr).1)
      fun row hr => (h.isExpression hu.tail.left row hr).2
  | .parentheses _ h _, hu => h.isExpression hu.tail.left

theorem Variable.isExpression {us r} :
    Variable us r → Unsigned us → ∀ i ∈ r.indices, IsExpression i
  | .plain _, _ => nofun
  | .indexed _ _ h _, hu => h.isExpression hu.tail.tail.left

theorem Expressions.isExpression {us es} :
    Expressions us es → Unsigned us → ∀ e ∈ es, IsExpression e
  | .one h, hu => by simpa using h.isExpression hu
  | .more h _ h', hu => by
    simpa using ⟨h.isExpression hu.left, h'.isExpression hu.right.tail⟩

theorem Rows.isExpression {us rows} :
    Rows us rows → Unsigned us → ∀ row ∈ rows, row ≠ [] ∧ ∀ e ∈ row, IsExpression e
  | .one h, hu => by simpa using ⟨h.values_ne_nil, h.isExpression hu⟩
  | .closed h _, hu => by simpa using ⟨h.values_ne_nil, h.isExpression hu.left⟩
  | .more h _ h', hu => by
    rw [List.forall_mem_cons]
    exact ⟨⟨h.values_ne_nil, h.isExpression hu.left⟩, h'.isExpression hu.right.tail⟩

end

theorem Expression.isExpression {us : List Token} {e : Node} (h : Expression us e)
    (hu : Unsigned us) : IsExpression e :=
  Chain.isExpression h hu

theorem Payload.isExpression {i : Instruction} {us : List Token} {es : List Node}
    (h : Payload i us es) (hu : Unsigned us) : ∀ e ∈ es, IsExpression e := by
  cases h with
  | returnValues h => exact h.isExpression hu
  | printValues h => exact h.isExpression hu
  | _ => exact nofun

mutual

theorem Statement.isStatement {chained us k s} :
    Statement chained us k s → Unsigned us → IsStatement s
  | .assignment h _ h' _, hu =>
    .assignment (h.isExpression hu.left.left) (h'.isExpression hu.left.right.tail)
  | .instruction _ h _ _, hu => .instruction (h.isExpression hu.tail.left)
  | .expression h _, hu => .expression (h.isExpression hu.left)
  | .conditional h, hu => by
    obtain ⟨c, b, a, l, rfl, hs⟩ := h.isStatement hu
    exact hs
  | .whileLoop _ _ h _ h', hu =>
    .whileLoop (h.isExpression hu.tail.tail.left) (h'.isStatement hu.tail.tail.right.tail)
  | .forLoop _ _ _ h _ h' _ h'', hu =>
    .forLoop (h.isExpression hu.left.tail.tail.tail.left)
      (h'.isExpression hu.left.tail.tail.tail.right.tail) (h''.isStatement hu.right)

theorem Conditional.isStatement {chained us k s} : Conditional chained us k s → Unsigned us →
    ∃ c b a l, s = .conditional c b a l ∧ IsStatement s
  | .mk _ _ h _ h' ha, hu => by
    have hc := h.isExpression hu.left.tail.tail.left
    have hb := h'.isStatement hu.left.tail.tail.right.tail
    refine ⟨_, _, _, _, rfl, ?_⟩
    cases ha with
    | none => exact .conditional hc hb
    | elseIf _ h =>
      obtain ⟨c, b, a, l, rfl, hs⟩ := h.isStatement hu.right.tail
      exact .elseIf hc hb hs
    | block _ _ h => exact .elseBlock hc hb (h.isStatement hu.right.tail)

theorem Block.isStatement {chained us k b} :
    Block chained us k b → Unsigned us → ∀ s ∈ b.statements, IsStatement s
  | .braced _ _ h, hu => h.isStatement hu.tail.left
  | .bare h, hu => by simpa using h.isStatement hu

theorem Statements.isStatement {chained us k ss} :
    Statements chained us k ss → Unsigned us → ∀ s ∈ ss, IsStatement s
  | .nil, _ => nofun
  | .cons h h', hu => by
    rw [List.forall_mem_cons]
    exact ⟨h.isStatement hu.left, h'.isStatement hu.right⟩

end

end Phrase

section Text

theorem Scan.unsigned_tokens (cs : List Char) : Phrase.Unsigned (ofText cs).tokens := by
  intro t ht n hn
  rcases mem_tokens ht with rfl | ⟨us, hus, _⟩
  · cases hn
  · rw [hn] at hus
    cases hus
    exact Int.natCast_nonneg _

theorem Program.isStatement_of_ofText {cs : List Char} {p : Program} (h : ofText cs = .ok p) :
    ∀ s ∈ p.statements, s.IsStatement := by
  have hs := (Phrase.ofTokens_eq_ok_iff.mp h).1
  exact hs.isStatement fun t ht =>
    Scan.unsigned_tokens cs t ((List.takeWhile_prefix _).subset ht)

end Text

end MatrixLang
