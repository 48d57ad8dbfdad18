import MatrixLang.Proofs.Syntax.Parsed

/-! # Trees without statements

Every expression that tokens spell is a term, a tree with no statement in it. The tokens need not be
those of a text, so a literal in it may be negative.
-/

namespace MatrixLang

namespace Node

/-- A tree of literals, variables and operations, whatever their numbers of parts. -/
inductive IsTerm : Node → Prop
  | integer {n l} : IsTerm (.integer n l)
  | float {x l} : IsTerm (.float x l)
  | string {s l} : IsTerm (.string s l)
  | reference {r} : (∀ i ∈ r.indices, IsTerm i) → IsTerm (.reference r)
  | matrix {rows l} : (∀ row ∈ rows, ∀ e ∈ row, IsTerm e) → IsTerm (.matrix rows l)
  | builtin {b es l} : (∀ e ∈ es, IsTerm e) → IsTerm (.builtin b es l)
  | binary {op left right l} : IsTerm left → IsTerm right → IsTerm (.binary op left right l)
  | comparison {c left right l} : IsTerm left → IsTerm right → IsTerm (.comparison c left right l)
  | unary {op e l} : IsTerm e → IsTerm (.unary op e l)

theorem IsExpression.isTerm {e : Node} (he : e.IsExpression) : e.IsTerm := by
  induction he with
  | integer => exact .integer
  | float => exact .float
  | string => exact .string
  | reference _ ih => exact .reference ih
  | matrix _ _ _ ih => exact .matrix ih
  | builtin _ _ ih => exact .builtin ih
  | binary _ _ ih ih' => exact .binary ih ih'
  | comparison _ _ ih ih' => exact .comparison ih ih'
  | unary _ ih => exact .unary ih

end Node

namespace Phrase

open Node

mutual

theorem Chain.isTerm {l us e} : Chain l us e → IsTerm e
  | .operand h => h.isTerm
  | @Chain.join _ _ _ _ _ _ c h _ _ h' => by
    have hl := h.isTerm
    have hr := h'.isTerm
    cases c with
    | binary op => exact .binary hl hr
    | comparison c => exact .comparison hl hr

theorem Operand.isTerm {l us e} : Operand l us e → IsTerm e
  | .equality h | .relational h | .additive h => h.isTerm
  | .multiplicative h => h.isTerm

theorem Negation.isTerm {us e} : Negation us e → IsTerm e
  | .transposed h => h.isTerm
  | .negate _ h => .unary h.isTerm

theorem Transposed.isTerm {us e} : Transposed us e → IsTerm e
  | .primary h => h.isTerm
  | .transpose h _ => .unary h.isTerm

theorem Primary.isTerm {us e} : Primary us e → IsTerm e
  | .integer _ => .integer
  | .float _ => .float
  | .string _ => .string
  | .reference h => .reference h.isTerm
  | .builtin _ _ h _ => .builtin h.isTerm
  | .matrix _ h _ => .matrix h.isTerm
  | .parentheses _ h _ => h.isTerm

theorem Variable.isTerm {us r} : Variable us r → ∀ i ∈ r.indices, IsTerm i
  | .plain _ => nofun
  | .indexed _ _ h _ => h.isTerm

theorem Expressions.isTerm {us es} : Expressions us es → ∀ e ∈ es, IsTerm e
  | .one h => by simpa using h.isTerm
  | .more h _ h' => by
    rw [List.forall_mem_cons]
    exact ⟨h.isTerm, h'.isTerm⟩

theorem Rows.isTerm {us rows} : Rows us rows → ∀ row ∈ rows, ∀ e ∈ row, IsTerm e
  | .one h | .closed h _ => by simpa using h.isTerm
  | .more h _ h' => by
    rw [List.forall_mem_cons]
    exact ⟨h.isTerm, h'.isTerm⟩

end

end Phrase

end MatrixLang
