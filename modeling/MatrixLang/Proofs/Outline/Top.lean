import MatrixLang.Proofs.Outline.Indent
import MatrixLang.Proofs.Syntax.Parsed

/-! # The outlines of a node

The lines of a tree are those of a list of outlines. An expression has one outline, and so has a
statement, but for a conditional, whose branches stand behind its condition and not below it.
-/

namespace MatrixLang

namespace Node

mutual

def top : Node → Outline
  | .integer value _ => ⟨toString value, []⟩
  | .float value _ => ⟨value.text, []⟩
  | .string text _ => ⟨"\"" ++ text ++ "\"", []⟩
  | .reference r => topReference r
  | .matrix rows _ => ⟨"MATRIX", topRows rows⟩
  | .builtin b arguments _ => ⟨b.text, topList arguments⟩
  | .binary op left right _ => ⟨op.text, [top left, top right]⟩
  | .comparison op left right _ => ⟨op.text, [top left, top right]⟩
  | .unary op operand _ => ⟨op.label, [top operand]⟩
  | .assignment target op value _ => ⟨op.text, [topReference target, top value]⟩
  | .instruction i values _ => ⟨i.name, topList values⟩
  | .conditional condition _ _ _ => ⟨"IF", [top condition]⟩
  | .whileLoop condition body _ => ⟨"WHILE", top condition :: outlinesBlock body⟩
  | .forLoop counter bounds body _ =>
    ⟨"FOR", topReference counter :: topBounds bounds :: outlinesBlock body⟩
  | .expression value _ => top value

def topReference : Reference Node → Outline
  | ⟨name, [], _⟩ => ⟨name, []⟩
  | ⟨name, index :: indices, _⟩ => ⟨"REF", ⟨name, []⟩ :: top index :: topList indices⟩

def topBounds : Bounds Node → Outline
  | ⟨lower, upper, _⟩ => ⟨"RANGE", [top lower, top upper]⟩

def topRows : List (List Node) → List Outline
  | [] => []
  | row :: rows => ⟨"VECTOR", topList row⟩ :: topRows rows

def topList : List Node → List Outline
  | [] => []
  | node :: nodes => top node :: topList nodes

/-- The outlines of the branches of a conditional. -/
def more : Node → List Outline
  | .conditional _ consequent alternative _ =>
    ⟨"THEN", outlinesBlock consequent⟩ :: moreAlternative alternative
  | _ => []

def moreAlternative : Option (Alternative Node) → List Outline
  | none => []
  | some (.elseIf node) => ⟨"ELSE", []⟩ :: top node :: more node
  | some (.block body) => [⟨"ELSE", outlinesBlock body⟩]

def outlinesBlock : Block Node → List Outline
  | ⟨statements, _⟩ => outlinesList statements

def outlinesList : List Node → List Outline
  | [] => []
  | node :: nodes => top node :: more node ++ outlinesList nodes

end

section Lines

open Outline

variable {n : Node} {ns : List Node} {d : Nat}

theorem topList_eq_map (ns : List Node) : topList ns = ns.map top := by
  induction ns with
  | nil => rfl
  | cons n ns ih => rw [topList, ih, List.map_cons]

theorem outlineList_eq_topList (h : ∀ n ∈ ns, ∀ d, n.outline d = entries d n.top) :
    outlineList d ns = entriesList d (topList ns) := by
  induction ns with
  | nil => rfl
  | cons n ns ih =>
    rw [List.forall_mem_cons] at h
    rw [outlineList, topList, entriesList, h.1, ih h.2]

theorem outlineList_eq_outlinesList
    (h : ∀ n ∈ ns, ∀ d, n.outline d = entriesList d (n.top :: n.more)) :
    outlineList d ns = entriesList d (outlinesList ns) := by
  induction ns with
  | nil => rfl
  | cons n ns ih =>
    rw [List.forall_mem_cons] at h
    rw [outlineList, outlinesList, entriesList_append, h.1, ih h.2]

theorem outlineReference_eq {r : Reference Node}
    (h : ∀ i ∈ r.indices, ∀ d, i.outline d = entries d i.top) :
    outlineReference d r = entries d (topReference r) := by
  obtain ⟨name, indices, l⟩ := r
  cases indices with
  | nil => rfl
  | cons i is =>
    rw [List.forall_mem_cons] at h
    rw [outlineReference, topReference, h.1, outlineList_eq_topList h.2]
    simp only [entries, entriesList, List.nil_append, List.cons_append]

theorem outlineRows_eq {rows : List (List Node)}
    (h : ∀ row ∈ rows, ∀ e ∈ row, ∀ d, e.outline d = entries d e.top) :
    outlineRows d rows = entriesList d (topRows rows) := by
  induction rows with
  | nil => rfl
  | cons row rows ih =>
    rw [List.forall_mem_cons] at h
    rw [outlineRows, topRows, outlineList_eq_topList h.1, ih h.2]
    simp only [entries, entriesList, List.cons_append]

theorem IsExpression.outline_eq (h : IsExpression n) (d : Nat) : n.outline d = entries d n.top := by
  induction h generalizing d with
  | integer | float | string => rfl
  | reference _ ih => exact outlineReference_eq ih
  | matrix _ _ _ ih => rw [outline, top, entries, outlineRows_eq ih]
  | builtin _ _ ih => rw [outline, top, entries, outlineList_eq_topList ih]
  | binary _ _ ihl ihr | comparison _ _ ihl ihr =>
    rw [outline, top, ihl, ihr]
    simp only [entries, entriesList, List.append_nil, List.cons_append]
  | unary _ ih =>
    rw [outline, top, ih]
    simp only [entries, entriesList, List.append_nil]

theorem outlineBlock_eq {b : Block Node}
    (h : ∀ s ∈ b.statements, ∀ d, s.outline d = entriesList d (s.top :: s.more)) :
    outlineBlock d b = entriesList d (outlinesBlock b) := by
  obtain ⟨statements, l⟩ := b
  exact outlineList_eq_outlinesList h

theorem outline_conditional {c : Node} {b : Block Node} {a : Option (Alternative Node)}
    (l : Location) (hc : c.IsExpression)
    (hb : ∀ s ∈ b.statements, ∀ d, s.outline d = entriesList d (s.top :: s.more))
    (ha : outlineAlternative d a = entriesList d (moreAlternative a)) :
    outline d (.conditional c b a l) =
      entriesList d (top (.conditional c b a l) :: more (.conditional c b a l)) := by
  rw [outline, top, more, hc.outline_eq, outlineBlock_eq hb, ha]
  simp only [entries, entriesList, List.append_nil, List.cons_append, List.append_assoc]

theorem IsStatement.outline_eq (h : IsStatement n) (d : Nat) :
    n.outline d = entriesList d (n.top :: n.more) := by
  induction h generalizing d with
  | assignment hi he =>
    rw [outline, top, outlineReference_eq fun i hm => (hi i hm).outline_eq, he.outline_eq]
    simp only [more, entries, entriesList, List.append_nil, List.cons_append]
  | instruction he =>
    rw [outline, top, outlineList_eq_topList fun e hm => (he e hm).outline_eq]
    simp only [more, entries, entriesList, List.append_nil]
  | expression he =>
    rw [outline, top, he.outline_eq]
    simp only [more, entriesList, List.append_nil]
  | @conditional c b l hc _ ih => exact outline_conditional l hc ih rfl
  | @elseIf c b l c' b' a' l' hc _ _ ih ih' =>
    refine outline_conditional l hc ih ?_
    rw [outlineAlternative, moreAlternative, ih']
    simp only [entries, entriesList, List.cons_append, List.nil_append]
  | @elseBlock c b b' l hc _ _ ih ih' =>
    refine outline_conditional l hc ih ?_
    rw [outlineAlternative, moreAlternative, outlineBlock_eq ih']
    simp only [entries, entriesList, List.append_nil]
  | whileLoop hc _ ih =>
    rw [outline, top, hc.outline_eq, outlineBlock_eq ih]
    simp only [more, entries, entriesList, List.append_nil, List.cons_append]
  | @forLoop x lx bounds b l hl hu _ ih =>
    obtain ⟨lower, upper, lb⟩ := bounds
    rw [outline, top, outlineBlock_eq ih, outlineBounds, topBounds, hl.outline_eq, hu.outline_eq]
    simp only [outlineReference, topReference, more, entries, entriesList, List.append_nil,
      List.nil_append, List.cons_append, List.append_assoc]

end Lines

end Node

end MatrixLang
