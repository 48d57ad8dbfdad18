import MatrixLang.Proofs.Outline.Statement

/-! # Programs read off their outlines

The text of an outline gives its lines, the depths of the lines give the outlines, and the outlines
give the statements. So two legible programs have the same text only if they are alike, and those
that are alike always have the same.
-/

namespace MatrixLang

/-- Everything in the outline can stand on a line. -/
inductive Outline.IsWritable : Outline → Prop
  | mk {label branches} : IsLabel label → (∀ o ∈ branches, IsWritable o) →
      IsWritable ⟨label, branches⟩

namespace Outline

variable {o : Outline} {os ps : List Outline}

theorem isLabel_of_mem_entriesList {d : Nat} (h : ∀ o ∈ os, ∀ e ∈ entries d o, IsLabel e.label) :
    ∀ e ∈ entriesList d os, IsLabel e.label := by
  induction os with
  | nil => exact nofun
  | cons o os ih =>
    rw [List.forall_mem_cons] at h
    exact List.forall_mem_append.mpr ⟨h.1, ih h.2⟩

theorem IsWritable.isLabel (h : o.IsWritable) (d : Nat) : ∀ e ∈ entries d o, IsLabel e.label := by
  induction h generalizing d with
  | mk hlabel _ ih =>
    rw [entries, List.forall_mem_cons]
    exact ⟨hlabel, isLabel_of_mem_entriesList fun o ho => ih o ho (d + 1)⟩

theorem isWritable_word {label : String} (h : label ∈ ["VECTOR", "RANGE", "THEN", "ELSE"])
    (hos : ∀ o ∈ os, o.IsWritable) : IsWritable ⟨label, os⟩ := by
  have hall : ∀ l ∈ ["VECTOR", "RANGE", "THEN", "ELSE"],
      '\n' ∉ l.toList ∧ l.toList.head? ≠ some '|' := by decide
  exact .mk ⟨(hall label h).1, (hall label h).2⟩ hos

/-- The text of writable outlines tells them. -/
theorem eq_of_unlines (hos : ∀ o ∈ os, o.IsWritable) (hps : ∀ o ∈ ps, o.IsWritable)
    (h : Entry.unlines (entriesList 0 os) = Entry.unlines (entriesList 0 ps)) : os = ps := by
  refine entriesList_injective 0 (unlines_injective ?_ ?_ h)
  · exact isLabel_of_mem_entriesList fun o ho => (hos o ho).isLabel 0
  · exact isLabel_of_mem_entriesList fun o ho => (hps o ho).isLabel 0

end Outline

namespace Head

theorem IsReadable.isLabel_label {h : Head} (hr : h.IsReadable) : IsLabel h.label := by
  cases h with
  | leaf k => exact Kind.IsReadable.isLabel_spelling hr
  | branch c => exact c.isLabel_label

end Head

namespace Node

open Outline

variable {n m : Node}

section Writable

theorem isWritable_top (hr : n.head.IsReadable) (hb : ∀ o ∈ n.top.branches, o.IsWritable) :
    n.top.IsWritable := by
  have hlabel : IsLabel n.top.label := label_top n ▸ hr.isLabel_label
  generalize n.top = o at hlabel hb
  obtain ⟨label, branches⟩ := o
  exact .mk hlabel hb

theorem isWritable_topList {ns : List Node} (h : ∀ n ∈ ns, n.top.IsWritable) :
    ∀ o ∈ topList ns, o.IsWritable := by
  rw [topList_eq_map]
  exact List.forall_mem_map.mpr h

theorem isWritable_topRows {rows : List (List Node)}
    (h : ∀ row ∈ rows, ∀ n ∈ row, n.top.IsWritable) : ∀ o ∈ topRows rows, o.IsWritable := by
  induction rows with
  | nil => exact nofun
  | cons row rows ih =>
    rw [List.forall_mem_cons] at h
    exact List.forall_mem_cons.mpr ⟨isWritable_word (by decide) (isWritable_topList h.1), ih h.2⟩

theorem isWritable_branches {r : Reference Node} (hr : (Kind.name r.name).IsReadable)
    (h : ∀ i ∈ r.indices, i.top.IsWritable) : ∀ o ∈ (topReference r).branches, o.IsWritable := by
  obtain ⟨x, is, l⟩ := r
  cases is with
  | nil => exact nofun
  | cons i is =>
    rw [List.forall_mem_cons] at h
    have hname : IsWritable ⟨x, []⟩ := .mk hr.isLabel_spelling nofun
    exact List.forall_mem_cons.mpr
      ⟨hname, List.forall_mem_cons.mpr ⟨h.1, isWritable_topList h.2⟩⟩

theorem IsExpression.isWritable (h : IsExpression n)
    (hn : ∀ p ∈ n.parts, p.IsSpelled Kind.IsReadable) : n.top.IsWritable := by
  induction h with
  | integer | float | string => exact isWritable_top (List.forall_mem_cons.mp hn).1 nofun
  | @reference r hi ih =>
    obtain ⟨hr, hinner⟩ := List.forall_mem_cons.mp hn
    have pi := forall_mem_innerReference.mp hinner
    refine isWritable_top ((IsExpression.reference hi).isReadable_head hr) ?_
    exact isWritable_branches hr fun i hmem => ih i hmem (pi i hmem)
  | matrix _ _ _ ih =>
    have pr := forall_mem_partsRows.mp (List.forall_mem_cons.mp hn).2
    refine isWritable_top trivial (isWritable_topRows ?_)
    exact fun row hr e hmem => ih row hr e hmem (pr row hr e hmem)
  | builtin _ _ ih =>
    have pe := forall_mem_partsList.mp (List.forall_mem_cons.mp hn).2
    exact isWritable_top trivial (isWritable_topList fun e hmem => ih e hmem (pe e hmem))
  | @binary op left right l _ _ ihl ihr | @comparison c left right l _ _ ihl ihr =>
    obtain ⟨pl, pr⟩ := List.forall_mem_append.mp (List.forall_mem_cons.mp hn).2
    exact isWritable_top trivial
      (List.forall_mem_cons.mpr ⟨ihl pl, List.forall_mem_singleton.mpr (ihr pr)⟩)
  | unary _ ih =>
    exact isWritable_top trivial (List.forall_mem_singleton.mpr (ih (List.forall_mem_cons.mp hn).2))

theorem isWritable_outlinesBlock {b : Block Node}
    (h : ∀ s ∈ b.statements, ∀ o ∈ s.top :: s.more, o.IsWritable) :
    ∀ o ∈ outlinesBlock b, o.IsWritable := by
  obtain ⟨statements, l⟩ := b
  induction statements with
  | nil => exact nofun
  | cons s statements ih =>
    rw [List.forall_mem_cons] at h
    exact List.forall_mem_append.mpr ⟨h.1, ih h.2⟩

theorem isWritable_conditional {c : Node} {b : Block Node} {a : Option (Alternative Node)}
    (l : Location) (hc : c.top.IsWritable)
    (hb : ∀ s ∈ b.statements, ∀ o ∈ s.top :: s.more, o.IsWritable)
    (ha : ∀ o ∈ moreAlternative a, o.IsWritable) :
    ∀ o ∈ top (.conditional c b a l) :: more (.conditional c b a l), o.IsWritable := by
  have htop : (top (.conditional c b a l)).IsWritable :=
    isWritable_top trivial (List.forall_mem_singleton.mpr hc)
  have hthen : IsWritable ⟨"THEN", outlinesBlock b⟩ :=
    isWritable_word (by decide) (isWritable_outlinesBlock hb)
  exact List.forall_mem_cons.mpr ⟨htop, List.forall_mem_cons.mpr ⟨hthen, ha⟩⟩

theorem IsStatement.isWritable (h : IsStatement n) (hn : n.IsClear) :
    ∀ o ∈ n.top :: n.more, o.IsWritable := by
  induction h with
  | @assignment r op e l hi he =>
    obtain ⟨cr, ce⟩ := hn.of_assignment
    have htarget := (IsExpression.reference hi).isWritable cr.readable
    have hvalue := he.isWritable ce.readable
    exact List.forall_mem_singleton.mpr (isWritable_top trivial
      (List.forall_mem_cons.mpr ⟨htarget, List.forall_mem_singleton.mpr hvalue⟩))
  | instruction he =>
    refine List.forall_mem_singleton.mpr (isWritable_top trivial (isWritable_topList ?_))
    exact fun e hmem => (he e hmem).isWritable (hn.of_instruction e hmem).readable
  | expression he =>
    exact List.forall_mem_singleton.mpr (he.isWritable hn.of_expression.readable)
  | conditional hc hb ih =>
    obtain ⟨cc, cb, -⟩ := hn.of_conditional
    exact isWritable_conditional _ (hc.isWritable cc.readable) (fun s hs => ih s hs (cb s hs)) nofun
  | elseIf hc hb _ ih ih' =>
    obtain ⟨cc, cb, cn, -⟩ := hn.of_conditional
    refine isWritable_conditional _ (hc.isWritable cc.readable) (fun s hs => ih s hs (cb s hs)) ?_
    exact List.forall_mem_cons.mpr ⟨isWritable_word (by decide) nofun, ih' (cn _ rfl)⟩
  | elseBlock hc hb _ ih ih' =>
    obtain ⟨cc, cb, -, cb'⟩ := hn.of_conditional
    refine isWritable_conditional _ (hc.isWritable cc.readable) (fun s hs => ih s hs (cb s hs)) ?_
    have helse := isWritable_outlinesBlock fun s hs => ih' s hs ((cb' _ rfl).2 s hs)
    exact List.forall_mem_singleton.mpr (isWritable_word (by decide) helse)
  | whileLoop hc _ ih =>
    obtain ⟨cc, cb⟩ := hn.of_whileLoop
    have hbody := isWritable_outlinesBlock fun s hs => ih s hs (cb s hs)
    exact List.forall_mem_singleton.mpr (isWritable_top trivial
      (List.forall_mem_cons.mpr ⟨hc.isWritable cc.readable, hbody⟩))
  | @forLoop x lx bounds b l hl hu _ ih =>
    obtain ⟨cl, cu, cb⟩ := hn.of_forLoop
    obtain ⟨lower, upper, lr⟩ := bounds
    have hname : (Kind.name x).IsReadable := hn.isSpelled
    have hcounter : IsWritable ⟨x, []⟩ := .mk hname.isLabel_spelling nofun
    have hrange : IsWritable (topBounds ⟨lower, upper, lr⟩) :=
      isWritable_word (by decide) (List.forall_mem_cons.mpr
        ⟨hl.isWritable cl.readable, List.forall_mem_singleton.mpr (hu.isWritable cu.readable)⟩)
    have hbody := isWritable_outlinesBlock fun s hs => ih s hs (cb s hs)
    exact List.forall_mem_singleton.mpr (isWritable_top trivial
      (List.forall_mem_cons.mpr ⟨hcounter, List.forall_mem_cons.mpr ⟨hrange, hbody⟩⟩))

end Writable

section Alike

mutual

/-- The outline of a node shows neither places nor how floats of the same text differ. -/
theorem Alike.outline_eq {n m} (d : Nat) : Alike n m → n.outline d = m.outline d
  | .integer | .string => by simp only [outline]
  | .float h => by simp only [outline, h]
  | .reference h => h.outlineReference_eq d
  | .matrix h => by simp only [outline, h.outlineRows_eq]
  | .builtin h | .instruction h => by simp only [outline, h.outlineList_eq]
  | .binary h h' | .comparison h h' => by simp only [outline, h.outline_eq, h'.outline_eq]
  | .unary h => by simp only [outline, h.outline_eq]
  | .assignment h h' => by rw [outline, outline, h.outlineReference_eq, h'.outline_eq]
  | .expression h => by simp only [outline, h.outline_eq]
  | .conditional h h' => by
    simp only [outline, outlineBlock, outlineAlternative, h.outline_eq, h'.outlineList_eq]
  | .elseIf h h' h'' => by
    simp only [outline, outlineBlock, outlineAlternative, h.outline_eq, h'.outlineList_eq,
      h''.outline_eq]
  | .elseBlock h h' h'' => by
    simp only [outline, outlineBlock, outlineAlternative, h.outline_eq, h'.outlineList_eq,
      h''.outlineList_eq]
  | .whileLoop h h' => by simp only [outline, outlineBlock, h.outline_eq, h'.outlineList_eq]
  | .forLoop h h' h'' => by
    simp only [outline, outlineReference, outlineBounds, outlineBlock, h.outline_eq,
      h'.outline_eq, h''.outlineList_eq]

theorem AlikeAll.outlineReference_eq {x is is' l l'} (d : Nat) :
    AlikeAll is is' → outlineReference d ⟨x, is, l⟩ = outlineReference d ⟨x, is', l'⟩
  | .nil => rfl
  | .cons h h' => by simp only [outlineReference, h.outline_eq, h'.outlineList_eq]

theorem AlikeAll.outlineList_eq {ns ms} (d : Nat) :
    AlikeAll ns ms → outlineList d ns = outlineList d ms
  | .nil => rfl
  | .cons h h' => by simp only [outlineList, h.outline_eq, h'.outlineList_eq]

theorem AlikeRows.outlineRows_eq {rows rows'} (d : Nat) :
    AlikeRows rows rows' → outlineRows d rows = outlineRows d rows'
  | .nil => rfl
  | .cons h h' => by simp only [outlineRows, h.outlineList_eq, h'.outlineRows_eq]

end

end Alike

section Clear

theorem isReadable_name {x : String} {us : List Char} (h : Lexeme (.name x) us) :
    (Kind.name x).IsReadable := by
  cases h with
  | name hword => simpa only [Kind.IsReadable, String.toList_ofList] using hword

/-- What a lexeme spells is readable, but for an infinite float. -/
theorem isReadable_of_lexeme (h : n.IsSpelled fun k => ∃ us, Lexeme k us)
    (hn : n.isLegible = true) : n.IsSpelled Kind.IsReadable := by
  cases n with
  | integer value l =>
    obtain ⟨us, hus⟩ := h
    cases hus
    exact Int.natCast_nonneg _
  | float x l =>
    obtain ⟨us, hus⟩ := h
    cases hus <;> exact Binary64.isFloatText_ofDigits hn
  | string s l =>
    obtain ⟨us, hus⟩ := h
    cases hus with
    | string _ hline => simpa only [IsSpelled, Kind.IsReadable, String.toList_ofList] using hline
  | reference r | assignment r | forLoop r =>
    obtain ⟨us, hus⟩ := h
    exact isReadable_name hus
  | instruction => exact h
  | _ => trivial

end Clear

end Node

namespace Program

/-- The programs are equal but for places, and for floats that are written alike. -/
def Alike (p q : Program) : Prop := Node.AlikeAll p.statements q.statements

/-- The program can be told from its outline: floats are finite, no statement is a variable that
reads like something else, and no braces behind an `else` are empty. -/
def isLegible (p : Program) : Bool := p.parts.all Node.isLegible

variable {cs ds : List Char} {p q : Program}

theorem isClear_of_ofText (h : ofText cs = .ok p) (hp : p.isLegible = true) :
    ∀ s ∈ p.statements, s.IsClear := by
  have hspelled := isSpelled_of_ofText h
  have hlegible := List.all_eq_true.mp hp
  obtain ⟨statements, l⟩ := p
  exact Node.forall_mem_partsList.mp fun n hn =>
    ⟨Node.isReadable_of_lexeme (hspelled n hn) (hlegible n hn), hlegible n hn⟩

theorem Alike.outlineText_eq (h : p.Alike q) : p.outlineText = q.outlineText := by
  obtain ⟨statements, l⟩ := p
  obtain ⟨statements', l'⟩ := q
  exact congrArg Entry.unlines (Node.AlikeAll.outlineList_eq 0 h)

/-- Legible programs of texts have the same outline if and only if they are equal but for places,
and for floats that are written alike. -/
theorem outlineText_eq_iff (hp : ofText cs = .ok p) (hq : ofText ds = .ok q)
    (lp : p.isLegible = true) (lq : q.isLegible = true) :
    p.outlineText = q.outlineText ↔ p.Alike q := by
  constructor
  · intro h
    have sp := isStatement_of_ofText hp
    have sq := isStatement_of_ofText hq
    have cp := isClear_of_ofText hp lp
    have cq := isClear_of_ofText hq lq
    rw [outlineText, outlineText, Node.outlineBlock_eq fun s hs => (sp s hs).outline_eq,
      Node.outlineBlock_eq fun s hs => (sq s hs).outline_eq] at h
    have houtlines := Outline.eq_of_unlines
      (Node.isWritable_outlinesBlock fun s hs => (sp s hs).isWritable (cp s hs))
      (Node.isWritable_outlinesBlock fun s hs => (sq s hs).isWritable (cq s hs)) h
    exact Node.alikeAll_of_outlinesBlock sp cp (fun s hs => (sp s hs).isTold (cp s hs)) sq cq
      houtlines
  · exact Alike.outlineText_eq

/-- Empty braces behind an `else` read like the start of an `else if`. -/
example :
    outlineText ⟨[.conditional (.integer 1 ⟨1, 1⟩) ⟨[], ⟨1, 1⟩⟩ (some (.block ⟨[], ⟨1, 1⟩⟩)) ⟨1, 1⟩,
      .conditional (.integer 2 ⟨1, 1⟩) ⟨[], ⟨1, 1⟩⟩ none ⟨1, 1⟩], ⟨1, 1⟩⟩ =
    outlineText ⟨[.conditional (.integer 1 ⟨1, 1⟩) ⟨[], ⟨1, 1⟩⟩
      (some (.elseIf (.conditional (.integer 2 ⟨1, 1⟩) ⟨[], ⟨1, 1⟩⟩ none ⟨1, 1⟩))) ⟨1, 1⟩],
      ⟨1, 1⟩⟩ :=
  rfl

section Styles

/-- One conditional, with bare statements and with braces. -/
def bareText : List Char := "if(a)b=1.5;else b;".toList

def bareTokens : List Token :=
  [⟨.keyword .ifWord, ⟨1, 1⟩⟩, ⟨.symbol .leftParen, ⟨1, 3⟩⟩, ⟨.name "a", ⟨1, 4⟩⟩,
    ⟨.symbol .rightParen, ⟨1, 5⟩⟩, ⟨.name "b", ⟨1, 6⟩⟩, ⟨.symbol (.assign .plain), ⟨1, 7⟩⟩,
    ⟨.float (.finite false 6755399441055744 (-52)), ⟨1, 8⟩⟩, ⟨.symbol .semicolon, ⟨1, 11⟩⟩,
    ⟨.keyword .elseWord, ⟨1, 12⟩⟩, ⟨.name "b", ⟨1, 17⟩⟩, ⟨.symbol .semicolon, ⟨1, 18⟩⟩,
    ⟨.endOfInput, ⟨1, 19⟩⟩]

def bareProgram : Program :=
  ⟨[.conditional (.reference ⟨"a", [], ⟨1, 4⟩⟩)
    ⟨[.assignment ⟨"b", [], ⟨1, 6⟩⟩ .plain
      (.float (.finite false 6755399441055744 (-52)) ⟨1, 8⟩) ⟨1, 7⟩], ⟨1, 6⟩⟩
    (some (.block ⟨[.expression (.reference ⟨"b", [], ⟨1, 17⟩⟩) ⟨1, 17⟩], ⟨1, 17⟩⟩)) ⟨1, 1⟩],
    ⟨1, 1⟩⟩

theorem ofText_bareText : ofText bareText = .ok bareProgram := by
  have ht : (Scan.ofText bareText).tokens = bareTokens := by decide +kernel
  rw [ofText, ht]
  rfl

def bracedText : List Char :=
  "if (a) \x7b\n  b = 1.50;\n\x7d else \x7b\n  b;\n\x7d".toList

def bracedTokens : List Token :=
  [⟨.keyword .ifWord, ⟨1, 1⟩⟩, ⟨.symbol .leftParen, ⟨1, 4⟩⟩, ⟨.name "a", ⟨1, 5⟩⟩,
    ⟨.symbol .rightParen, ⟨1, 6⟩⟩, ⟨.symbol .leftBrace, ⟨1, 8⟩⟩, ⟨.name "b", ⟨2, 3⟩⟩,
    ⟨.symbol (.assign .plain), ⟨2, 5⟩⟩, ⟨.float (.finite false 6755399441055744 (-52)), ⟨2, 7⟩⟩,
    ⟨.symbol .semicolon, ⟨2, 11⟩⟩, ⟨.symbol .rightBrace, ⟨3, 1⟩⟩, ⟨.keyword .elseWord, ⟨3, 3⟩⟩,
    ⟨.symbol .leftBrace, ⟨3, 8⟩⟩, ⟨.name "b", ⟨4, 3⟩⟩, ⟨.symbol .semicolon, ⟨4, 4⟩⟩,
    ⟨.symbol .rightBrace, ⟨5, 1⟩⟩, ⟨.endOfInput, ⟨5, 2⟩⟩]

def bracedProgram : Program :=
  ⟨[.conditional (.reference ⟨"a", [], ⟨1, 5⟩⟩)
    ⟨[.assignment ⟨"b", [], ⟨2, 3⟩⟩ .plain
      (.float (.finite false 6755399441055744 (-52)) ⟨2, 7⟩) ⟨2, 5⟩], ⟨1, 8⟩⟩
    (some (.block ⟨[.expression (.reference ⟨"b", [], ⟨4, 3⟩⟩) ⟨4, 3⟩], ⟨3, 8⟩⟩)) ⟨1, 1⟩],
    ⟨1, 1⟩⟩

theorem ofText_bracedText : ofText bracedText = .ok bracedProgram := by
  have ht : (Scan.ofText bracedText).tokens = bracedTokens := by decide +kernel
  rw [ofText, ht]
  rfl

theorem alike_bracedProgram :
    ofText bareText = .ok bareProgram ∧ ofText bracedText = .ok bracedProgram ∧
      bareProgram.isLegible = true ∧ bracedProgram.isLegible = true ∧
      bareProgram.outlineText = bracedProgram.outlineText ∧ bareProgram.Alike bracedProgram := by
  have hbare : bareProgram.isLegible = true := by decide
  have hbraced : bracedProgram.isLegible = true := by decide
  have htext : bareProgram.outlineText = bracedProgram.outlineText := rfl
  have halike := (outlineText_eq_iff ofText_bareText ofText_bracedText hbare hbraced).mp htext
  exact ⟨ofText_bareText, ofText_bracedText, hbare, hbraced, htext, halike⟩

end Styles

end Program

end MatrixLang
