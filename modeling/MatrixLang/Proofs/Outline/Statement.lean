import MatrixLang.Proofs.Outline.Expression

/-! # Statements read off their outlines

The outlines of a conditional stand beside those of the next statements, not around them. They can
be told from those as long as no other outline says what an `else` says, and a block behind `else`
shows itself by its statements.
-/

namespace MatrixLang

namespace Node

/-- The labels that can stand in an outline with nothing below them, if they are not names. -/
def bareLabels : List String := ["BREAK", "CONTINUE", "RETURN", "ELSE"]

/-- The node by itself can be told from its outlines: it is no infinite float, no variable that
stands as a statement and reads like something else, and no conditional with nothing behind its
`else`. -/
def isLegible : Node → Bool
  | .float x _ => x.isFinite
  | .expression (.reference ⟨x, [], _⟩) _ => x ∉ bareLabels
  | .conditional _ _ (some (.block b)) _ => !b.statements.isEmpty
  | _ => true

/-- All parts of the node are readable and legible. -/
def IsClear (n : Node) : Prop :=
  ∀ p ∈ n.parts, p.IsSpelled Kind.IsReadable ∧ p.isLegible = true

variable {n m : Node}

namespace IsClear

theorem readable (h : n.IsClear) : ∀ p ∈ n.parts, p.IsSpelled Kind.IsReadable := fun p hp =>
  (h p hp).1

theorem isSpelled (h : n.IsClear) : n.IsSpelled Kind.IsReadable :=
  (List.forall_mem_cons.mp h).1.1

theorem isLegible (h : n.IsClear) : n.isLegible = true :=
  (List.forall_mem_cons.mp h).1.2

theorem of_expression {l : Location} (h : IsClear (.expression n l)) : n.IsClear :=
  (List.forall_mem_cons.mp h).2

theorem of_assignment {r : Reference Node} {op : AssignOperator} {l : Location}
    (h : IsClear (.assignment r op n l)) : IsClear (.reference r) ∧ n.IsClear := by
  obtain ⟨hr, hn⟩ := List.forall_mem_append.mp (List.forall_mem_cons.mp h).2
  exact ⟨List.forall_mem_cons.mpr ⟨⟨h.isSpelled, rfl⟩, hr⟩, hn⟩

theorem of_instruction {i : Instruction} {es : List Node} {l : Location}
    (h : IsClear (.instruction i es l)) : ∀ e ∈ es, e.IsClear :=
  forall_mem_partsList.mp (List.forall_mem_cons.mp h).2

theorem of_whileLoop {b : Block Node} {l : Location} (h : IsClear (.whileLoop n b l)) :
    n.IsClear ∧ ∀ s ∈ b.statements, s.IsClear := by
  obtain ⟨statements, lb⟩ := b
  obtain ⟨hn, hb⟩ := List.forall_mem_append.mp (List.forall_mem_cons.mp h).2
  exact ⟨hn, forall_mem_partsList.mp hb⟩

theorem of_forLoop {r : Reference Node} {bounds : Bounds Node} {b : Block Node} {l : Location}
    (h : IsClear (.forLoop r bounds b l)) :
    bounds.lower.IsClear ∧ bounds.upper.IsClear ∧ ∀ s ∈ b.statements, s.IsClear := by
  obtain ⟨lower, upper, lr⟩ := bounds
  obtain ⟨statements, lb⟩ := b
  obtain ⟨hfirst, hb⟩ := List.forall_mem_append.mp (List.forall_mem_cons.mp h).2
  obtain ⟨hl, hu⟩ := List.forall_mem_append.mp (List.forall_mem_append.mp hfirst).2
  exact ⟨hl, hu, forall_mem_partsList.mp hb⟩

theorem of_conditional {b : Block Node} {a : Option (Alternative Node)} {l : Location}
    (h : IsClear (.conditional n b a l)) :
    n.IsClear ∧ (∀ s ∈ b.statements, s.IsClear) ∧ (∀ m, a = some (.elseIf m) → m.IsClear) ∧
      ∀ b', a = some (.block b') → b'.statements ≠ [] ∧ ∀ s ∈ b'.statements, s.IsClear := by
  obtain ⟨statements, lb⟩ := b
  have hlegible := h.isLegible
  obtain ⟨hfirst, ha⟩ := List.forall_mem_append.mp (List.forall_mem_cons.mp h).2
  obtain ⟨hn, hb⟩ := List.forall_mem_append.mp hfirst
  refine ⟨hn, forall_mem_partsList.mp hb, ?_, ?_⟩
  · rintro m rfl
    exact ha
  · rintro ⟨statements', lb'⟩ rfl
    refine ⟨?_, forall_mem_partsList.mp ha⟩
    rintro rfl
    cases hlegible

end IsClear

section Heads

theorem IsStatement.carries (h : IsStatement n) (hn : n.IsSpelled Kind.IsReadable) :
    n.head.Carries n.top.branches := by
  cases h with
  | expression he => exact he.carries
  | @instruction i es l _ =>
    obtain ⟨us, hpayload⟩ := hn
    cases es with
    | nil =>
      refine .bare ?_
      rintro rfl
      cases hpayload with
      | printValues h => exact h.values_ne_nil rfl
    | cons e es => exact .branch nofun
  | _ => exact .branch nofun

theorem IsStatement.isReadable_head (h : IsStatement n) (hn : n.IsClear) :
    n.head.IsReadable := by
  cases h with
  | expression he => exact he.isReadable_head hn.of_expression.isSpelled
  | _ => trivial

/-- A statement that shows a name alone does not show a word that stands for something else. -/
theorem IsStatement.notMem_bareLabels (h : IsStatement n) (hn : n.IsClear) {x : String}
    (hx : n.head = .leaf (.name x)) : x ∉ bareLabels := by
  cases h with
  | @expression e l he =>
    cases he with
    | @reference r _ =>
      obtain ⟨y, is, lr⟩ := r
      cases is with
      | nil =>
        obtain rfl : y = x := by
          cases hx
          rfl
        exact of_decide_eq_true hn.isLegible
      | cons i is => cases hx
    | _ => cases hx
  | _ => cases hx

theorem IsStatement.apart (hn : IsStatement n) (cn : n.IsClear) (h : Head) :
    Head.Apart n.head h := by
  rintro x i hx _ hi rfl
  refine hn.notMem_bareLabels cn hx ?_
  cases i with
  | printValues => exact absurd rfl hi
  | _ => decide

/-- The first outline of a statement tells what it is a statement of. -/
theorem IsStatement.head_matches (hn : IsStatement n) (hm : IsStatement m) (cn : n.IsClear)
    (cm : m.IsClear) (h : n.top = m.top) : n.head.Matches m.head := by
  have hlabel : n.head.label = m.head.label := by rw [← label_top, ← label_top, h]
  exact Head.matches_of_carries (hn.carries cn.isSpelled) (h ▸ hm.carries cm.isSpelled) hlabel
    (hn.isReadable_head cn) (hm.isReadable_head cm) (hn.apart cn _) (hm.apart cm _)

theorem IsStatement.label_top_ne (h : IsStatement n) (hn : n.IsClear) :
    n.top.label ≠ "ELSE" := by
  rw [label_top]
  intro helse
  have hreadable := h.isReadable_head hn
  cases hhead : n.head with
  | leaf k =>
    rw [hhead] at helse hreadable
    obtain rfl : k = .name "ELSE" := hreadable.eq_name helse (by decide)
    exact h.notMem_bareLabels hn hhead (by decide)
  | branch c =>
    rw [hhead] at helse
    exact c.label_ne_else helse

end Heads

section Lists

/-- No outline of an `else` stands first. -/
def NoElse (os : List Outline) : Prop := ∀ o ∈ os.head?, o.label ≠ "ELSE"

variable {os ps : List Outline}

theorem not_noElse_cons {bs : List Outline} : ¬ NoElse (⟨"ELSE", bs⟩ :: os) := fun h =>
  h _ rfl rfl

theorem noElse_outlinesList {ns : List Node} (h : ∀ n ∈ ns, n.top.label ≠ "ELSE") :
    NoElse (outlinesList ns) := by
  cases ns with
  | nil => exact nofun
  | cons n ns =>
    rintro o ⟨⟩
    exact h n List.mem_cons_self

/-- The outlines of a statement tell it, and where they end. -/
def IsTold (n : Node) : Prop :=
  ∀ {m : Node} {os ps : List Outline}, m.IsStatement → m.IsClear → NoElse os → NoElse ps →
    n.top :: n.more ++ os = m.top :: m.more ++ ps → Alike n m ∧ os = ps

theorem alikeAll_of_outlinesList {ns ms : List Node} (hn : ∀ n ∈ ns, n.IsTold)
    (hns : ∀ n ∈ ns, n.top.label ≠ "ELSE") (hms : ∀ m ∈ ms, m.IsStatement)
    (cms : ∀ m ∈ ms, m.IsClear) (h : outlinesList ns = outlinesList ms) : AlikeAll ns ms := by
  induction ns generalizing ms with
  | nil =>
    cases ms with
    | nil => exact .nil
    | cons m ms => cases h
  | cons n ns ih =>
    cases ms with
    | nil => cases h
    | cons m ms =>
      rw [List.forall_mem_cons] at hn hns hms cms
      have hrest : NoElse (outlinesList ms) :=
        noElse_outlinesList fun m hm => (hms.2 m hm).label_top_ne (cms.2 m hm)
      obtain ⟨hfirst, hlists⟩ :=
        hn.1 hms.1 cms.1 (noElse_outlinesList hns.2) hrest h
      exact .cons hfirst (ih hn.2 hns.2 hms.2 cms.2 hlists)

end Lists

section Statements

variable {os ps : List Outline}

theorem alikeAll_of_outlinesBlock {b b' : Block Node} (hb : ∀ s ∈ b.statements, s.IsStatement)
    (cb : ∀ s ∈ b.statements, s.IsClear) (tb : ∀ s ∈ b.statements, s.IsTold)
    (hb' : ∀ s ∈ b'.statements, s.IsStatement) (cb' : ∀ s ∈ b'.statements, s.IsClear)
    (h : outlinesBlock b = outlinesBlock b') : AlikeAll b.statements b'.statements := by
  obtain ⟨statements, l⟩ := b
  obtain ⟨statements', l'⟩ := b'
  exact alikeAll_of_outlinesList tb (fun s hs => (hb s hs).label_top_ne (cb s hs)) hb' cb' h

theorem IsStatement.eq_conditional (h : IsStatement n)
    (hhead : Head.Matches (.branch .conditional) n.head) :
    ∃ c b a l, n = .conditional c b a l := by
  cases h with
  | conditional | elseIf | elseBlock => exact ⟨_, _, _, _, rfl⟩
  | expression he => exact absurd hhead (he.not_matches trivial)
  | _ => cases hhead

theorem eq_none_of_noElse {a : Option (Alternative Node)} (h : os = moreAlternative a ++ ps)
    (hos : NoElse os) : a = none := by
  subst h
  cases a with
  | none => rfl
  | some a => cases a <;> exact absurd hos not_noElse_cons

theorem outlinesBlock_ne_nil {b : Block Node} (h : b.statements ≠ []) : outlinesBlock b ≠ [] := by
  obtain ⟨statements, l⟩ := b
  obtain ⟨s, statements, rfl⟩ := List.exists_cons_of_ne_nil h
  exact List.cons_ne_nil _ _

theorem alike_of_conditional {c : Node} {b : Block Node} {a : Option (Alternative Node)}
    {l : Location} (hn : IsStatement (.conditional c b a l)) (cn : IsClear (.conditional c b a l))
    (tb : ∀ s ∈ b.statements, s.IsTold) (hm : IsStatement m) (cm : m.IsClear)
    (h : top (.conditional c b a l) :: more (.conditional c b a l) ++ os = m.top :: m.more ++ ps) :
    ∃ c' b' a' l', m = .conditional c' b' a' l' ∧ Alike c c' ∧
      AlikeAll b.statements b'.statements ∧ moreAlternative a ++ os = moreAlternative a' ++ ps := by
  have htop := (List.cons.inj h).1
  obtain ⟨c', b', a', l', rfl⟩ := hm.eq_conditional (hn.head_matches hm cn cm htop)
  obtain ⟨hc, hb, _⟩ := hn.parts_of_conditional
  obtain ⟨hc', hb', _⟩ := hm.parts_of_conditional
  obtain ⟨cc, cb, _⟩ := cn.of_conditional
  obtain ⟨cc', cb', _⟩ := cm.of_conditional
  simp only [top, more, List.cons_append, List.cons.injEq, Outline.mk.injEq, and_true,
    true_and] at h
  obtain ⟨hcondition, hblock, hrest⟩ := h
  exact ⟨c', b', a', l', rfl, hc.alike hc' cc.readable cc'.readable hcondition,
    alikeAll_of_outlinesBlock hb cb tb hb' cb' hblock, hrest⟩

/-- Statements with the same outlines are alike. -/
theorem IsStatement.isTold (hn : IsStatement n) (cn : n.IsClear) : n.IsTold := by
  induction hn with
  | @assignment r op e l hi he =>
    intro m os ps hm cm _ _ h
    obtain ⟨htop, hmore⟩ := List.cons.inj h
    have hhead := (IsStatement.assignment hi he).head_matches hm cn cm htop
    cases hm with
    | @assignment r' _ e' _ hi' he' =>
      cases hhead
      obtain ⟨cr, ce⟩ := cn.of_assignment
      obtain ⟨cr', ce'⟩ := cm.of_assignment
      simp only [top, Outline.mk.injEq, List.cons.injEq, and_true, true_and] at htop
      have htarget : Alike (.reference r) (.reference r') :=
        (IsExpression.reference hi).alike (.reference hi') cr.readable cr'.readable htop.1
      have hvalue := he.alike he' ce.readable ce'.readable htop.2
      cases htarget with
      | reference hindices => exact ⟨.assignment hindices hvalue, hmore⟩
    | expression he' => exact absurd hhead (he'.not_matches trivial)
    | _ => cases hhead
  | @instruction i es l he =>
    intro m os ps hm cm _ _ h
    obtain ⟨htop, hmore⟩ := List.cons.inj h
    have hhead := (IsStatement.instruction he).head_matches hm cn cm htop
    cases hm with
    | @instruction _ es' _ he' =>
      cases hhead
      have ce := cn.of_instruction
      have ce' := cm.of_instruction
      refine ⟨.instruction (alikeAll_of_topList ?_ (Outline.mk.inj htop).2), hmore⟩
      exact fun e hmem e' hmem' =>
        (he e hmem).alike (he' e' hmem') (ce e hmem).readable (ce' e' hmem').readable
    | expression he' => exact absurd hhead (he'.not_matches trivial)
    | _ => cases hhead
  | @expression e l he =>
    intro m os ps hm cm _ _ h
    obtain ⟨htop, hmore⟩ := List.cons.inj h
    have hhead := (IsStatement.expression he).head_matches hm cn cm htop
    cases hm with
    | expression he' =>
      refine ⟨.expression ?_, hmore⟩
      exact he.alike he' cn.of_expression.readable cm.of_expression.readable htop
    | _ => exact absurd hhead.symm (he.not_matches trivial)
  | @conditional c b l hc hb ih =>
    intro m os ps hm cm hos _ h
    obtain ⟨-, cb, -⟩ := cn.of_conditional
    obtain ⟨c', b', a', l', rfl, hcondition, hblock, hrest⟩ :=
      alike_of_conditional (.conditional hc hb) cn (fun s hs => ih s hs (cb s hs)) hm cm h
    obtain rfl := eq_none_of_noElse hrest hos
    exact ⟨.conditional hcondition hblock, hrest⟩
  | @elseIf c b l c₁ b₁ a₁ l₁ hc hb hn ih ih' =>
    intro m os ps hm cm hos hps h
    obtain ⟨-, cb, cn', -⟩ := cn.of_conditional
    obtain ⟨c', b', a', l', rfl, hcondition, hblock, hrest⟩ :=
      alike_of_conditional (.elseIf hc hb hn) cn (fun s hs => ih s hs (cb s hs)) hm cm h
    obtain ⟨-, -, hm', -⟩ := hm.parts_of_conditional
    obtain ⟨-, -, cm', cb'⟩ := cm.of_conditional
    cases a' with
    | none => cases eq_none_of_noElse hrest.symm hps
    | some a' =>
      cases a' with
      | elseIf m' =>
        obtain ⟨hnext, hrest⟩ :=
          ih' (cn' _ rfl) (hm' m' rfl) (cm' m' rfl) hos hps (List.cons.inj hrest).2
        exact ⟨.elseIf hcondition hblock hnext, hrest⟩
      | block b₂ =>
        have hempty := (Outline.mk.inj (List.cons.inj hrest).1).2
        exact absurd hempty.symm (outlinesBlock_ne_nil (cb' b₂ rfl).1)
  | @elseBlock c b b₁ l hc hb hb₁ ih ih₁ =>
    intro m os ps hm cm hos hps h
    obtain ⟨-, cb, -, cb₁⟩ := cn.of_conditional
    obtain ⟨c', b', a', l', rfl, hcondition, hblock, hrest⟩ :=
      alike_of_conditional (.elseBlock hc hb hb₁) cn (fun s hs => ih s hs (cb s hs)) hm cm h
    obtain ⟨-, -, -, hb'⟩ := hm.parts_of_conditional
    obtain ⟨-, -, -, cb'⟩ := cm.of_conditional
    obtain ⟨hfilled, cb₁⟩ := cb₁ b₁ rfl
    cases a' with
    | none => cases eq_none_of_noElse hrest.symm hps
    | some a' =>
      cases a' with
      | elseIf m' =>
        have hempty := (Outline.mk.inj (List.cons.inj hrest).1).2
        exact absurd hempty (outlinesBlock_ne_nil hfilled)
      | block b₂ =>
        obtain ⟨helse, hrest⟩ := List.cons.inj hrest
        refine ⟨.elseBlock hcondition hblock ?_, hrest⟩
        exact alikeAll_of_outlinesBlock hb₁ cb₁ (fun s hs => ih₁ s hs (cb₁ s hs)) (hb' b₂ rfl)
          (cb' b₂ rfl).2 (Outline.mk.inj helse).2
  | @whileLoop c b l hc hb ih =>
    intro m os ps hm cm _ _ h
    obtain ⟨htop, hmore⟩ := List.cons.inj h
    have hhead := (IsStatement.whileLoop hc hb).head_matches hm cn cm htop
    cases hm with
    | @whileLoop c' b' l' hc' hb' =>
      obtain ⟨cc, cb⟩ := cn.of_whileLoop
      obtain ⟨cc', cb'⟩ := cm.of_whileLoop
      simp only [top, Outline.mk.injEq, List.cons.injEq, true_and] at htop
      have hcondition := hc.alike hc' cc.readable cc'.readable htop.1
      have hbody := alikeAll_of_outlinesBlock hb cb (fun s hs => ih s hs (cb s hs)) hb' cb' htop.2
      exact ⟨.whileLoop hcondition hbody, hmore⟩
    | expression he' => exact absurd hhead (he'.not_matches trivial)
    | _ => cases hhead
  | @forLoop x lx bounds b l hl hu hb ih =>
    intro m os ps hm cm _ _ h
    obtain ⟨htop, hmore⟩ := List.cons.inj h
    have hhead := (IsStatement.forLoop hl hu hb).head_matches hm cn cm htop
    cases hm with
    | @forLoop x' lx' bounds' b' l' hl' hu' hb' =>
      obtain ⟨cl, cu, cb⟩ := cn.of_forLoop
      obtain ⟨cl', cu', cb'⟩ := cm.of_forLoop
      obtain ⟨lower, upper, lr⟩ := bounds
      obtain ⟨lower', upper', lr'⟩ := bounds'
      simp only [top, topReference, topBounds, Outline.mk.injEq, List.cons.injEq, and_true,
        true_and] at htop
      obtain ⟨rfl, ⟨hlower, hupper⟩, hblock⟩ := htop
      have hfrom := hl.alike hl' cl.readable cl'.readable hlower
      have hto := hu.alike hu' cu.readable cu'.readable hupper
      have hbody := alikeAll_of_outlinesBlock hb cb (fun s hs => ih s hs (cb s hs)) hb' cb' hblock
      exact ⟨.forLoop hfrom hto hbody, hmore⟩
    | expression he' => exact absurd hhead (he'.not_matches trivial)
    | _ => cases hhead

end Statements

end Node

end MatrixLang
