import MatrixLang.Proofs.Outline.Label
import MatrixLang.Proofs.Outline.Top
import MatrixLang.Proofs.Syntax.Part

/-! # Expressions read off their outlines

The label of an expression, and whether something stands below it, tell its construct. So two
expressions with the same outline are alike: equal but for places, and for floats that are written
alike.
-/

namespace MatrixLang

namespace Node

mutual

/-- The two are equal but for places, and for floats that are written alike. -/
inductive Alike : Node → Node → Prop
  | integer {n l l'} : Alike (.integer n l) (.integer n l')
  | float {x y l l'} : x.text = y.text → Alike (.float x l) (.float y l')
  | string {s l l'} : Alike (.string s l) (.string s l')
  | reference {x is is' l l'} : AlikeAll is is' →
      Alike (.reference ⟨x, is, l⟩) (.reference ⟨x, is', l'⟩)
  | matrix {rows rows' l l'} : AlikeRows rows rows' → Alike (.matrix rows l) (.matrix rows' l')
  | builtin {b es es' l l'} : AlikeAll es es' → Alike (.builtin b es l) (.builtin b es' l')
  | binary {op e e' f f' l l'} : Alike e e' → Alike f f' →
      Alike (.binary op e f l) (.binary op e' f' l')
  | comparison {c e e' f f' l l'} : Alike e e' → Alike f f' →
      Alike (.comparison c e f l) (.comparison c e' f' l')
  | unary {op e e' l l'} : Alike e e' → Alike (.unary op e l) (.unary op e' l')
  | assignment {x is is' lx lx' op e e' l l'} : AlikeAll is is' → Alike e e' →
      Alike (.assignment ⟨x, is, lx⟩ op e l) (.assignment ⟨x, is', lx'⟩ op e' l')
  | instruction {i es es' l l'} : AlikeAll es es' →
      Alike (.instruction i es l) (.instruction i es' l')
  | expression {e e' l l'} : Alike e e' → Alike (.expression e l) (.expression e' l')
  | conditional {c c' ss ss' lb lb' l l'} : Alike c c' → AlikeAll ss ss' →
      Alike (.conditional c ⟨ss, lb⟩ none l) (.conditional c' ⟨ss', lb'⟩ none l')
  | elseIf {c c' ss ss' lb lb' n n' l l'} : Alike c c' → AlikeAll ss ss' → Alike n n' →
      Alike (.conditional c ⟨ss, lb⟩ (some (.elseIf n)) l)
        (.conditional c' ⟨ss', lb'⟩ (some (.elseIf n')) l')
  | elseBlock {c c' ss ss' lb lb' ts ts' le le' l l'} : Alike c c' → AlikeAll ss ss' →
      AlikeAll ts ts' → Alike (.conditional c ⟨ss, lb⟩ (some (.block ⟨ts, le⟩)) l)
        (.conditional c' ⟨ss', lb'⟩ (some (.block ⟨ts', le'⟩)) l')
  | whileLoop {c c' ss ss' lb lb' l l'} : Alike c c' → AlikeAll ss ss' →
      Alike (.whileLoop c ⟨ss, lb⟩ l) (.whileLoop c' ⟨ss', lb'⟩ l')
  | forLoop {x lx lx' e e' f f' lr lr' ss ss' lb lb' l l'} : Alike e e' → Alike f f' →
      AlikeAll ss ss' → Alike (.forLoop ⟨x, [], lx⟩ ⟨e, f, lr⟩ ⟨ss, lb⟩ l)
        (.forLoop ⟨x, [], lx'⟩ ⟨e', f', lr'⟩ ⟨ss', lb'⟩ l')

inductive AlikeAll : List Node → List Node → Prop
  | nil : AlikeAll [] []
  | cons {n n' ns ns'} : Alike n n' → AlikeAll ns ns' → AlikeAll (n :: ns) (n' :: ns')

inductive AlikeRows : List (List Node) → List (List Node) → Prop
  | nil : AlikeRows [] []
  | cons {row row' rows rows'} : AlikeAll row row' → AlikeRows rows rows' →
      AlikeRows (row :: rows) (row' :: rows')

end

def head : Node → Head
  | .integer value _ => .leaf (.integer value)
  | .float value _ => .leaf (.float value)
  | .string text _ => .leaf (.string text)
  | .reference ⟨name, [], _⟩ => .leaf (.name name)
  | .reference ⟨_, _ :: _, _⟩ => .branch .element
  | .matrix _ _ => .branch .matrix
  | .builtin b _ _ => .branch (.builtin b)
  | .binary op _ _ _ => .branch (.binary op)
  | .comparison c _ _ _ => .branch (.comparison c)
  | .unary op _ _ => .branch (.unary op)
  | .assignment _ op _ _ => .branch (.assignment op)
  | .instruction i _ _ => .branch (.instruction i)
  | .conditional _ _ _ _ => .branch .conditional
  | .whileLoop _ _ _ => .branch .whileLoop
  | .forLoop _ _ _ _ => .branch .forLoop
  | .expression value _ => head value

variable {n m : Node}

theorem label_top : (n : Node) → n.top.label = n.head.label
  | .reference ⟨_, [], _⟩ | .reference ⟨_, _ :: _, _⟩ => rfl
  | .expression value _ => label_top value
  | .integer .. | .float .. | .string .. | .matrix .. | .builtin .. | .binary .. | .comparison ..
  | .unary .. | .assignment .. | .instruction .. | .conditional .. | .whileLoop ..
  | .forLoop .. => rfl

section Expressions

theorem IsExpression.carries (h : IsExpression n) : n.head.Carries n.top.branches := by
  cases h with
  | integer | float | string => exact .leaf
  | @reference r _ =>
    obtain ⟨x, is, l⟩ := r
    cases is with
    | nil => exact .leaf
    | cons i is => exact .branch nofun
  | @matrix rows l hrows _ _ =>
    obtain ⟨row, rows, rfl⟩ := List.exists_cons_of_ne_nil hrows
    exact .branch nofun
  | @builtin b es l hes _ =>
    obtain ⟨e, es, rfl⟩ := List.exists_cons_of_ne_nil hes
    exact .branch nofun
  | binary | comparison | unary => exact .branch fun k hk => (Option.some.inj hk).symm

theorem IsExpression.head_ne (h : IsExpression n) {c : Construct} (hc : c.OfStatement) :
    n.head ≠ .branch c := by
  intro hhead
  cases h with
  | @reference r _ =>
    obtain ⟨x, is, l⟩ := r
    cases is with
    | nil => cases hhead
    | cons i is =>
      cases hhead
      exact hc
  | integer | float | string => cases hhead
  | _ =>
    cases hhead
    exact hc

theorem IsExpression.not_matches (h : IsExpression n) {c : Construct} (hc : c.OfStatement) :
    ¬ Head.Matches (.branch c) n.head := by
  have hne := h.head_ne hc
  generalize n.head = k at hne
  rintro ⟨⟩
  exact hne rfl

theorem IsExpression.isReadable_head (h : IsExpression n) (hn : n.IsSpelled Kind.IsReadable) :
    n.head.IsReadable := by
  cases h with
  | integer | float | string => exact hn
  | @reference r _ =>
    obtain ⟨x, is, l⟩ := r
    cases is with
    | nil => exact hn
    | cons i is => trivial
  | _ => trivial

/-- The outline of an expression tells what it is an expression of. -/
theorem IsExpression.head_matches (hn : IsExpression n) (hm : IsExpression m)
    (pn : ∀ p ∈ n.parts, p.IsSpelled Kind.IsReadable)
    (pm : ∀ p ∈ m.parts, p.IsSpelled Kind.IsReadable) (h : n.top = m.top) :
    n.head.Matches m.head := by
  have hlabel : n.head.label = m.head.label := by rw [← label_top, ← label_top, h]
  refine Head.matches_of_carries hn.carries (h ▸ hm.carries) hlabel
    (hn.isReadable_head (List.forall_mem_cons.mp pn).1)
    (hm.isReadable_head (List.forall_mem_cons.mp pm).1) ?_ ?_
  · exact fun _ i _ hi _ => absurd hi (hm.head_ne trivial)
  · exact fun _ i _ hi _ => absurd hi (hn.head_ne trivial)

theorem not_matches_reference {h : Head} {r : Reference Node} (hx : ∀ x, h ≠ .leaf (.name x))
    (he : h ≠ .branch .element) : ¬ h.Matches (head (.reference r)) := by
  obtain ⟨x, is, l⟩ := r
  intro hmatches
  cases is with
  | nil =>
    have hmatches : h.Matches (.leaf (.name x)) := hmatches
    cases hmatches
    exact hx x rfl
  | cons i is =>
    have hmatches : h.Matches (.branch .element) := hmatches
    cases hmatches
    exact he rfl

theorem alikeAll_of_topList {ns ms : List Node}
    (ih : ∀ n ∈ ns, ∀ m ∈ ms, n.top = m.top → Alike n m) (h : topList ns = topList ms) :
    AlikeAll ns ms := by
  induction ns generalizing ms with
  | nil =>
    cases ms with
    | nil => exact .nil
    | cons m ms => cases h
  | cons n ns ihns =>
    cases ms with
    | nil => cases h
    | cons m ms =>
      obtain ⟨hfirst, hrest⟩ := List.cons.inj h
      refine .cons (ih n List.mem_cons_self m List.mem_cons_self hfirst) (ihns ?_ hrest)
      exact fun n hn m hm => ih n (List.mem_cons_of_mem _ hn) m (List.mem_cons_of_mem _ hm)

theorem alikeRows_of_topRows {rows rows' : List (List Node)}
    (ih : ∀ row ∈ rows, ∀ row' ∈ rows', ∀ n ∈ row, ∀ m ∈ row', n.top = m.top → Alike n m)
    (h : topRows rows = topRows rows') : AlikeRows rows rows' := by
  induction rows generalizing rows' with
  | nil =>
    cases rows' with
    | nil => exact .nil
    | cons row' rows' => cases h
  | cons row rows ihrows =>
    cases rows' with
    | nil => cases h
    | cons row' rows' =>
      obtain ⟨hfirst, hrest⟩ := List.cons.inj h
      have hrow : topList row = topList row' := (Outline.mk.inj hfirst).2
      refine .cons (alikeAll_of_topList ?_ hrow) (ihrows ?_ hrest)
      · exact ih row List.mem_cons_self row' List.mem_cons_self
      · exact fun row hr row' hr' =>
          ih row (List.mem_cons_of_mem _ hr) row' (List.mem_cons_of_mem _ hr')

theorem alike_of_topReference {r r' : Reference Node}
    (ih : ∀ i ∈ r.indices, ∀ j ∈ r'.indices, i.top = j.top → Alike i j)
    (h : topReference r = topReference r')
    (hhead : (head (.reference r)).Matches (head (.reference r'))) :
    r.name = r'.name ∧ AlikeAll r.indices r'.indices := by
  obtain ⟨x, is, l⟩ := r
  obtain ⟨x', is', l'⟩ := r'
  cases is with
  | nil =>
    cases is' with
    | nil => exact ⟨(Outline.mk.inj h).1, .nil⟩
    | cons i' is' =>
      have hhead : Head.Matches (.leaf (.name x)) (.branch .element) := hhead
      cases hhead
  | cons i is =>
    cases is' with
    | nil =>
      have hhead : Head.Matches (.branch .element) (.leaf (.name x')) := hhead
      cases hhead
    | cons i' is' =>
      obtain ⟨hname, hindices⟩ := List.cons.inj (Outline.mk.inj h).2
      exact ⟨(Outline.mk.inj hname).1, alikeAll_of_topList ih hindices⟩

/-- Expressions with the same outline are alike. -/
theorem IsExpression.alike (hn : IsExpression n) (hm : IsExpression m)
    (pn : ∀ p ∈ n.parts, p.IsSpelled Kind.IsReadable)
    (pm : ∀ p ∈ m.parts, p.IsSpelled Kind.IsReadable) (h : n.top = m.top) : Alike n m := by
  induction hn generalizing m with
  | integer =>
    have hhead := IsExpression.integer.head_matches hm pn pm h
    cases hm with
    | integer =>
      cases hhead
      exact .integer
    | reference => exact absurd hhead (not_matches_reference nofun nofun)
    | _ => cases hhead
  | float =>
    have hhead := IsExpression.float.head_matches hm pn pm h
    cases hm with
    | float => exact .float (Outline.mk.inj h).1
    | reference => exact absurd hhead (not_matches_reference nofun nofun)
    | _ => cases hhead
  | string =>
    have hhead := IsExpression.string.head_matches hm pn pm h
    cases hm with
    | string =>
      cases hhead
      exact .string
    | reference => exact absurd hhead (not_matches_reference nofun nofun)
    | _ => cases hhead
  | @reference r hi ih =>
    have hhead := (IsExpression.reference hi).head_matches hm pn pm h
    cases hm with
    | @reference r' hi' =>
      have pi := forall_mem_innerReference.mp (List.forall_mem_cons.mp pn).2
      have pi' := forall_mem_innerReference.mp (List.forall_mem_cons.mp pm).2
      obtain ⟨hname, hindices⟩ := alike_of_topReference
        (fun i hmem j hmem' => ih i hmem (hi' j hmem') (pi i hmem) (pi' j hmem')) h hhead
      obtain ⟨x, is, l⟩ := r
      obtain ⟨x', is', l'⟩ := r'
      obtain rfl : x = x' := hname
      exact .reference hindices
    | _ => exact absurd hhead.symm (not_matches_reference nofun nofun)
  | @matrix rows l hrows hrow he ih =>
    have hhead := (IsExpression.matrix hrows hrow he).head_matches hm pn pm h
    cases hm with
    | @matrix rows' _ _ _ he' =>
      have pr := forall_mem_partsRows.mp (List.forall_mem_cons.mp pn).2
      have pr' := forall_mem_partsRows.mp (List.forall_mem_cons.mp pm).2
      refine .matrix (alikeRows_of_topRows ?_ (Outline.mk.inj h).2)
      exact fun row hr row' hr' e hmem e' hmem' =>
        ih row hr e hmem (he' row' hr' e' hmem') (pr row hr e hmem) (pr' row' hr' e' hmem')
    | reference => exact absurd hhead (not_matches_reference nofun nofun)
    | _ => cases hhead
  | @builtin b es l hes he ih =>
    have hhead := (IsExpression.builtin hes he).head_matches hm pn pm h
    cases hm with
    | @builtin b' es' _ _ he' =>
      cases hhead
      have pe := forall_mem_partsList.mp (List.forall_mem_cons.mp pn).2
      have pe' := forall_mem_partsList.mp (List.forall_mem_cons.mp pm).2
      refine .builtin (alikeAll_of_topList ?_ (Outline.mk.inj h).2)
      exact fun e hmem e' hmem' => ih e hmem (he' e' hmem') (pe e hmem) (pe' e' hmem')
    | reference => exact absurd hhead (not_matches_reference nofun nofun)
    | _ => cases hhead
  | @binary op e f l he hf ihe ihf =>
    have hhead := (IsExpression.binary he hf).head_matches hm pn pm h
    cases hm with
    | @binary _ e' f' _ he' hf' =>
      cases hhead
      obtain ⟨pe, pf⟩ := List.forall_mem_append.mp (List.forall_mem_cons.mp pn).2
      obtain ⟨pe', pf'⟩ := List.forall_mem_append.mp (List.forall_mem_cons.mp pm).2
      simp only [top, Outline.mk.injEq, List.cons.injEq, and_true, true_and] at h
      exact .binary (ihe he' pe pe' h.1) (ihf hf' pf pf' h.2)
    | reference => exact absurd hhead (not_matches_reference nofun nofun)
    | _ => cases hhead
  | @comparison c e f l he hf ihe ihf =>
    have hhead := (IsExpression.comparison he hf).head_matches hm pn pm h
    cases hm with
    | @comparison _ e' f' _ he' hf' =>
      cases hhead
      obtain ⟨pe, pf⟩ := List.forall_mem_append.mp (List.forall_mem_cons.mp pn).2
      obtain ⟨pe', pf'⟩ := List.forall_mem_append.mp (List.forall_mem_cons.mp pm).2
      simp only [top, Outline.mk.injEq, List.cons.injEq, and_true, true_and] at h
      exact .comparison (ihe he' pe pe' h.1) (ihf hf' pf pf' h.2)
    | reference => exact absurd hhead (not_matches_reference nofun nofun)
    | _ => cases hhead
  | @unary op e l he ih =>
    have hhead := (IsExpression.unary he).head_matches hm pn pm h
    cases hm with
    | @unary _ e' _ he' =>
      cases hhead
      have pe := (List.forall_mem_cons.mp pn).2
      have pe' := (List.forall_mem_cons.mp pm).2
      simp only [top, Outline.mk.injEq, List.cons.injEq, and_true, true_and] at h
      exact .unary (ih he' pe pe' h)
    | reference => exact absurd hhead (not_matches_reference nofun nofun)
    | _ => cases hhead

end Expressions

end Node

end MatrixLang
