import MatrixLang.Proofs.Scope.Walk
import MatrixLang.Proofs.Syntax.Parsed

/-! # The parts of a tree

The nodes of a tree are read as they stand in it, whatever is around them. In the program of a text
every literal and name is that of a token, and instructions have the values that the grammar gives
them.
-/

namespace MatrixLang

namespace Node

mutual

def inner : Node → List Node
  | .integer _ _ | .float _ _ | .string _ _ => []
  | .reference r => innerReference r
  | .matrix rows _ => partsRows rows
  | .builtin _ arguments _ => partsList arguments
  | .binary _ left right _ => left :: inner left ++ right :: inner right
  | .comparison _ left right _ => left :: inner left ++ right :: inner right
  | .unary _ operand _ => operand :: inner operand
  | .assignment target _ value _ => innerReference target ++ value :: inner value
  | .instruction _ values _ => partsList values
  | .conditional condition consequent alternative _ =>
    condition :: inner condition ++ partsBlock consequent ++ partsAlternative alternative
  | .whileLoop condition body _ => condition :: inner condition ++ partsBlock body
  | .forLoop counter bounds body _ =>
    innerReference counter ++ partsBounds bounds ++ partsBlock body
  | .expression value _ => value :: inner value

def innerReference : Reference Node → List Node
  | ⟨_, indices, _⟩ => partsList indices

def partsBounds : Bounds Node → List Node
  | ⟨lower, upper, _⟩ => lower :: inner lower ++ upper :: inner upper

def partsAlternative : Option (Alternative Node) → List Node
  | none => []
  | some (.elseIf node) => node :: inner node
  | some (.block body) => partsBlock body

def partsBlock : Block Node → List Node
  | ⟨statements, _⟩ => partsList statements

def partsRows : List (List Node) → List Node
  | [] => []
  | row :: rows => partsList row ++ partsRows rows

def partsList : List Node → List Node
  | [] => []
  | node :: nodes => node :: inner node ++ partsList nodes

end

/-- A node and the nodes inside it. -/
def parts (n : Node) : List Node := n :: n.inner

end Node

def Program.parts (p : Program) : List Node := Node.partsBlock p

namespace Node

theorem forall_mem_partsList {Q : Node → Prop} {ns : List Node} :
    (∀ m ∈ partsList ns, Q m) ↔ ∀ n ∈ ns, ∀ m ∈ n.parts, Q m := by
  induction ns with
  | nil => exact ⟨nofun, nofun⟩
  | cons n ns ih =>
    have hcons : partsList (n :: ns) = n.parts ++ partsList ns := rfl
    rw [hcons, List.forall_mem_append, List.forall_mem_cons, ih]

theorem forall_mem_innerReference {Q : Node → Prop} {r : Reference Node} :
    (∀ m ∈ innerReference r, Q m) ↔ ∀ n ∈ r.indices, ∀ m ∈ n.parts, Q m := by
  obtain ⟨name, indices, l⟩ := r
  exact forall_mem_partsList

theorem forall_mem_partsRows {Q : Node → Prop} {rows : List (List Node)} :
    (∀ m ∈ partsRows rows, Q m) ↔ ∀ row ∈ rows, ∀ n ∈ row, ∀ m ∈ n.parts, Q m := by
  induction rows with
  | nil => exact ⟨nofun, nofun⟩
  | cons row rows ih =>
    rw [partsRows, List.forall_mem_append, List.forall_mem_cons, ih, forall_mem_partsList]

end Node

/-- What a node says by itself: its literal or its name is of a kind that `P` holds of, and an
instruction takes its values. -/
def Node.IsSpelled (P : Kind → Prop) : Node → Prop
  | .integer value _ => P (.integer value)
  | .float value _ => P (.float value)
  | .string text _ => P (.string text)
  | .reference r | .assignment r _ _ _ | .forLoop r _ _ _ => P (.name r.name)
  | .instruction i values _ => ∃ us, Phrase.Payload i us values
  | _ => True

variable {P : Kind → Prop}

namespace Phrase

open Node

mutual

theorem Chain.isSpelled {l us e} :
    Chain l us e → (∀ t ∈ us, P t.kind) → ∀ n ∈ e.parts, n.IsSpelled P
  | .operand h, hu => h.isSpelled hu
  | @Chain.join _ _ _ _ _ _ c h _ _ h', hu => by
    rw [List.forall_mem_append, List.forall_mem_cons] at hu
    have hl := h.isSpelled hu.1
    have hr := h'.isSpelled hu.2.2
    cases c <;> exact List.forall_mem_cons.mpr ⟨trivial, List.forall_mem_append.mpr ⟨hl, hr⟩⟩

theorem Operand.isSpelled {l us e} :
    Operand l us e → (∀ t ∈ us, P t.kind) → ∀ n ∈ e.parts, n.IsSpelled P
  | .equality h, hu | .relational h, hu | .additive h, hu => h.isSpelled hu
  | .multiplicative h, hu => h.isSpelled hu

theorem Negation.isSpelled {us e} :
    Negation us e → (∀ t ∈ us, P t.kind) → ∀ n ∈ e.parts, n.IsSpelled P
  | .transposed h, hu => h.isSpelled hu
  | .negate _ h, hu =>
    List.forall_mem_cons.mpr ⟨trivial, h.isSpelled (List.forall_mem_cons.mp hu).2⟩

theorem Transposed.isSpelled {us e} :
    Transposed us e → (∀ t ∈ us, P t.kind) → ∀ n ∈ e.parts, n.IsSpelled P
  | .primary h, hu => h.isSpelled hu
  | .transpose h _, hu =>
    List.forall_mem_cons.mpr ⟨trivial, h.isSpelled (List.forall_mem_append.mp hu).1⟩

theorem Primary.isSpelled {us e} :
    Primary us e → (∀ t ∈ us, P t.kind) → ∀ n ∈ e.parts, n.IsSpelled P
  | .integer ht, hu | .float ht, hu | .string ht, hu => by
    rw [List.forall_mem_singleton, ht] at hu
    exact List.forall_mem_singleton.mpr hu
  | .reference h, hu => List.forall_mem_cons.mpr (h.isSpelled hu)
  | .builtin _ _ h _, hu => by
    simp only [List.forall_mem_append, List.forall_mem_cons] at hu
    exact List.forall_mem_cons.mpr ⟨trivial, h.isSpelled hu.1.2.2⟩
  | .matrix _ h _, hu => by
    simp only [List.forall_mem_append, List.forall_mem_cons] at hu
    exact List.forall_mem_cons.mpr ⟨trivial, h.isSpelled hu.1.2⟩
  | .parentheses _ h _, hu => by
    simp only [List.forall_mem_append, List.forall_mem_cons] at hu
    exact h.isSpelled hu.1.2

theorem Variable.isSpelled {us r} : Variable us r → (∀ t ∈ us, P t.kind) →
    P (.name r.name) ∧ ∀ n ∈ innerReference r, n.IsSpelled P
  | .plain ht, hu => ⟨ht ▸ (List.forall_mem_cons.mp hu).1, nofun⟩
  | .indexed ht _ h _, hu => by
    simp only [List.forall_mem_append, List.forall_mem_cons] at hu
    exact ⟨ht ▸ hu.1.1, h.isSpelled hu.1.2.2⟩

theorem Expressions.isSpelled {us es} :
    Expressions us es → (∀ t ∈ us, P t.kind) → ∀ n ∈ partsList es, n.IsSpelled P
  | .one h, hu => List.forall_mem_append.mpr ⟨h.isSpelled hu, nofun⟩
  | .more h _ h', hu => by
    rw [List.forall_mem_append, List.forall_mem_cons] at hu
    exact List.forall_mem_append.mpr ⟨h.isSpelled hu.1, h'.isSpelled hu.2.2⟩

theorem Rows.isSpelled {us rows} :
    Rows us rows → (∀ t ∈ us, P t.kind) → ∀ n ∈ partsRows rows, n.IsSpelled P
  | .one h, hu => List.forall_mem_append.mpr ⟨h.isSpelled hu, nofun⟩
  | .closed h _, hu =>
    List.forall_mem_append.mpr ⟨h.isSpelled (List.forall_mem_append.mp hu).1, nofun⟩
  | .more h _ h', hu => by
    rw [List.forall_mem_append, List.forall_mem_cons] at hu
    exact List.forall_mem_append.mpr ⟨h.isSpelled hu.1, h'.isSpelled hu.2.2⟩

end

theorem Expression.isSpelled {us : List Token} {e : Node} (h : Expression us e)
    (hu : ∀ t ∈ us, P t.kind) : ∀ n ∈ e.parts, n.IsSpelled P :=
  Chain.isSpelled h hu

theorem Payload.isSpelled {i : Instruction} {us : List Token} {es : List Node}
    (h : Payload i us es) (hu : ∀ t ∈ us, P t.kind) : ∀ n ∈ partsList es, n.IsSpelled P := by
  cases h with
  | returnValues h => exact h.isSpelled hu
  | printValues h => exact h.isSpelled hu
  | _ => exact nofun

mutual

theorem Statement.isSpelled {chained us k s} :
    Statement chained us k s → (∀ t ∈ us, P t.kind) → ∀ n ∈ s.parts, n.IsSpelled P
  | .assignment h _ h' _, hu => by
    simp only [List.forall_mem_append, List.forall_mem_cons] at hu
    obtain ⟨hname, hindices⟩ := h.isSpelled hu.1.1
    exact List.forall_mem_cons.mpr
      ⟨hname, List.forall_mem_append.mpr ⟨hindices, h'.isSpelled hu.1.2.2⟩⟩
  | .instruction _ h _ _, hu => by
    simp only [List.forall_mem_append, List.forall_mem_cons] at hu
    exact List.forall_mem_cons.mpr ⟨⟨_, h⟩, h.isSpelled hu.1.2⟩
  | .expression h _, hu => by
    rw [List.forall_mem_append] at hu
    exact List.forall_mem_cons.mpr ⟨trivial, h.isSpelled hu.1⟩
  | .conditional h, hu => h.isSpelled hu
  | .whileLoop _ _ h _ h', hu => by
    simp only [List.forall_mem_append, List.forall_mem_cons] at hu
    exact List.forall_mem_cons.mpr
      ⟨trivial, List.forall_mem_append.mpr ⟨h.isSpelled hu.1.2.2, h'.isSpelled hu.2.2⟩⟩
  | .forLoop _ hv _ h _ h' _ h'', hu => by
    simp only [List.forall_mem_append, List.forall_mem_cons] at hu
    obtain ⟨⟨⟨_, hname, _, hlower⟩, _, hupper⟩, hbody⟩ := hu
    rw [hv] at hname
    have hbounds := List.forall_mem_append.mpr ⟨h.isSpelled hlower, h'.isSpelled hupper⟩
    exact List.forall_mem_cons.mpr
      ⟨hname, List.forall_mem_append.mpr ⟨hbounds, h''.isSpelled hbody⟩⟩

theorem Conditional.isSpelled {chained us k s} :
    Conditional chained us k s → (∀ t ∈ us, P t.kind) → ∀ n ∈ s.parts, n.IsSpelled P
  | .mk _ _ h _ h' h'', hu => by
    simp only [List.forall_mem_append, List.forall_mem_cons] at hu
    obtain ⟨⟨⟨_, _, hcondition⟩, _, hblock⟩, halternative⟩ := hu
    have hfirst := List.forall_mem_append.mpr ⟨h.isSpelled hcondition, h'.isSpelled hblock⟩
    exact List.forall_mem_cons.mpr
      ⟨trivial, List.forall_mem_append.mpr ⟨hfirst, h''.isSpelled halternative⟩⟩

theorem Alternative.isSpelled {chained us k a} :
    Alternative chained us k a → (∀ t ∈ us, P t.kind) → ∀ n ∈ partsAlternative a, n.IsSpelled P
  | .none _, _ => nofun
  | .elseIf _ h, hu => h.isSpelled (List.forall_mem_cons.mp hu).2
  | .block _ _ h, hu => h.isSpelled (List.forall_mem_cons.mp hu).2

theorem Block.isSpelled {chained us k b} :
    Block chained us k b → (∀ t ∈ us, P t.kind) → ∀ n ∈ partsBlock b, n.IsSpelled P
  | .braced _ _ h, hu => by
    simp only [List.forall_mem_append, List.forall_mem_cons] at hu
    exact h.isSpelled hu.1.2
  | .bare h, hu => List.forall_mem_append.mpr ⟨h.isSpelled hu, nofun⟩

theorem Statements.isSpelled {chained us k ss} :
    Statements chained us k ss → (∀ t ∈ us, P t.kind) → ∀ n ∈ partsList ss, n.IsSpelled P
  | .nil, _ => nofun
  | .cons h h', hu => by
    rw [List.forall_mem_append] at hu
    exact List.forall_mem_append.mpr ⟨h.isSpelled hu.1, h'.isSpelled hu.2⟩

end

end Phrase

/-- Every literal and name in the program of a text is spelled in it. -/
theorem Program.isSpelled_of_ofText {cs : List Char} {p : Program} (h : ofText cs = .ok p) :
    ∀ n ∈ p.parts, n.IsSpelled fun k => ∃ us, Lexeme k us := by
  have hs := (Phrase.ofTokens_eq_ok_iff.mp h).1
  obtain ⟨statements, l⟩ := p
  refine hs.isSpelled fun t ht => ?_
  rcases Scan.mem_tokens ((List.takeWhile_prefix _).subset ht) with rfl | ⟨us, hus, _⟩
  · simpa using hs.inner _ ht
  · exact ⟨us, hus⟩

def Occurrence.name : Occurrence → String
  | .binder name | .update name _ | .use name _ => name

namespace Node

mutual

/-- The names that a check comes to are those of the tree. -/
theorem name_of_mem_walk {o : Occurrence} :
    (n : Node) → (∀ m ∈ n.parts, m.IsSpelled P) → o ∈ walk n → P (.name o.name)
  | .integer .., _, ho | .float .., _, ho | .string .., _, ho => nomatch ho
  | .reference r, h, ho => by
    rw [parts, List.forall_mem_cons] at h
    exact name_of_mem_walkReference r h.1 h.2 ho
  | .matrix rows _, h, ho => name_of_mem_walkRows rows (List.forall_mem_cons.mp h).2 ho
  | .builtin _ arguments _, h, ho =>
    name_of_mem_walkList arguments (List.forall_mem_cons.mp h).2 ho
  | .binary _ left right _, h, ho | .comparison _ left right _, h, ho => by
    obtain ⟨hleft, hright⟩ := List.forall_mem_append.mp (List.forall_mem_cons.mp h).2
    rcases List.mem_append.mp ho with ho | ho
    · exact name_of_mem_walk left hleft ho
    · exact name_of_mem_walk right hright ho
  | .unary _ operand _, h, ho => name_of_mem_walk operand (List.forall_mem_cons.mp h).2 ho
  | .assignment target op value l, h, ho => by
    obtain ⟨hname, h⟩ := List.forall_mem_cons.mp h
    obtain ⟨htarget, hvalue⟩ := List.forall_mem_append.mp h
    rcases List.mem_append.mp ho with ho | ho
    · exact name_of_mem_walk value hvalue ho
    · exact name_of_mem_walkTarget op l.line target hname htarget ho
  | .instruction _ values _, h, ho =>
    name_of_mem_walkList values (List.forall_mem_cons.mp h).2 ho
  | .conditional condition consequent alternative _, h, ho => by
    obtain ⟨hfirst, halternative⟩ := List.forall_mem_append.mp (List.forall_mem_cons.mp h).2
    obtain ⟨hcondition, hconsequent⟩ := List.forall_mem_append.mp hfirst
    rcases List.mem_append.mp ho with ho | ho
    · rcases List.mem_append.mp ho with ho | ho
      · exact name_of_mem_walk condition hcondition ho
      · exact name_of_mem_walkBlock consequent hconsequent ho
    · exact name_of_mem_walkAlternative alternative halternative ho
  | .whileLoop condition body _, h, ho => by
    obtain ⟨hcondition, hbody⟩ := List.forall_mem_append.mp (List.forall_mem_cons.mp h).2
    rcases List.mem_append.mp ho with ho | ho
    · exact name_of_mem_walk condition hcondition ho
    · exact name_of_mem_walkBlock body hbody ho
  | .forLoop counter bounds body _, h, ho => by
    obtain ⟨hname, h⟩ := List.forall_mem_cons.mp h
    obtain ⟨hfirst, hbody⟩ := List.forall_mem_append.mp h
    rcases List.mem_append.mp ho with ho | ho
    · exact name_of_mem_walkBounds bounds (List.forall_mem_append.mp hfirst).2 ho
    · rcases List.mem_cons.mp ho with rfl | ho
      · exact hname
      · exact name_of_mem_walkBlock body hbody ho
  | .expression value _, h, ho => name_of_mem_walk value (List.forall_mem_cons.mp h).2 ho

theorem name_of_mem_walkReference {o : Occurrence} : (r : Reference Node) → P (.name r.name) →
    (∀ m ∈ innerReference r, m.IsSpelled P) → o ∈ walkReference r → P (.name o.name)
  | ⟨name, indices, l⟩, hr, h, ho => by
    rcases List.mem_append.mp ho with ho | ho
    · exact name_of_mem_walkList indices h ho
    · obtain rfl := List.mem_singleton.mp ho
      exact hr

theorem name_of_mem_walkTarget {o : Occurrence} (op : AssignOperator) (line : Nat) :
    (r : Reference Node) → P (.name r.name) → (∀ m ∈ innerReference r, m.IsSpelled P) →
      o ∈ walkTarget op line r → P (.name o.name)
  | ⟨name, [], l⟩, hr, _, ho => by
    rw [walkTarget] at ho
    split at ho <;> (obtain rfl := List.mem_singleton.mp ho; exact hr)
  | ⟨name, index :: indices, l⟩, hr, h, ho => by
    obtain ⟨hindex, hindices⟩ := List.forall_mem_append.mp h
    rcases List.mem_append.mp ho with ho | ho
    · rcases List.mem_append.mp ho with ho | ho
      · exact name_of_mem_walk index hindex ho
      · exact name_of_mem_walkList indices hindices ho
    · obtain rfl := List.mem_singleton.mp ho
      exact hr

theorem name_of_mem_walkBounds {o : Occurrence} : (b : Bounds Node) →
    (∀ m ∈ partsBounds b, m.IsSpelled P) → o ∈ walkBounds b → P (.name o.name)
  | ⟨lower, upper, _⟩, h, ho => by
    obtain ⟨hlower, hupper⟩ := List.forall_mem_append.mp h
    rcases List.mem_append.mp ho with ho | ho
    · exact name_of_mem_walk lower hlower ho
    · exact name_of_mem_walk upper hupper ho

theorem name_of_mem_walkAlternative {o : Occurrence} : (a : Option (Alternative Node)) →
    (∀ m ∈ partsAlternative a, m.IsSpelled P) → o ∈ walkAlternative a → P (.name o.name)
  | none, _, ho => nomatch ho
  | some (.elseIf node), h, ho => name_of_mem_walk node h ho
  | some (.block body), h, ho => name_of_mem_walkBlock body h ho

theorem name_of_mem_walkBlock {o : Occurrence} : (b : Block Node) →
    (∀ m ∈ partsBlock b, m.IsSpelled P) → o ∈ walkBlock b → P (.name o.name)
  | ⟨statements, _⟩, h, ho => name_of_mem_walkList statements h ho

theorem name_of_mem_walkRows {o : Occurrence} : (rows : List (List Node)) →
    (∀ m ∈ partsRows rows, m.IsSpelled P) → o ∈ walkRows rows → P (.name o.name)
  | [], _, ho => nomatch ho
  | row :: rows, h, ho => by
    rw [partsRows, List.forall_mem_append] at h
    rcases List.mem_append.mp ho with ho | ho
    · exact name_of_mem_walkList row h.1 ho
    · exact name_of_mem_walkRows rows h.2 ho

theorem name_of_mem_walkList {o : Occurrence} : (ns : List Node) →
    (∀ m ∈ partsList ns, m.IsSpelled P) → o ∈ walkList ns → P (.name o.name)
  | [], _, ho => nomatch ho
  | n :: ns, h, ho => by
    rw [partsList, List.forall_mem_append] at h
    rcases List.mem_append.mp ho with ho | ho
    · exact name_of_mem_walk n h.1 ho
    · exact name_of_mem_walkList ns h.2 ho

end

end Node

end MatrixLang
