import MatrixLang.Tree.Outline
import MatrixLang.Tree.Expectation

/-! # Trees at other places

A map of places moves tokens, syntax errors and the nodes of trees. What a token is, what an error
expects and how a tree is written in outline have nothing to do with places.
-/

namespace MatrixLang

def Token.moved (f : Location → Location) (t : Token) : Token := ⟨t.kind, f t.location⟩

def SyntaxError.moved (f : Location → Location) (e : SyntaxError) : SyntaxError :=
  ⟨e.expected, e.found.moved f⟩

namespace Node

mutual

/-- The tree with each node at the place where `f` sends its own. -/
def moved (f : Location → Location) : Node → Node
  | .assignment target op value l => .assignment (movedReference f target) op (moved f value) (f l)
  | .instruction i values l => .instruction i (movedList f values) (f l)
  | .conditional condition consequent alternative l =>
    .conditional (moved f condition) (movedBlock f consequent) (movedAlternative f alternative)
      (f l)
  | .whileLoop condition body l => .whileLoop (moved f condition) (movedBlock f body) (f l)
  | .forLoop counter bounds body l =>
    .forLoop (movedReference f counter) (movedBounds f bounds) (movedBlock f body) (f l)
  | .expression value l => .expression (moved f value) (f l)
  | .integer value l => .integer value (f l)
  | .float value l => .float value (f l)
  | .string text l => .string text (f l)
  | .reference r => .reference (movedReference f r)
  | .matrix rows l => .matrix (movedRows f rows) (f l)
  | .binary op left right l => .binary op (moved f left) (moved f right) (f l)
  | .comparison op left right l => .comparison op (moved f left) (moved f right) (f l)
  | .unary op operand l => .unary op (moved f operand) (f l)
  | .builtin b arguments l => .builtin b (movedList f arguments) (f l)

def movedReference (f : Location → Location) : Reference Node → Reference Node
  | ⟨name, indices, l⟩ => ⟨name, movedList f indices, f l⟩

def movedBounds (f : Location → Location) : Bounds Node → Bounds Node
  | ⟨lower, upper, l⟩ => ⟨moved f lower, moved f upper, f l⟩

def movedAlternative (f : Location → Location) :
    Option (Alternative Node) → Option (Alternative Node)
  | none => none
  | some (.elseIf node) => some (.elseIf (moved f node))
  | some (.block body) => some (.block (movedBlock f body))

def movedBlock (f : Location → Location) : Block Node → Block Node
  | ⟨statements, l⟩ => ⟨movedList f statements, f l⟩

def movedRows (f : Location → Location) : List (List Node) → List (List Node)
  | [] => []
  | row :: rows => movedList f row :: movedRows f rows

def movedList (f : Location → Location) : List Node → List Node
  | [] => []
  | node :: nodes => moved f node :: movedList f nodes

end

end Node

def Program.moved (f : Location → Location) (p : Program) : Program := Node.movedBlock f p

section Moved

variable {f : Location → Location}

@[simp] theorem Token.kind_moved (f : Location → Location) (t : Token) :
    (t.moved f).kind = t.kind := rfl

@[simp] theorem Token.location_moved (f : Location → Location) (t : Token) :
    (t.moved f).location = f t.location := rfl

namespace Node

theorem movedList_eq_map (ns : List Node) : movedList f ns = ns.map (moved f) := by
  induction ns with
  | nil => rfl
  | cons n ns ih => rw [movedList, ih, List.map_cons]

theorem movedRows_eq_map (rows : List (List Node)) : movedRows f rows = rows.map (movedList f) := by
  induction rows with
  | nil => rfl
  | cons row rows ih => rw [movedRows, ih, List.map_cons]

@[simp] theorem length_movedList (ns : List Node) : (movedList f ns).length = ns.length := by
  rw [movedList_eq_map, List.length_map]

@[simp] theorem length_movedRows (rows : List (List Node)) :
    (movedRows f rows).length = rows.length := by
  rw [movedRows_eq_map, List.length_map]

theorem location_moved (n : Node) : (moved f n).location = f n.location := by
  cases n with
  | reference r => cases r; rfl
  | _ => rfl

mutual

theorem moved_id : ∀ n : Node, moved id n = n
  | .assignment target op value l => by
    simp only [moved, movedReference_id target, moved_id value, id]
  | .instruction i values l => by simp only [moved, movedList_id values, id]
  | .conditional condition consequent alternative l => by
    simp only [moved, moved_id condition, movedBlock_id consequent, movedAlternative_id alternative,
      id]
  | .whileLoop condition body l => by simp only [moved, moved_id condition, movedBlock_id body, id]
  | .forLoop counter bounds body l => by
    simp only [moved, movedReference_id counter, movedBounds_id bounds, movedBlock_id body, id]
  | .expression value l => by simp only [moved, moved_id value, id]
  | .integer _ _ | .float _ _ | .string _ _ => rfl
  | .reference r => by simp only [moved, movedReference_id r]
  | .matrix rows l => by simp only [moved, movedRows_id rows, id]
  | .binary op left right l => by simp only [moved, moved_id left, moved_id right, id]
  | .comparison op left right l => by simp only [moved, moved_id left, moved_id right, id]
  | .unary op operand l => by simp only [moved, moved_id operand, id]
  | .builtin b arguments l => by simp only [moved, movedList_id arguments, id]

theorem movedReference_id : ∀ r : Reference Node, movedReference id r = r
  | ⟨name, indices, l⟩ => by simp only [movedReference, movedList_id indices, id]

theorem movedBounds_id : ∀ b : Bounds Node, movedBounds id b = b
  | ⟨lower, upper, l⟩ => by simp only [movedBounds, moved_id lower, moved_id upper, id]

theorem movedAlternative_id : ∀ a : Option (Alternative Node), movedAlternative id a = a
  | none => rfl
  | some (.elseIf node) => by simp only [movedAlternative, moved_id node]
  | some (.block body) => by simp only [movedAlternative, movedBlock_id body]

theorem movedBlock_id : ∀ b : Block Node, movedBlock id b = b
  | ⟨statements, l⟩ => by simp only [movedBlock, movedList_id statements, id]

theorem movedRows_id : ∀ rows : List (List Node), movedRows id rows = rows
  | [] => rfl
  | row :: rows => by simp only [movedRows, movedList_id row, movedRows_id rows]

theorem movedList_id : ∀ ns : List Node, movedList id ns = ns
  | [] => rfl
  | node :: nodes => by simp only [movedList, moved_id node, movedList_id nodes]

end

mutual

theorem outline_moved (d : Nat) : ∀ n : Node, outline d (moved f n) = outline d n
  | .assignment target op value l => by
    simp only [moved, outline, outlineReference_moved _ target, outline_moved _ value]
  | .instruction i values l => by simp only [moved, outline, outlineList_moved _ values]
  | .conditional condition consequent alternative l => by
    simp only [moved, outline, outline_moved _ condition, outlineBlock_moved _ consequent,
      outlineAlternative_moved _ alternative]
  | .whileLoop condition body l => by
    simp only [moved, outline, outline_moved _ condition, outlineBlock_moved _ body]
  | .forLoop counter bounds body l => by
    simp only [moved, outline, outlineReference_moved _ counter, outlineBounds_moved _ bounds,
      outlineBlock_moved _ body]
  | .expression value l => by simp only [moved, outline, outline_moved _ value]
  | .integer _ _ | .float _ _ | .string _ _ => by simp only [moved, outline]
  | .reference r => by simp only [moved, outline, outlineReference_moved _ r]
  | .matrix rows l => by simp only [moved, outline, outlineRows_moved _ rows]
  | .binary op left right l => by
    simp only [moved, outline, outline_moved _ left, outline_moved _ right]
  | .comparison op left right l => by
    simp only [moved, outline, outline_moved _ left, outline_moved _ right]
  | .unary op operand l => by simp only [moved, outline, outline_moved _ operand]
  | .builtin b arguments l => by simp only [moved, outline, outlineList_moved _ arguments]

theorem outlineReference_moved (d : Nat) :
    ∀ r : Reference Node, outlineReference d (movedReference f r) = outlineReference d r
  | ⟨name, [], l⟩ => by simp only [movedReference, movedList, outlineReference]
  | ⟨name, index :: indices, l⟩ => by
    simp only [movedReference, movedList, outlineReference, outline_moved _ index,
      outlineList_moved _ indices]

theorem outlineBounds_moved (d : Nat) :
    ∀ b : Bounds Node, outlineBounds d (movedBounds f b) = outlineBounds d b
  | ⟨lower, upper, l⟩ => by
    simp only [movedBounds, outlineBounds, outline_moved _ lower, outline_moved _ upper]

theorem outlineAlternative_moved (d : Nat) : ∀ a : Option (Alternative Node),
    outlineAlternative d (movedAlternative f a) = outlineAlternative d a
  | none => rfl
  | some (.elseIf node) => by simp only [movedAlternative, outlineAlternative, outline_moved _ node]
  | some (.block body) => by
    simp only [movedAlternative, outlineAlternative, outlineBlock_moved _ body]

theorem outlineBlock_moved (d : Nat) :
    ∀ b : Block Node, outlineBlock d (movedBlock f b) = outlineBlock d b
  | ⟨statements, l⟩ => by simp only [movedBlock, outlineBlock, outlineList_moved _ statements]

theorem outlineRows_moved (d : Nat) :
    ∀ rows : List (List Node), outlineRows d (movedRows f rows) = outlineRows d rows
  | [] => rfl
  | row :: rows => by
    simp only [movedRows, outlineRows, outlineList_moved _ row, outlineRows_moved _ rows]

theorem outlineList_moved (d : Nat) :
    ∀ ns : List Node, outlineList d (movedList f ns) = outlineList d ns
  | [] => rfl
  | node :: nodes => by
    simp only [movedList, outlineList, outline_moved _ node, outlineList_moved _ nodes]

end

end Node

theorem Program.outlineText_moved (p : Program) :
    Program.outlineText (Program.moved f p) = Program.outlineText p :=
  congrArg Entry.unlines (Node.outlineBlock_moved 0 p)

end Moved

end MatrixLang
