import MatrixLang.Binary64.Text
import MatrixLang.Tree.Basic

/-! # Outlines of trees

An outline has one label per line, each at a depth, and is written with one guide per level of
depth. Places are left out, and so is the difference between a block and its bare statement.
-/

namespace MatrixLang

structure Entry where
  depth : Nat
  label : String
  deriving DecidableEq, Repr

/-- What stands before a label once for each level of depth. -/
def Entry.guide : String := "|  "

def Entry.text (e : Entry) : String :=
  String.join (List.replicate e.depth guide) ++ e.label

def Entry.unlines (es : List Entry) : String :=
  String.join (es.map fun e => e.text ++ "\n")

namespace UnaryOperator

def label : UnaryOperator → String
  | .negate => "-"
  | .transpose => "TRANSPOSE"

end UnaryOperator

namespace Node

mutual

/-- The outline of a node whose label stands at depth `d`. -/
def outline (d : Nat) : Node → List Entry
  | .integer value _ => [⟨d, toString value⟩]
  | .float value _ => [⟨d, value.text⟩]
  | .string text _ => [⟨d, "\"" ++ text ++ "\""⟩]
  | .reference r => outlineReference d r
  | .matrix rows _ => ⟨d, "MATRIX"⟩ :: outlineRows (d + 1) rows
  | .binary op left right _ => ⟨d, op.text⟩ :: outline (d + 1) left ++ outline (d + 1) right
  | .comparison op left right _ => ⟨d, op.text⟩ :: outline (d + 1) left ++ outline (d + 1) right
  | .unary op operand _ => ⟨d, op.label⟩ :: outline (d + 1) operand
  | .builtin b arguments _ => ⟨d, b.text⟩ :: outlineList (d + 1) arguments
  | .assignment target op value _ =>
    ⟨d, op.text⟩ :: outlineReference (d + 1) target ++ outline (d + 1) value
  | .instruction i values _ => ⟨d, i.name⟩ :: outlineList (d + 1) values
  | .conditional condition consequent alternative _ =>
    ⟨d, "IF"⟩ :: outline (d + 1) condition ++
      ⟨d, "THEN"⟩ :: outlineBlock (d + 1) consequent ++ outlineAlternative d alternative
  | .whileLoop condition body _ =>
    ⟨d, "WHILE"⟩ :: outline (d + 1) condition ++ outlineBlock (d + 1) body
  | .forLoop counter bounds body _ =>
    ⟨d, "FOR"⟩ :: outlineReference (d + 1) counter ++ outlineBounds (d + 1) bounds ++
      outlineBlock (d + 1) body
  | .expression value _ => outline d value

def outlineReference (d : Nat) : Reference Node → List Entry
  | ⟨name, [], _⟩ => [⟨d, name⟩]
  | ⟨name, index :: indices, _⟩ =>
    ⟨d, "REF"⟩ :: ⟨d + 1, name⟩ :: outline (d + 1) index ++ outlineList (d + 1) indices

def outlineBounds (d : Nat) : Bounds Node → List Entry
  | ⟨lower, upper, _⟩ => ⟨d, "RANGE"⟩ :: outline (d + 1) lower ++ outline (d + 1) upper

def outlineAlternative (d : Nat) : Option (Alternative Node) → List Entry
  | none => []
  | some (.elseIf node) => ⟨d, "ELSE"⟩ :: outline d node
  | some (.block body) => ⟨d, "ELSE"⟩ :: outlineBlock (d + 1) body

def outlineBlock (d : Nat) : Block Node → List Entry
  | ⟨statements, _⟩ => outlineList d statements

def outlineRows (d : Nat) : List (List Node) → List Entry
  | [] => []
  | row :: rows => ⟨d, "VECTOR"⟩ :: outlineList (d + 1) row ++ outlineRows d rows

def outlineList (d : Nat) : List Node → List Entry
  | [] => []
  | node :: nodes => outline d node ++ outlineList d nodes

end

def outlineText (n : Node) : String := Entry.unlines (n.outline 0)

end Node

def Program.outlineText (p : Program) : String := Entry.unlines (Node.outlineBlock 0 p)

end MatrixLang
