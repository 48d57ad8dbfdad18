import MatrixLang.Binary64.Basic
import MatrixLang.Location
import MatrixLang.Operator

/-! # Syntax trees

Statements and expressions are nodes of one kind of tree, each at the place of its defining token.
The type admits trees that no program text gives, such as a statement among operands.
-/

namespace MatrixLang

/-- A name with indices, none for a plain variable. -/
structure Reference (ν : Type) where
  name : String
  indices : List ν
  location : Location
  deriving Repr

structure Block (ν : Type) where
  statements : List ν
  location : Location
  deriving Repr

structure Bounds (ν : Type) where
  lower : ν
  upper : ν
  location : Location
  deriving Repr

inductive Alternative (ν : Type) where
  | elseIf (node : ν)
  | block (body : Block ν)
  deriving Repr

inductive Node where
  | assignment (target : Reference Node) (operator : AssignOperator) (value : Node)
      (location : Location)
  | instruction (instruction : Instruction) (values : List Node) (location : Location)
  | conditional (condition : Node) (consequent : Block Node)
      (alternative : Option (Alternative Node)) (location : Location)
  | whileLoop (condition : Node) (body : Block Node) (location : Location)
  | forLoop (counter : Reference Node) (bounds : Bounds Node) (body : Block Node)
      (location : Location)
  | expression (value : Node) (location : Location)
  | integer (value : Int) (location : Location)
  | float (value : Binary64) (location : Location)
  | string (text : String) (location : Location)
  | reference (reference : Reference Node)
  | matrix (rows : List (List Node)) (location : Location)
  | binary (operator : BinaryOperator) (left right : Node) (location : Location)
  | comparison (operator : Comparison) (left right : Node) (location : Location)
  | unary (operator : UnaryOperator) (operand : Node) (location : Location)
  | builtin (builtin : Builtin) (arguments : List Node) (location : Location)
  deriving Repr

abbrev Program := Block Node

namespace Node

def location : Node → Location
  | .assignment _ _ _ l | .instruction _ _ l | .conditional _ _ _ l | .whileLoop _ _ l
  | .forLoop _ _ _ l | .expression _ l | .integer _ l | .float _ l | .string _ l | .matrix _ l
  | .binary _ _ _ l | .comparison _ _ _ l | .unary _ _ l | .builtin _ _ l => l
  | .reference r => r.location

def line (n : Node) : Nat := n.location.line

end Node

end MatrixLang
