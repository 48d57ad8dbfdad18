import MatrixLang.Operator
import MatrixLang.Typing.Shape

/-! # Types and their combination

Numbers combine to numbers and matrices to matrices under the plain operators, and the elementwise
operators scale a matrix by a number on either side. Every other pair of operands has a fault of its
own.
-/

namespace MatrixLang

inductive Ty where
  | int
  | float
  | string
  | boolean
  | matrix (shape : Shape)
  deriving DecidableEq, Repr

namespace Ty

def isNumeric : Ty → Bool
  | .int | .float => true
  | .string | .boolean | .matrix _ => false

def isMatrix : Ty → Bool
  | .matrix _ => true
  | .int | .float | .string | .boolean => false

def shape? : Ty → Option Shape
  | .matrix shape => some shape
  | .int | .float | .string | .boolean => none

def text : Ty → String
  | .int => "int"
  | .float => "float"
  | .string => "string"
  | .boolean => "boolean"
  | .matrix shape => "matrix(" ++ shape.text ++ ")"

end Ty

/-- Why two operands do not combine. -/
inductive CombinationFault where
  | withoutMatrix
  | withoutScalar
  | shapes (left right : Shape)
  | scalarAndMatrix
  | operands (op : BinaryOperator) (left right : Ty)
  deriving DecidableEq, Repr

namespace Ty

def combinePlain (op : Arithmetic) : Ty → Ty → Except CombinationFault Ty
  | .int, .int => .ok .int
  | .matrix s, .matrix t =>
    match s.broadcast? t with
    | some u => .ok (.matrix u)
    | none => .error (.shapes s t)
  | l, r =>
    if l.isNumeric ∧ r.isNumeric then .ok .float
    else if (l.isMatrix ∧ r.isNumeric) ∨ (l.isNumeric ∧ r.isMatrix) then .error .scalarAndMatrix
    else .error (.operands (.plain op) l r)

def combineElementwise : Ty → Ty → Except CombinationFault Ty
  | .matrix _, .matrix _ => .error .withoutScalar
  | .matrix s, t => if t.isNumeric then .ok (.matrix s) else .error .withoutScalar
  | t, .matrix s => if t.isNumeric then .ok (.matrix s) else .error .withoutScalar
  | _, _ => .error .withoutMatrix

/-- The type of `left op right`. -/
def combine : BinaryOperator → Ty → Ty → Except CombinationFault Ty
  | .plain op => combinePlain op
  | .elementwise _ => combineElementwise

end Ty

end MatrixLang
