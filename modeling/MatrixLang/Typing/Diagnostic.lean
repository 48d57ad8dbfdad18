import MatrixLang.Typing.Ty

/-! # Diagnostics

A diagnostic is a violated rule on a line. The violations of one operator carry their operands, the
others the name or the instruction that they are about.
-/

namespace MatrixLang

def CombinationFault.message : CombinationFault → String
  | .withoutMatrix => "Element-wise operation without a matrix"
  | .withoutScalar => "Element-wise with not a int or float"
  | .shapes left right =>
    "Invalid dimensions for matrices (" ++ left.text ++ ") and (" ++ right.text ++ ")"
  | .scalarAndMatrix => "Binary operations with numerical value and matrix"
  | .operands op left right =>
    "Invalid operation: " ++ left.text ++ " " ++ op.text ++ " " ++ right.text

inductive Violation where
  | undefinedVariable (name : String)
  | undeclaredTarget (name : String)
  | unknownAssignedValue
  | raggedMatrix
  | matrixElement
  | invalidDimension
  | transposeNonMatrix
  | invalidNegation
  | unknownOperand
  | combination (fault : CombinationFault)
  | invalidRange
  | nonBooleanCondition
  | outsideLoop (instruction : Instruction)
  | unknownPayload (instruction : Instruction)
  | nonIntegerIndex
  deriving DecidableEq, Repr

def Violation.message : Violation → String
  | .undefinedVariable name => "Not existing variable: " ++ name
  | .undeclaredTarget name => "Variable does not exist: " ++ name
  | .unknownAssignedValue => "Assigning to an unknown variable"
  | .raggedMatrix => "Incompatible size for matrix"
  | .matrixElement => "Wrong type in matrix"
  | .invalidDimension => "Invalid dimension values"
  | .transposeNonMatrix => "Transpose operation with a non-matrix"
  | .invalidNegation => "Invalid arguments for negation"
  | .unknownOperand => "Expression with an unknown variable"
  | .combination fault => fault.message
  | .invalidRange => "Invalid range arguments"
  | .nonBooleanCondition => "Condition is not a boolean"
  | .outsideLoop instruction => "Instruction outside a loop: " ++ instruction.text
  | .unknownPayload instruction => instruction.text ++ " operation with unknown variable"
  | .nonIntegerIndex => "Index must be an integer"

structure Diagnostic where
  line : Nat
  violation : Violation
  deriving DecidableEq, Repr

def Diagnostic.text (d : Diagnostic) : String :=
  "Line " ++ toString d.line ++ ": " ++ d.violation.message

end MatrixLang
