/-! # Operators and words of the language

The four arithmetic operators occur plainly, elementwise with a leading point, and compounded with
an assignment. Comparisons, builtin matrices and instructions are finite lists of names.
-/

namespace MatrixLang

inductive Arithmetic where
  | add
  | sub
  | mul
  | div
  deriving DecidableEq, Repr

inductive BinaryOperator where
  | plain (op : Arithmetic)
  | elementwise (op : Arithmetic)
  deriving DecidableEq, Repr

inductive Comparison where
  | equal
  | notEqual
  | less
  | lessEqual
  | greater
  | greaterEqual
  deriving DecidableEq, Repr

inductive UnaryOperator where
  | negate
  | transpose
  deriving DecidableEq, Repr

/-- An assignment, of the value itself or of the old value combined with it. -/
inductive AssignOperator where
  | plain
  | compound (op : Arithmetic)
  deriving DecidableEq, Repr

inductive Builtin where
  | zeros
  | ones
  | eye
  deriving DecidableEq, Repr

inductive Instruction where
  | breakLoop
  | continueLoop
  | returnValues
  | printValues
  deriving DecidableEq, Repr

def Arithmetic.text : Arithmetic → String
  | .add => "+"
  | .sub => "-"
  | .mul => "*"
  | .div => "/"

def BinaryOperator.text : BinaryOperator → String
  | .plain op => op.text
  | .elementwise op => "." ++ op.text

def Comparison.text : Comparison → String
  | .equal => "=="
  | .notEqual => "!="
  | .less => "<"
  | .lessEqual => "<="
  | .greater => ">"
  | .greaterEqual => ">="

def AssignOperator.text : AssignOperator → String
  | .plain => "="
  | .compound op => op.text ++ "="

def AssignOperator.arithmetic? : AssignOperator → Option BinaryOperator
  | .plain => none
  | .compound op => some (.plain op)

def Builtin.text : Builtin → String
  | .zeros => "zeros"
  | .ones => "ones"
  | .eye => "eye"

def Instruction.text : Instruction → String
  | .breakLoop => "break"
  | .continueLoop => "continue"
  | .returnValues => "return"
  | .printValues => "print"

def Instruction.name : Instruction → String
  | .breakLoop => "BREAK"
  | .continueLoop => "CONTINUE"
  | .returnValues => "RETURN"
  | .printValues => "PRINT"

def Instruction.needsLoop : Instruction → Bool
  | .breakLoop => true
  | .continueLoop => true
  | .returnValues => false
  | .printValues => false

end MatrixLang
