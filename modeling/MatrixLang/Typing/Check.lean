import MatrixLang.Tree.Basic
import MatrixLang.Typing.Diagnostic
import MatrixLang.Typing.Scopes

/-! # Checking programs

A check walks over a tree once, gives each expression its type where one is known, and reports every
violation on the way. A statement among operands is checked as a statement and has no type.
-/

namespace MatrixLang

/-- What a check has bound and reported so far, and how many loops it is in. -/
structure Checker (ε : Type) where
  environment : ε
  loopDepth : Nat
  diagnostics : List Diagnostic

/-- A step of a check. -/
def Check (ε α : Type) := Checker ε → α × Checker ε

namespace Check

variable {ε α β : Type}

instance : Monad (Check ε) where
  pure a s := (a, s)
  bind c f s := f (c s).1 (c s).2

theorem pure_apply (a : α) (s : Checker ε) : (pure a : Check ε α) s = (a, s) := rfl

theorem bind_apply (c : Check ε α) (f : α → Check ε β) (s : Checker ε) :
    (c >>= f) s = f (c s).1 (c s).2 := rfl

def report (line : Nat) (v : Violation) : Check ε Unit := fun s =>
  ((), { s with diagnostics := s.diagnostics ++ [⟨line, v⟩] })

def inLoop : Check ε Bool := fun s => (s.loopDepth != 0, s)

def inBody (c : Check ε α) : Check ε α := fun s =>
  let r := c { s with loopDepth := s.loopDepth + 1 }
  (r.1, { r.2 with loopDepth := r.2.loopDepth - 1 })

variable [Environment ε]

def find? (name : String) : Check ε (Option Binding) := fun s =>
  (Environment.find? s.environment name, s)

def bindName (name : String) (type? : Option Ty) : Check ε Unit := fun s =>
  ((), { s with environment := Environment.put s.environment ⟨name, type?⟩ })

/-- Runs a check in a block of its own. -/
def inBlock (c : Check ε α) : Check ε α := fun s =>
  let r := c { s with environment := Environment.enter s.environment }
  (r.1, { r.2 with environment := Environment.leave r.2.environment })

/-- The type of an operator's result, if it has one. -/
def combined (line : Nat) (op : BinaryOperator) (left right : Option Ty) :
    Check ε (Option Ty) := do
  match left, right with
  | some l, some r =>
    match l.combine op r with
    | .ok t => return some t
    | .error fault =>
      report line (.combination fault)
      return none
  | _, _ =>
    report line .unknownOperand
    return none

def transposed (line : Nat) : Option Ty → Check ε (Option Ty)
  | some (.matrix shape) => return some (.matrix shape.transpose)
  | _ => do
    report line .transposeNonMatrix
    return none

def negated (line : Nat) : Option Ty → Check ε (Option Ty)
  | some t => do
    if t.isNumeric ∨ t.isMatrix then return some t
    report line .invalidNegation
    return none
  | none => do
    report line .invalidNegation
    return none

def requireBoolean (line : Nat) (type? : Option Ty) : Check ε Unit := do
  if type? ≠ some .boolean then report line .nonBooleanCondition

/-- An index of the type `type?`; nothing more is said about one without a type. -/
def requireIndex (line : Nat) : Option Ty → Check ε Unit
  | some .int | none => return ()
  | some _ => report line .nonIntegerIndex

def variableType (line : Nat) (name : String) : Check ε (Option Ty) := do
  match ← find? name with
  | some b => return b.type?
  | none =>
    report line (.undefinedVariable name)
    return none

/-- Binds `name` to the type of a value, or to that of the old value combined with it. -/
def assigned (line : Nat) (name : String) (op : AssignOperator) (value : Option Ty) :
    Check ε Unit := do
  match op.arithmetic? with
  | none => bindName name value
  | some op =>
    match ← find? name with
    | none => report line (.undeclaredTarget name)
    | some b =>
      match b.type?, value with
      | some old, some new =>
        match old.combine op new with
        | .ok t => bindName name (some t)
        | .error fault => report line (.combination fault)
      | _, _ => report line .unknownAssignedValue

end Check

/-- The extent that an integer argument of a builtin gives, unknown unless it is a literal; a
negative literal gives none. -/
def Node.extent? : Node → Option Extent
  | .integer value _ => if 0 ≤ value then some (.known value.toNat) else none
  | _ => some .unknown

/-- The extents of a builtin's matrix: one column for a single argument, and the first two extents
for several. -/
def Shape.ofExtents? : List Extent → Option Shape
  | [] => none
  | [rows] => some ⟨rows, .known 1⟩
  | rows :: columns :: _ => some ⟨rows, columns⟩

def Node.isRagged (rows : List (List Node)) : Bool :=
  rows.any fun row => row.length != (rows.headD []).length

namespace Node

open Check

variable {ε : Type} [Environment ε]

mutual

/-- Checks a node; the result is the type of an expression, if it is known. -/
def check : Node → Check ε (Option Ty)
  | .integer _ _ => return some .int
  | .float _ _ => return some .float
  | .string _ _ => return some .string
  | .reference r => checkReference r
  | .matrix rows l => do
    if isRagged rows then report l.line .raggedMatrix
    checkRows l.line rows
    return some (.matrix (.ofSize rows.length (rows.headD []).length))
  | .builtin _ arguments l => do
    if ← checkArguments arguments then
      match arguments.mapM extent? with
      | some extents => return (Shape.ofExtents? extents).map .matrix
      | none =>
        report l.line .invalidDimension
        return none
    else
      report l.line .invalidDimension
      return none
  | .binary op left right l => do
    let left ← check left
    let right ← check right
    combined l.line op left right
  | .comparison _ left right _ => do
    let _ ← check left
    let _ ← check right
    return some .boolean
  | .unary .transpose operand l => do transposed l.line (← check operand)
  | .unary .negate operand l => do negated l.line (← check operand)
  | .assignment target op value l => do
    let type? ← check value
    checkAssigned l.line op type? target
    return none
  | .instruction i values l => do
    if i.needsLoop && !(← inLoop) then report l.line (.outsideLoop i)
    if ← checkPayload values then return none
    report l.line (.unknownPayload i)
    return none
  | .conditional condition consequent alternative _ => do
    requireBoolean condition.line (← check condition)
    inBlock (checkBlock consequent)
    checkAlternative alternative
    return none
  | .whileLoop condition body _ => do
    requireBoolean condition.line (← check condition)
    inBody (inBlock (checkBlock body))
    return none
  | .forLoop counter bounds body _ => do
    checkBounds bounds
    bindName counter.name (some .int)
    inBody (inBlock (checkBlock body))
    return none
  | .expression value _ => do
    let _ ← check value
    return none

def checkReference : Reference Node → Check ε (Option Ty)
  | ⟨name, indices, l⟩ => do
    checkIndices indices
    variableType l.line name

/-- The assignment of a value of the type `type?`. An element keeps its matrix as it is. -/
def checkAssigned (line : Nat) (op : AssignOperator) (type? : Option Ty) :
    Reference Node → Check ε Unit
  | ⟨name, [], _⟩ => assigned line name op type?
  | ⟨name, index :: indices, l⟩ => do
    requireIndex index.line (← check index)
    checkIndices indices
    let _ ← variableType l.line name
    if type?.isNone then report line .unknownAssignedValue

def checkIndices : List Node → Check ε Unit
  | [] => return ()
  | index :: indices => do
    requireIndex index.line (← check index)
    checkIndices indices

/-- The elements of one row, the first that is no number being reported. -/
def checkElements (line : Nat) (reported : Bool) : List Node → Check ε Unit
  | [] => return ()
  | element :: elements => do
    let type? ← check element
    if type?.any (·.isNumeric) then checkElements line reported elements
    else
      if !reported then report line .matrixElement
      checkElements line true elements

def checkRows (line : Nat) : List (List Node) → Check ε Unit
  | [] => return ()
  | row :: rows => do
    checkElements line false row
    checkRows line rows

/-- Whether all arguments are integers. -/
def checkArguments : List Node → Check ε Bool
  | [] => return true
  | argument :: arguments => do
    let type? ← check argument
    let others ← checkArguments arguments
    return type? = some .int && others

/-- Whether all values have types; the first that has none is the last to be checked. -/
def checkPayload : List Node → Check ε Bool
  | [] => return true
  | value :: values => do
    let type? ← check value
    if type?.isNone then return false
    checkPayload values

def checkBounds : Bounds Node → Check ε Unit
  | ⟨lower, upper, l⟩ => do
    let lower ← check lower
    let upper ← check upper
    if lower ≠ some .int ∨ upper ≠ some .int then report l.line .invalidRange

def checkAlternative : Option (Alternative Node) → Check ε Unit
  | none => return ()
  | some (.elseIf node) => do
    let _ ← check node
    return ()
  | some (.block body) => inBlock (checkBlock body)

def checkBlock : Block Node → Check ε Unit
  | ⟨statements, _⟩ => checkStatements statements

def checkStatements : List Node → Check ε Unit
  | [] => return ()
  | statement :: statements => do
    let _ ← check statement
    checkStatements statements

end

end Node

namespace Checker

def initial : Checker Scopes := ⟨.empty, 0, []⟩

variable {ε : Type} [Environment ε]

/-- Checks the statements of a program in the scope that is open. -/
def program (p : Program) (s : Checker ε) : Checker ε :=
  (Node.checkBlock p s).2

def expression (n : Node) (s : Checker ε) : Option Ty × Checker ε :=
  n.check s

def type? (s : Checker ε) (name : String) : Option Ty :=
  (Environment.find? s.environment name).bind (·.type?)

end Checker

end MatrixLang
