import MatrixLang.Tree.Basic
import MatrixLang.Tree.Rule

/-! # The grammar of programs

Binary operators are read level by level, loosest first, each level grouping to the left. An `else`
belongs to the nearest conditional, and a comma behind a value continues the list of values exactly
when the next token can start an expression.
-/

namespace MatrixLang

/-- The levels of precedence of the operators between two operands, loosest first. -/
inductive Level where
  | equality
  | relational
  | additive
  | multiplicative
  deriving DecidableEq, Repr

def Level.tighter? : Level → Option Level
  | .equality => some .relational
  | .relational => some .additive
  | .additive => some .multiplicative
  | .multiplicative => none

/-- An operator between two operands. -/
inductive Connective where
  | binary (op : BinaryOperator)
  | comparison (c : Comparison)
  deriving DecidableEq, Repr

namespace Connective

def level : Connective → Level
  | .comparison .equal | .comparison .notEqual => .equality
  | .comparison .less | .comparison .lessEqual
  | .comparison .greater | .comparison .greaterEqual => .relational
  | .binary (.plain op) | .binary (.elementwise op) =>
    match op with
    | .add | .sub => .additive
    | .mul | .div => .multiplicative

def ofKind? : Kind → Option Connective
  | .symbol (.binary op) => some (.binary op)
  | .symbol (.compare c) => some (.comparison c)
  | _ => none

def join (c : Connective) (left right : Node) (l : Location) : Node :=
  match c with
  | .binary op => .binary op left right l
  | .comparison c => .comparison c left right l

end Connective

/-- The operator that `kind` is at the level `l`. -/
def Level.connective? (l : Level) (kind : Kind) : Option Connective :=
  (Connective.ofKind? kind).filter (·.level = l)

def Kind.startsExpression : Kind → Bool
  | .integer _ | .float _ | .string _ | .name _ | .keyword (.builtin _) => true
  | .symbol mark => mark = .leftParen ∨ mark = .leftBracket ∨ mark = .binary (.plain .sub)
  | _ => false

namespace Grammar

open Rule

/-- Passes a comma that an expression follows. -/
def continuingComma : Rule Bool := fun ts =>
  if (Token.head ts).kind = .symbol .comma ∧ (Token.head (ts.drop 1)).kind.startsExpression then
    .ok true (ts.drop 1)
  else .ok false ts

def terminator (after : Terminated) : Rule Unit := do
  if ← accept .semicolon then return ()
  expect .comma (.terminator after)

def transposes (e : Node) : List Token → Outcome Node
  | [] => .ok e []
  | t :: ts =>
    if t.kind = .symbol .transpose then transposes (.unary .transpose e t.location) ts
    else .ok e (t :: ts)

section Expressions

mutual

/-- An expression of the level `l` or a tighter one. -/
def chain : Nat → Level → Rule Node
  | 0, _ => exhausted
  | d + 1, l => do
    let left ← operand d l
    chainRest d l left

/-- What the operators of the level `l` combine. -/
def operand : Nat → Level → Rule Node
  | 0, _ => exhausted
  | d + 1, l =>
    match l.tighter? with
    | some l => chain d l
    | none => negation d

/-- Continues a chain whose part so far is `left`. -/
def chainRest : Nat → Level → Node → Rule Node
  | 0, _, _ => exhausted
  | d + 1, l, left => do
    let t ← peek
    match l.connective? t.kind with
    | some c =>
      skip
      let right ← operand d l
      chainRest d l (c.join left right t.location)
    | none => return left

/-- A primary with transposes behind it, or a negated one of these. -/
def negation : Nat → Rule Node
  | 0 => exhausted
  | d + 1 => do
    let t ← peek
    if t.kind = .symbol (.binary (.plain .sub)) then
      skip
      let operand ← negation d
      return .unary .negate operand t.location
    else
      let e ← primary d
      transposes e

/-- A literal, a reference, a builtin call, a matrix or an expression in parentheses. -/
def primary : Nat → Rule Node
  | 0 => exhausted
  | d + 1 => do
    let t ← peek
    match t.kind with
    | .integer value =>
      skip
      return .integer value t.location
    | .float value =>
      skip
      return .float value t.location
    | .string text =>
      skip
      return .string text t.location
    | .name _ => return .reference (← reference d)
    | .keyword (.builtin b) =>
      skip
      expect .leftParen (.openParen (.builtin b))
      let arguments ← expressions d
      expect .rightParen (.closeDimensions b)
      return .builtin b arguments t.location
    | .symbol .leftBracket =>
      skip
      let rows ← matrixRows d
      expect .rightBracket .closeRows
      return .matrix rows t.location
    | .symbol .leftParen =>
      skip
      let e ← chain d .equality
      expect .rightParen .closeExpression
      return e
    | _ => fail .expression

def reference : Nat → Rule (Reference Node)
  | 0 => exhausted
  | d + 1 => do
    let t ← peek
    match t.kind with
    | .name name =>
      skip
      if ← accept .leftBracket then
        let indices ← expressions d
        expect .rightBracket .closeIndices
        return ⟨name, indices, t.location⟩
      else return ⟨name, [], t.location⟩
    | _ => fail .expression

def expressions : Nat → Rule (List Node)
  | 0 => exhausted
  | d + 1 => do
    let e ← chain d .equality
    if ← accept .comma then return e :: (← expressions d)
    else return [e]

/-- Rows between semicolons, at least one; a last semicolon may stand before the bracket. -/
def matrixRows : Nat → Rule (List (List Node))
  | 0 => exhausted
  | d + 1 => do
    let row ← expressions d
    if ← accept .semicolon then
      let t ← peek
      if t.kind = .symbol .rightBracket then return [row]
      else return row :: (← matrixRows d)
    else return [row]

end

def expression (d : Nat) : Rule Node := chain d .equality

def values : Nat → Rule (List Node)
  | 0 => exhausted
  | d + 1 => do
    let e ← expression d
    if ← continuingComma then return e :: (← values d)
    else return [e]

end Expressions

section Statements

def payload (d : Nat) : Instruction → Rule (List Node)
  | .breakLoop | .continueLoop => return []
  | .returnValues => do
    let t ← peek
    if t.kind.startsExpression then values d else return []
  | .printValues => values d

def condition (d : Nat) (word : Keyword) : Rule Node := do
  expect .leftParen (.openParen word)
  let e ← expression d
  expect .rightParen (.closeCondition word)
  return e

def bounds (d : Nat) : Rule (Bounds Node) := do
  let lower ← expression d
  let t ← peek
  expect .colon .rangeColon
  let upper ← expression d
  return ⟨lower, upper, t.location⟩

def expressionStatement (d : Nat) : Rule Node := do
  let t ← peek
  let e ← expression d
  terminator .expression
  return .expression e t.location

/-- An assignment, if an assignment operator follows the reference in front; otherwise the
reference starts an expression. -/
def assignmentOrExpression (d : Nat) : Rule Node := do
  let start ← remaining
  let target ← reference d
  let t ← peek
  match t.kind with
  | .symbol (.assign op) =>
    skip
    let value ← expression d
    terminator .assignment
    return .assignment target op value t.location
  | _ =>
    resume start
    expressionStatement d

mutual

def statement : Nat → Rule Node
  | 0 => exhausted
  | d + 1 => do
    let t ← peek
    match t.kind with
    | .keyword .ifWord =>
      skip
      conditional d t.location
    | .keyword .whileWord =>
      skip
      let e ← condition d .whileWord
      let body ← block d
      return .whileLoop e body t.location
    | .keyword .forWord =>
      skip
      let v ← peek
      match v.kind with
      | .name name =>
        skip
        expect (.assign .plain) .loopAssignment
        let b ← bounds d
        let body ← block d
        return .forLoop ⟨name, [], v.location⟩ b body t.location
      | _ => fail .loopVariable
    | .keyword (.instruction i) =>
      skip
      let vs ← payload d i
      terminator (.instruction i)
      return .instruction i vs t.location
    | .name _ => assignmentOrExpression d
    | _ => expressionStatement d

/-- A conditional whose word `if` stands at `l` and has been passed. -/
def conditional : Nat → Location → Rule Node
  | 0, _ => exhausted
  | d + 1, l => do
    let e ← condition d .ifWord
    let consequent ← block d
    return .conditional e consequent (← alternative d) l

def alternative : Nat → Rule (Option (Alternative Node))
  | 0 => exhausted
  | d + 1 => do
    let t ← peek
    if t.kind = .keyword .elseWord then
      skip
      let t ← peek
      if t.kind = .keyword .ifWord then
        skip
        return some (.elseIf (← conditional d t.location))
      else return some (.block (← block d))
    else return none

/-- Statements in braces, or one bare statement. -/
def block : Nat → Rule (Block Node)
  | 0 => exhausted
  | d + 1 => do
    let t ← peek
    if ← accept .leftBrace then
      let body ← statements d true
      expect .rightBrace .closeBlock
      return ⟨body, t.location⟩
    else return ⟨[← statement d], t.location⟩

/-- Statements up to the end of the input, and in braces at most up to the closing one. -/
def statements : Nat → Bool → Rule (List Node)
  | 0, _ => exhausted
  | d + 1, braced => do
    let t ← peek
    if t.kind = .endOfInput ∨ (braced ∧ t.kind = .symbol .rightBrace) then return []
    else
      let s ← statement d
      return s :: (← statements d braced)

end

def program (d : Nat) : Rule Program := do
  let t ← peek
  return ⟨← statements d false, t.location⟩

end Statements

/-- Fewer rules than this are open inside each other between two tokens that are passed. -/
def rank : Nat := 20

/-- A depth that no list of `n` tokens exhausts. -/
def depthFor (n : Nat) : Nat := rank * (n + 1)

end Grammar

end MatrixLang
