import MatrixLang.Proofs.Syntax.Reading

/-! # Scripts of the grammar rules

A script tells step by step what a rule does with the tokens, and names the rules that it calls.
Each rule does what its script says, with the rules that it calls run one level deeper.
-/

namespace MatrixLang

/-- What the rules of the grammar read, by the type of what they give. -/
inductive Nonterminal : Type → Type 1 where
  | chain (l : Level) : Nonterminal Node
  | operand (l : Level) : Nonterminal Node
  | chainRest (l : Level) (left : Node) : Nonterminal Node
  | negation : Nonterminal Node
  | transposes (e : Node) : Nonterminal Node
  | primary : Nonterminal Node
  | reference : Nonterminal (Reference Node)
  | expressions : Nonterminal (List Node)
  | matrixRows : Nonterminal (List (List Node))
  | values : Nonterminal (List Node)
  | payload (i : Instruction) : Nonterminal (List Node)
  | condition (word : Keyword) : Nonterminal Node
  | bounds : Nonterminal (Bounds Node)
  | expressionStatement : Nonterminal Node
  | assignmentOrExpression : Nonterminal Node
  | statement : Nonterminal Node
  | conditional (l : Location) : Nonterminal Node
  | alternative : Nonterminal (Option (Alternative Node))
  | block : Nonterminal (Block Node)
  | statements (braced : Bool) : Nonterminal (List Node)
  | program : Nonterminal Program

namespace Nonterminal

def rule {α : Type} (d : Nat) : Nonterminal α → Rule α
  | chain l => Grammar.chain d l
  | operand l => Grammar.operand d l
  | chainRest l left => Grammar.chainRest d l left
  | negation => Grammar.negation d
  | transposes e => Grammar.transposes e
  | primary => Grammar.primary d
  | reference => Grammar.reference d
  | expressions => Grammar.expressions d
  | matrixRows => Grammar.matrixRows d
  | values => Grammar.values d
  | payload i => Grammar.payload d i
  | condition word => Grammar.condition d word
  | bounds => Grammar.bounds d
  | expressionStatement => Grammar.expressionStatement d
  | assignmentOrExpression => Grammar.assignmentOrExpression d
  | statement => Grammar.statement d
  | conditional l => Grammar.conditional d l
  | alternative => Grammar.alternative d
  | block => Grammar.block d
  | statements braced => Grammar.statements d braced
  | program => Grammar.program d

/-- What the rule takes off the depth that it is given. -/
def cost {α : Type} : Nonterminal α → Nat
  | transposes _ | payload _ | condition _ | bounds | expressionStatement
  | assignmentOrExpression | program => 0
  | _ => 1

end Nonterminal

/-- The steps of a rule, each with what it goes on with. -/
inductive Script (α : Type) : Type 1 where
  | done (a : α)
  | stop (e : Expectation)
  | look (next : Token → Script α)
  | lookPast (next : Bool → Script α)
  | pass (next : Script α)
  | restart (next : Script α)
  | call {β : Type} (m : Nonterminal β) (next : β → Script α)

namespace Script

def bind {α β : Type} : Script α → (α → Script β) → Script β
  | done a, f => f a
  | stop e, _ => stop e
  | look next, f => look fun t => (next t).bind f
  | lookPast next, f => lookPast fun b => (next b).bind f
  | pass next, f => pass (next.bind f)
  | restart next, f => restart (next.bind f)
  | call m next, f => call m fun a => (next a).bind f

instance : Monad Script where
  pure := done
  bind := bind

section Steps

def peek : Script Token := look done

def skip : Script Unit := pass (done ())

def read {α : Type} (m : Nonterminal α) : Script α := call m done

def accept (s : Symbol) : Script Bool := do
  let t ← peek
  if t.kind = .symbol s then
    skip
    return true
  else
    return false

def expect (s : Symbol) (e : Expectation) : Script Unit := do
  let t ← peek
  if t.kind = .symbol s then skip else stop e

def continuingComma : Script Bool :=
  lookPast fun b => if b then pass (done true) else done false

def terminator (after : Terminated) : Script Unit := do
  if ← accept .semicolon then return ()
  expect .comma (.terminator after)

def expression : Script Node := read (.chain .equality)

end Steps

section Rules

def chain (l : Level) : Script Node := do
  let left ← read (.operand l)
  read (.chainRest l left)

def operand (l : Level) : Script Node :=
  match l.tighter? with
  | some l => read (.chain l)
  | none => read .negation

def chainRest (l : Level) (left : Node) : Script Node := do
  let t ← peek
  match l.connective? t.kind with
  | some c =>
    skip
    let right ← read (.operand l)
    read (.chainRest l (c.join left right t.location))
  | none => return left

def negation : Script Node := do
  let t ← peek
  if t.kind = .symbol (.binary (.plain .sub)) then
    skip
    let operand ← read .negation
    return .unary .negate operand t.location
  else
    let e ← read .primary
    read (.transposes e)

def transposes (e : Node) : Script Node := do
  let t ← peek
  if t.kind = .symbol .transpose then
    skip
    read (.transposes (.unary .transpose e t.location))
  else return e

def primary : Script Node := do
  let t ← peek
  match t.kind with
  | .integer value =>
    skip
    return .integer value t.location
  | .float value =>
    skip
    return .float value t.location
  | .string text =>
    skip
    return .string text t.location
  | .name _ => return .reference (← read .reference)
  | .keyword (.builtin b) =>
    skip
    expect .leftParen (.openParen (.builtin b))
    let arguments ← read .expressions
    expect .rightParen (.closeDimensions b)
    return .builtin b arguments t.location
  | .symbol .leftBracket =>
    skip
    let rows ← read .matrixRows
    expect .rightBracket .closeRows
    return .matrix rows t.location
  | .symbol .leftParen =>
    skip
    let e ← expression
    expect .rightParen .closeExpression
    return e
  | _ => stop .expression

def reference : Script (Reference Node) := do
  let t ← peek
  match t.kind with
  | .name name =>
    skip
    if ← accept .leftBracket then
      let indices ← read .expressions
      expect .rightBracket .closeIndices
      return ⟨name, indices, t.location⟩
    else return ⟨name, [], t.location⟩
  | _ => stop .expression

def expressions : Script (List Node) := do
  let e ← expression
  if ← accept .comma then return e :: (← read .expressions)
  else return [e]

def matrixRows : Script (List (List Node)) := do
  let row ← read .expressions
  if ← accept .semicolon then
    let t ← peek
    if t.kind = .symbol .rightBracket then return [row]
    else return row :: (← read .matrixRows)
  else return [row]

def values : Script (List Node) := do
  let e ← expression
  if ← continuingComma then return e :: (← read .values)
  else return [e]

def payload : Instruction → Script (List Node)
  | .breakLoop | .continueLoop => return []
  | .returnValues => do
    let t ← peek
    if t.kind.startsExpression then read .values else return []
  | .printValues => read .values

def condition (word : Keyword) : Script Node := do
  expect .leftParen (.openParen word)
  let e ← expression
  expect .rightParen (.closeCondition word)
  return e

def bounds : Script (Bounds Node) := do
  let lower ← expression
  let t ← peek
  expect .colon .rangeColon
  let upper ← expression
  return ⟨lower, upper, t.location⟩

def expressionStatement : Script Node := do
  let t ← peek
  let e ← expression
  terminator .expression
  return .expression e t.location

def assignmentOrExpression : Script Node := do
  let target ← read .reference
  let t ← peek
  match t.kind with
  | .symbol (.assign op) =>
    skip
    let value ← expression
    terminator .assignment
    return .assignment target op value t.location
  | _ => restart (read .expressionStatement)

def statement : Script Node := do
  let t ← peek
  match t.kind with
  | .keyword .ifWord =>
    skip
    read (.conditional t.location)
  | .keyword .whileWord =>
    skip
    let e ← read (.condition .whileWord)
    let body ← read .block
    return .whileLoop e body t.location
  | .keyword .forWord =>
    skip
    let v ← peek
    match v.kind with
    | .name name =>
      skip
      expect (.assign .plain) .loopAssignment
      let b ← read .bounds
      let body ← read .block
      return .forLoop ⟨name, [], v.location⟩ b body t.location
    | _ => stop .loopVariable
  | .keyword (.instruction i) =>
    skip
    let vs ← read (.payload i)
    terminator (.instruction i)
    return .instruction i vs t.location
  | .name _ => read .assignmentOrExpression
  | _ => read .expressionStatement

def conditional (l : Location) : Script Node := do
  let e ← read (.condition .ifWord)
  let consequent ← read .block
  return .conditional e consequent (← read .alternative) l

def alternative : Script (Option (Alternative Node)) := do
  let t ← peek
  if t.kind = .keyword .elseWord then
    skip
    let t ← peek
    if t.kind = .keyword .ifWord then
      skip
      return some (.elseIf (← read (.conditional t.location)))
    else return some (.block (← read .block))
  else return none

def block : Script (Block Node) := do
  let t ← peek
  if ← accept .leftBrace then
    let body ← read (.statements true)
    expect .rightBrace .closeBlock
    return ⟨body, t.location⟩
  else return ⟨[← read .statement], t.location⟩

def statements (braced : Bool) : Script (List Node) := do
  let t ← peek
  if t.kind = .endOfInput ∨ (braced ∧ t.kind = .symbol .rightBrace) then return []
  else
    let s ← read .statement
    return s :: (← read (.statements braced))

def program : Script Program := do
  let t ← peek
  return ⟨← read (.statements false), t.location⟩

end Rules

/-- A comma is in front and an expression follows it. -/
def CommaContinues (ts : List Token) : Prop :=
  (Token.head ts).kind = .symbol .comma ∧ (Token.head (ts.drop 1)).kind.startsExpression = true

instance (ts : List Token) : Decidable (CommaContinues ts) := instDecidableAnd

/-- Runs a script of a rule that began with the tokens `start`, with `f` for the rules it calls. -/
def run {α : Type} (f : {β : Type} → Nonterminal β → Rule β) (start : List Token) :
    Script α → Rule α
  | done a, ts => .ok a ts
  | stop e, ts => .error e ts
  | look next, ts => (next (Token.head ts)).run f start ts
  | lookPast next, ts => (next (decide (CommaContinues ts))).run f start ts
  | pass next, ts => next.run f start (ts.drop 1)
  | restart next, _ => next.run f start start
  | call m next, ts => (f m ts).andThen fun a rest => (next a).run f start rest

end Script

namespace Script

variable {α β : Type} {f : {γ : Type} → Nonterminal γ → Rule γ} {start : List Token}

theorem run_bind (p : Script α) (g : α → Script β) :
    (p >>= g).run f start = p.run f start >>= fun a => (g a).run f start := by
  funext ts
  show (p.bind g).run f start ts = (p.run f start ts).andThen fun a => (g a).run f start
  induction p generalizing ts with
  | done a => rfl
  | stop e => rfl
  | look next ih => exact ih _ ts
  | lookPast next ih => exact ih _ ts
  | pass next ih => exact ih _
  | restart next ih => exact ih _
  | call m next ih =>
    simp only [Script.bind, run]
    cases f m ts with
    | ok a rest => exact ih a rest
    | error e rest => rfl
    | exhausted => rfl

theorem run_bind_congr {p : Script α} {g : α → Script β} {r : Rule α} {h : α → Rule β}
    (hp : p.run f start = r) (hg : ∀ a, (g a).run f start = h a) :
    (p >>= g).run f start = r >>= h := by
  rw [run_bind, hp, funext hg]

theorem run_pure (a : α) : (pure a : Script α).run f start = pure a := rfl

theorem run_stop (e : Expectation) : (stop e : Script α).run f start = Rule.fail e := rfl

theorem run_peek : peek.run f start = Rule.peek := rfl

theorem run_skip : skip.run f start = Rule.skip := rfl

theorem run_restart (p : Script α) (ts : List Token) :
    (restart p).run f start ts = p.run f start start := rfl

theorem run_read (m : Nonterminal α) : (read m).run f start = f m := by
  funext ts
  simp only [read, run]
  cases f m ts <;> rfl

theorem run_ite (c : Prop) [Decidable c] (p q : Script α) :
    (if c then p else q).run f start = if c then p.run f start else q.run f start := by
  split <;> rfl

theorem run_accept (s : Symbol) : (accept s).run f start = Rule.accept s := by
  simp only [accept, Rule.accept, run_bind, run_ite, run_peek, run_skip, run_pure]

theorem run_expect (s : Symbol) (e : Expectation) :
    (expect s e).run f start = Rule.expect s e := by
  simp only [expect, Rule.expect, run_bind, run_ite, run_peek, run_skip, run_stop]

theorem run_terminator (after : Terminated) :
    (terminator after).run f start = Grammar.terminator after := by
  simp only [terminator, Grammar.terminator, run_bind, run_ite, run_accept, run_expect, run_pure]

theorem run_continuingComma : continuingComma.run f start = Grammar.continuingComma := by
  funext ts
  by_cases h : CommaContinues ts
  · have hc : Grammar.continuingComma ts = .ok true (ts.drop 1) := if_pos h
    simp [continuingComma, run, h, hc]
  · have hc : Grammar.continuingComma ts = .ok false ts := if_neg h
    simp [continuingComma, run, h, hc]

section Equations

open Nonterminal (rule)

variable (d : Nat)

theorem run_chain (l : Level) : (chain l).run (rule d) start = Grammar.chain (d + 1) l :=
  run_bind_congr (run_read _) fun _ => run_read _

theorem run_operand (l : Level) :
    (operand l).run (rule d) start = Grammar.operand (d + 1) l := by
  rw [operand, Grammar.operand]
  cases l.tighter? <;> exact run_read _

theorem run_chainRest (l : Level) (left : Node) :
    (chainRest l left).run (rule d) start = Grammar.chainRest (d + 1) l left := by
  refine run_bind_congr run_peek fun t => ?_
  cases l.connective? t.kind with
  | some c => exact run_bind_congr run_skip fun _ => run_bind_congr (run_read _) fun _ => run_read _
  | none => rfl

theorem run_negation : negation.run (rule d) start = Grammar.negation (d + 1) := by
  simp only [negation, run_bind, run_ite, run_peek, run_skip, run_read, run_pure]
  rfl

theorem run_transposes (e : Node) :
    (transposes e).run (rule d) start = Grammar.transposes e := by
  simp only [transposes, run_bind, run_ite, run_peek, run_skip, run_read, run_pure]
  funext ts
  cases ts with
  | nil => rfl
  | cons t ts =>
    rw [Rule.peek_bind, Token.head_cons, Grammar.transposes]
    by_cases h : t.kind = .symbol .transpose
    · rw [if_pos h, if_pos h]
      rfl
    · rw [if_neg h, if_neg h]
      rfl

theorem run_primary : primary.run (rule d) start = Grammar.primary (d + 1) := by
  refine run_bind_congr run_peek fun ⟨k, l⟩ => ?_
  dsimp only
  split <;>
    simp only [expression, run_bind, run_skip, run_read, run_pure, run_expect, run_stop] <;> rfl

theorem run_reference : reference.run (rule d) start = Grammar.reference (d + 1) := by
  refine run_bind_congr run_peek fun ⟨k, l⟩ => ?_
  dsimp only
  split
  · simp only [run_bind, run_ite, run_skip, run_read, run_pure, run_accept, run_expect]
    rfl
  · simp only [run_stop]

theorem run_expressions : expressions.run (rule d) start = Grammar.expressions (d + 1) := by
  simp only [expressions, expression, run_bind, run_ite, run_read, run_pure, run_accept]
  rfl

theorem run_matrixRows : matrixRows.run (rule d) start = Grammar.matrixRows (d + 1) := by
  simp only [matrixRows, run_bind, run_ite, run_peek, run_read, run_pure, run_accept]
  rfl

theorem run_values : values.run (rule d) start = Grammar.values (d + 1) := by
  simp only [values, expression, run_bind, run_ite, run_read, run_pure, run_continuingComma]
  rfl

theorem run_payload (i : Instruction) :
    (payload i).run (rule d) start = Grammar.payload d i := by
  cases i with
  | returnValues =>
    simp only [payload, run_bind, run_ite, run_peek, run_read, run_pure]
    rfl
  | printValues => exact run_read _
  | breakLoop | continueLoop => rfl

theorem run_condition (w : Keyword) :
    (condition w).run (rule d) start = Grammar.condition d w := by
  simp only [condition, expression, run_bind, run_read, run_pure, run_expect]
  rfl

theorem run_bounds : bounds.run (rule d) start = Grammar.bounds d := by
  simp only [bounds, expression, run_bind, run_peek, run_read, run_pure, run_expect]
  rfl

theorem run_expressionStatement :
    expressionStatement.run (rule d) start = Grammar.expressionStatement d := by
  simp only [expressionStatement, expression, run_bind, run_peek, run_read, run_pure,
    run_terminator]
  rfl

/-- What does not start an assignment is read again from where it began. -/
theorem run_assignmentOrExpression (ts : List Token) :
    assignmentOrExpression.run (rule d) ts ts = Grammar.assignmentOrExpression d ts := by
  rw [Grammar.assignmentOrExpression, Rule.remaining_bind]
  refine congrFun (run_bind_congr (run_read _) fun r =>
    run_bind_congr run_peek fun ⟨k, l⟩ => ?_) ts
  dsimp only
  split
  · simp only [expression, run_bind, run_skip, run_read, run_pure, run_terminator]
    rfl
  · funext us
    simp only [run_restart, run_read]
    rfl

theorem run_statement : statement.run (rule d) start = Grammar.statement (d + 1) := by
  refine run_bind_congr run_peek fun ⟨k, l⟩ => ?_
  dsimp only
  split
  case h_3 =>
    refine run_bind_congr run_skip fun _ => run_bind_congr run_peek fun ⟨k', l'⟩ => ?_
    dsimp only
    split <;> simp only [run_bind, run_read, run_skip, run_expect, run_stop, run_pure]
    rfl
  all_goals
    simp only [run_bind, run_skip, run_read, run_pure, run_terminator]
    rfl

theorem run_conditional (l : Location) :
    (conditional l).run (rule d) start = Grammar.conditional (d + 1) l := by
  simp only [conditional, run_bind, run_read, run_pure]
  rfl

theorem run_alternative : alternative.run (rule d) start = Grammar.alternative (d + 1) := by
  simp only [alternative, run_bind, run_ite, run_peek, run_skip, run_read, run_pure]
  rfl

theorem run_block : block.run (rule d) start = Grammar.block (d + 1) := by
  simp only [block, run_bind, run_ite, run_peek, run_read, run_pure, run_accept, run_expect]
  rfl

theorem run_statements (braced : Bool) :
    (statements braced).run (rule d) start = Grammar.statements (d + 1) braced := by
  simp only [statements, run_bind, run_ite, run_peek, run_read, run_pure]
  rfl

theorem run_program : program.run (rule d) start = Grammar.program d := by
  simp only [program, run_bind, run_peek, run_read, run_pure]
  rfl

end Equations

end Script

/-- What the rule does, step by step. -/
def Nonterminal.script {α : Type} : Nonterminal α → Script α
  | chain l => Script.chain l
  | operand l => Script.operand l
  | chainRest l left => Script.chainRest l left
  | negation => Script.negation
  | transposes e => Script.transposes e
  | primary => Script.primary
  | reference => Script.reference
  | expressions => Script.expressions
  | matrixRows => Script.matrixRows
  | values => Script.values
  | payload i => Script.payload i
  | condition word => Script.condition word
  | bounds => Script.bounds
  | expressionStatement => Script.expressionStatement
  | assignmentOrExpression => Script.assignmentOrExpression
  | statement => Script.statement
  | conditional l => Script.conditional l
  | alternative => Script.alternative
  | block => Script.block
  | statements braced => Script.statements braced
  | program => Script.program

open Script in
/-- Every rule does what its script says. -/
theorem Nonterminal.rule_eq {α : Type} (d : Nat) (m : Nonterminal α) (ts : List Token) :
    m.rule (d + m.cost) ts = m.script.run (rule d) ts ts := by
  cases m with
  | chain l => exact (congrFun (run_chain d l) ts).symm
  | operand l => exact (congrFun (run_operand d l) ts).symm
  | chainRest l left => exact (congrFun (run_chainRest d l left) ts).symm
  | negation => exact (congrFun (run_negation d) ts).symm
  | transposes e => exact (congrFun (run_transposes d e) ts).symm
  | primary => exact (congrFun (run_primary d) ts).symm
  | reference => exact (congrFun (run_reference d) ts).symm
  | expressions => exact (congrFun (run_expressions d) ts).symm
  | matrixRows => exact (congrFun (run_matrixRows d) ts).symm
  | values => exact (congrFun (run_values d) ts).symm
  | payload i => exact (congrFun (run_payload d i) ts).symm
  | condition w => exact (congrFun (run_condition d w) ts).symm
  | bounds => exact (congrFun (run_bounds d) ts).symm
  | expressionStatement => exact (congrFun (run_expressionStatement d) ts).symm
  | assignmentOrExpression => exact (run_assignmentOrExpression d ts).symm
  | statement => exact (congrFun (run_statement d) ts).symm
  | conditional l => exact (congrFun (run_conditional d l) ts).symm
  | alternative => exact (congrFun (run_alternative d) ts).symm
  | block => exact (congrFun (run_block d) ts).symm
  | statements braced => exact (congrFun (run_statements d braced) ts).symm
  | program => exact (congrFun (run_program d) ts).symm

end MatrixLang
