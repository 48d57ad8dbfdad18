import MatrixLang.Proofs.Checking.Point

/-! # The procedures of a check

A check has a procedure for statements, one for expressions and others for their parts. Given a node
of the other kind, the first two call each other on it. A plan tells step by step what a procedure
does and names the procedures that it calls, and checking a tree does what the plans say.
-/

namespace MatrixLang

/-- The procedures of a check, each with what it is given, by the type of what they give. -/
inductive Procedure : Type → Type 1 where
  | statements (nodes : List Node) : Procedure Unit
  | statement (node : Node) : Procedure Unit
  | expression (node : Node) : Procedure (Option Ty)
  | reference (r : Reference Node) : Procedure (Option Ty)
  | indices (nodes : List Node) : Procedure Unit
  | matrix (rows : List (List Node)) (l : Location) : Procedure (Option Ty)
  | matrixRows (line : Nat) (rows : List (List Node)) : Procedure Unit
  | elements (line : Nat) (reported : Bool) (nodes : List Node) : Procedure Unit
  | builtin (b : Builtin) (nodes : List Node) (l : Location) : Procedure (Option Ty)
  | arguments (nodes : List Node) : Procedure Bool
  | rejection (l : Location) : Procedure (Option Ty)
  | payload (nodes : List Node) : Procedure Bool

/-- The steps of a procedure, each with what it goes on with: checks that look into no node, and
calls of procedures. -/
inductive Plan (α : Type) : Type 1 where
  | done (a : α)
  | act {β : Type} (c : Check Scopes β) (next : β → Plan α)
  | call {β : Type} (m : Procedure β) (next : β → Plan α)

/-- The node is of a kind that stands among statements. -/
def Node.isCommand : Node → Bool
  | .assignment .. | .instruction .. | .conditional .. | .whileLoop .. | .forLoop ..
  | .expression .. => true
  | _ => false

namespace Plan

open Check Node

def bind {α β : Type} : Plan α → (α → Plan β) → Plan β
  | done a, f => f a
  | act c next, f => act c fun a => (next a).bind f
  | call m next, f => call m fun a => (next a).bind f

instance : Monad Plan where
  pure := done
  bind := bind

section Steps

variable {α : Type}

def step (c : Check Scopes α) : Plan α := act c done

def perform (m : Procedure α) : Plan α := call m done

def condition (n : Node) : Plan Unit := do
  let type? ← perform (.expression n)
  step (requireBoolean n.line type?)

def bounds (b : Bounds Node) : Plan Unit := do
  let lower ← perform (.expression b.lower)
  let upper ← perform (.expression b.upper)
  step (if lower ≠ some .int ∨ upper ≠ some .int then report b.location.line .invalidRange
    else pure ())

def block (b : Block Node) : Plan Unit := do
  step fun s => ((), s.entered)
  perform (.statements b.statements)
  step fun s => ((), { s with environment := Environment.leave s.environment })

def body (b : Block Node) : Plan Unit := do
  step fun s => ((), s.looping)
  block b
  step fun s => ((), { s with loopDepth := s.loopDepth - 1 })

def alternative : Option (Alternative Node) → Plan Unit
  | none => return ()
  | some (.elseIf n) => perform (.statement n)
  | some (.block b) => block b

def assigned (r : Reference Node) (line : Nat) (op : AssignOperator) (type? : Option Ty) :
    Plan Unit := do
  if r.indices.isEmpty then step (Check.assigned line r.name op type?)
  else
    let _ ← perform (.reference r)
    step (if type?.isNone then report line .unknownAssignedValue else pure ())

end Steps

section Plans

def statements : List Node → Plan Unit
  | [] => return ()
  | n :: ns => do
    perform (.statement n)
    perform (.statements ns)

def statement : Node → Plan Unit
  | .assignment target op value l => do
    let type? ← perform (.expression value)
    assigned target l.line op type?
  | .instruction i values l => do
    step (checkJump l.line i)
    if ← perform (.payload values) then return ()
    step (report l.line (.unknownPayload i))
  | .conditional e consequent a _ => do
    condition e
    block consequent
    alternative a
  | .whileLoop e b _ => do
    condition e
    body b
  | .forLoop counter range b _ => do
    bounds range
    step (bindName counter.name (some .int))
    body b
  | .expression e _ => do
    let _ ← perform (.expression e)
    return ()
  | n => do
    let _ ← perform (.expression n)
    return ()

def expression : Node → Plan (Option Ty)
  | .integer _ _ => return some .int
  | .float _ _ => return some .float
  | .string _ _ => return some .string
  | .reference r => perform (.reference r)
  | .matrix rows l => perform (.matrix rows l)
  | .builtin b es l => perform (.builtin b es l)
  | .binary op left right l => do
    let left ← perform (.expression left)
    let right ← perform (.expression right)
    step (combined l.line op left right)
  | .comparison _ left right _ => do
    let _ ← perform (.expression left)
    let _ ← perform (.expression right)
    return some .boolean
  | .unary .transpose operand l => do step (transposed l.line (← perform (.expression operand)))
  | .unary .negate operand l => do step (negated l.line (← perform (.expression operand)))
  | n => do
    perform (.statement n)
    return none

def reference (r : Reference Node) : Plan (Option Ty) := do
  perform (.indices r.indices)
  step (variableType r.location.line r.name)

def indices : List Node → Plan Unit
  | [] => return ()
  | n :: ns => do
    let type? ← perform (.expression n)
    step (requireIndex n.line type?)
    perform (.indices ns)

def matrix (rows : List (List Node)) (l : Location) : Plan (Option Ty) := do
  step (checkRagged l.line rows)
  perform (.matrixRows l.line rows)
  return some (.matrix (.ofSize rows.length (rows.headD []).length))

def matrixRows (line : Nat) : List (List Node) → Plan Unit
  | [] => return ()
  | row :: rows => do
    perform (.elements line false row)
    perform (.matrixRows line rows)

def elements (line : Nat) (reported : Bool) : List Node → Plan Unit
  | [] => return ()
  | n :: ns => do
    let type? ← perform (.expression n)
    if type?.any (·.isNumeric) then perform (.elements line reported ns)
    else
      if !reported then step (report line .matrixElement)
      perform (.elements line true ns)

def builtin (es : List Node) (l : Location) : Plan (Option Ty) := do
  if ← perform (.arguments es) then
    match es.mapM extent? with
    | some extents => return (Shape.ofExtents? extents).map .matrix
    | none => perform (.rejection l)
  else
    step (report l.line .invalidDimension)
    return none

def arguments : List Node → Plan Bool
  | [] => return true
  | n :: ns => do
    let type? ← perform (.expression n)
    let others ← perform (.arguments ns)
    return type? = some .int && others

/-- The dimensions of a builtin of which one is negative. -/
def rejection (l : Location) : Plan (Option Ty) := do
  step (report l.line .invalidDimension)
  return none

def payload : List Node → Plan Bool
  | [] => return true
  | n :: ns => do
    let type? ← perform (.expression n)
    if type?.isNone then return false
    perform (.payload ns)

end Plans

end Plan

namespace Procedure

open Check

/-- What the procedure does, step by step. -/
def plan {α : Type} : Procedure α → Plan α
  | statements ns => Plan.statements ns
  | statement n => Plan.statement n
  | expression n => Plan.expression n
  | reference r => Plan.reference r
  | indices ns => Plan.indices ns
  | matrix rows l => Plan.matrix rows l
  | matrixRows line rows => Plan.matrixRows line rows
  | elements line reported ns => Plan.elements line reported ns
  | builtin _ es l => Plan.builtin es l
  | arguments es => Plan.arguments es
  | rejection l => Plan.rejection l
  | payload es => Plan.payload es

/-- The check that the procedure is a part of. -/
def check {α : Type} : Procedure α → Check Scopes α
  | statements ns => Node.checkStatements ns
  | statement n => do
    let _ ← n.check
    return ()
  | expression n => n.check
  | reference r => Node.checkReference r
  | indices ns => Node.checkIndices ns
  | matrix rows l => (Node.matrix rows l).check
  | matrixRows line rows => Node.checkRows line rows
  | elements line reported ns => Node.checkElements line reported ns
  | builtin b es l => (Node.builtin b es l).check
  | arguments es => Node.checkArguments es
  | rejection l => do
    report l.line .invalidDimension
    return none
  | payload es => Node.checkPayload es

end Procedure

namespace Plan

open Check Node

/-- Does the steps of a plan. -/
def run {α : Type} : Plan α → Check Scopes α
  | done a => pure a
  | act c next => do (next (← c)).run
  | call m next => do (next (← m.check)).run

section Equations

variable {α β : Type}

theorem run_bind (p : Plan α) (g : α → Plan β) :
    (p >>= g).run = p.run >>= fun a => (g a).run := by
  show (p.bind g).run = _
  induction p with
  | done a => rfl
  | act c next ih =>
    funext s
    exact congrFun (ih (c s).1) (c s).2
  | call m next ih =>
    funext s
    exact congrFun (ih (m.check s).1) (m.check s).2

theorem run_step (c : Check Scopes α) : (step c).run = c := rfl

theorem run_perform (m : Procedure α) : (perform m).run = m.check := rfl

theorem run_ite (p : Prop) [Decidable p] (q q' : Plan α) :
    (if p then q else q').run = if p then q.run else q'.run := by
  split <;> rfl

theorem run_condition (n : Node) : (condition n).run = checkCondition n := rfl

theorem run_bounds (b : Bounds Node) : (bounds b).run = checkBounds b := by
  rw [checkBounds]
  rfl

theorem run_block (b : Block Node) : (block b).run = inBlock (checkBlock b) := by
  rw [checkBlock]
  rfl

theorem run_body (b : Block Node) : (body b).run = inBody (inBlock (checkBlock b)) := by
  rw [← run_block]
  rfl

theorem run_alternative (a : Option (Alternative Node)) :
    (alternative a).run = checkAlternative a := by
  rcases a with - | n | b
  · rw [checkAlternative]
    rfl
  · rw [checkAlternative]
    rfl
  · rw [checkAlternative]
    exact run_block b

theorem run_assigned (r : Reference Node) (line : Nat) (op : AssignOperator) (t : Option Ty) :
    (assigned r line op t).run = checkAssigned line op t r := by
  obtain ⟨x, indices, lx⟩ := r
  cases indices with
  | nil =>
    rw [checkAssigned]
    rfl
  | cons i indices =>
    rw [checkAssigned_of_ne_nil (by simp)]
    rfl

theorem run_statements (ns : List Node) : (statements ns).run = checkStatements ns := by
  cases ns <;> rw [checkStatements] <;> rfl

theorem run_statement (n : Node) :
    (statement n).run = (n.check >>= fun _ => pure () : Check Scopes Unit) := by
  cases n with
  | assignment r op e l =>
    simp only [statement, run_bind, run_perform, run_assigned, check]
    rfl
  | instruction i es l =>
    funext s
    refine Prod.ext rfl ?_
    show _ = (check (.instruction i es l) s).2
    rw [check_instruction_snd]
    simp only [statement, run_bind, run_ite]
    rfl
  | conditional e b a l =>
    simp only [statement, run_bind, run_condition, run_block, run_alternative, check]
    rfl
  | whileLoop e b l =>
    simp only [statement, run_bind, run_condition, run_body, check]
    rfl
  | forLoop counter range b l =>
    simp only [statement, run_bind, run_bounds, run_step, run_body, check]
    rfl
  | expression e l =>
    rw [check]
    rfl
  | _ => rfl

theorem check_command_fst {n : Node} (hn : n.isCommand = true) (s : Checker Scopes) :
    (n.check s).1 = none := by
  cases n with
  | assignment | conditional | whileLoop | forLoop | expression =>
    rw [check]
    rfl
  | instruction i es l =>
    rw [check, bind_apply inLoop]
    have hlast (s' : Checker Scopes) : ((checkPayload es >>= fun all =>
          if all then pure none else report l.line (.unknownPayload i) >>= fun _ => pure none :
        Check Scopes (Option Ty)) s').1 = none := by
      rw [bind_apply]
      split <;> rfl
    split
    · exact hlast _
    · exact hlast _
  | _ => cases hn

theorem run_command {n : Node} (hn : n.isCommand = true) :
    (perform (.statement n) >>= fun _ => pure none : Plan (Option Ty)).run = n.check := by
  funext s
  exact Prod.ext (check_command_fst hn s).symm rfl

theorem run_expression (n : Node) : (expression n).run = n.check := by
  cases n with
  | integer | float | string | reference | binary | comparison =>
    rw [check]
    rfl
  | matrix | builtin => rfl
  | unary op e l =>
    cases op <;> rw [check] <;> rfl
  | _ => exact run_command rfl

theorem run_reference (r : Reference Node) : (reference r).run = checkReference r := by
  rw [checkReference]
  rfl

theorem run_indices (ns : List Node) : (indices ns).run = checkIndices ns := by
  cases ns <;> rw [checkIndices] <;> rfl

theorem run_matrix (rows : List (List Node)) (l : Location) :
    (matrix rows l).run = (Node.matrix rows l).check := by
  rw [check, matrix, run_bind, run_step, checkRagged]
  split <;> rfl

theorem run_matrixRows (line : Nat) (rows : List (List Node)) :
    (matrixRows line rows).run = checkRows line rows := by
  cases rows <;> rw [checkRows] <;> rfl

theorem run_elements (line : Nat) (reported : Bool) (ns : List Node) :
    (elements line reported ns).run = checkElements line reported ns := by
  cases ns with
  | nil =>
    rw [checkElements]
    rfl
  | cons n ns =>
    rw [checkElements]
    simp only [elements, run_bind, run_ite]
    rfl

theorem run_builtin (b : Builtin) (es : List Node) (l : Location) :
    (builtin es l).run = (Node.builtin b es l).check := by
  rw [check]
  simp only [builtin, run_bind, run_ite]
  cases es.mapM extent? <;> rfl

theorem run_arguments (ns : List Node) : (arguments ns).run = checkArguments ns := by
  cases ns <;> rw [checkArguments] <;> rfl

theorem run_payload (ns : List Node) : (payload ns).run = checkPayload ns := by
  cases ns with
  | nil =>
    rw [checkPayload]
    rfl
  | cons n ns =>
    rw [checkPayload]
    simp only [payload, run_bind, run_ite]
    rfl

end Equations

end Plan

open Plan in
/-- Every procedure does what its plan says. -/
theorem Procedure.check_eq {α : Type} (m : Procedure α) : m.check = m.plan.run := by
  cases m with
  | statements ns => exact (run_statements ns).symm
  | statement n => exact (run_statement n).symm
  | expression n => exact (run_expression n).symm
  | reference r => exact (run_reference r).symm
  | indices ns => exact (run_indices ns).symm
  | matrix rows l => exact (run_matrix rows l).symm
  | matrixRows line rows => exact (run_matrixRows line rows).symm
  | elements line reported ns => exact (run_elements line reported ns).symm
  | builtin b es l => exact (run_builtin b es l).symm
  | arguments es => exact (run_arguments es).symm
  | rejection l => rfl
  | payload es => exact (run_payload es).symm

end MatrixLang
