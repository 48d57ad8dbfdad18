import MatrixLang.Analysis
import MatrixLang.Proofs.Checking.Quiet
import MatrixLang.Proofs.Scope.Visit

/-! # The points of a check

A check of a statement comes to its expressions one behind the other, and a check of an expression
to its operands. Each of them is checked in a state of its own, and whatever has been reported by
then stands in front of what the whole check reports.
-/

namespace MatrixLang

section States

variable {ε : Type}

open Check

def Node.checkRagged (line : Nat) (rows : List (List Node)) : Check ε Unit :=
  if isRagged rows then report line .raggedMatrix else pure ()

def Node.checkJump (line : Nat) (i : Instruction) : Check ε Unit := do
  if i.needsLoop && !(← inLoop) then report line (.outsideLoop i)

instance (line : Nat) (rows : List (List Node)) :
    Grows (Node.checkRagged line rows : Check ε Unit) :=
  inferInstanceAs (Grows (ite _ _ _))

instance (line : Nat) (i : Instruction) : Grows (Node.checkJump line i : Check ε Unit) :=
  inferInstanceAs (Grows (inLoop >>= fun _ => ite _ _ _))

variable [Environment ε]

instance (n : Node) : Grows (Node.checkCondition n : Check ε Unit) :=
  inferInstanceAs (Grows (Node.check n >>= fun _ => requireBoolean _ _))

instance (counter : Reference Node) (bounds : Bounds Node) :
    Grows (Node.checkCounter counter bounds : Check ε Unit) :=
  inferInstanceAs (Grows (Node.checkBounds bounds >>= fun _ => bindName _ _))

end States

namespace Node

open Check

/-- `Evaluates n s e c`: checking the node `n` from the state `s`, the check comes to the expression
`e`, a part of `n`, in the state `c`. -/
inductive Evaluates : Node → Checker Scopes → Node → Checker Scopes → Prop
  | index {x is i js l s} :
      Evaluates (.reference ⟨x, is ++ i :: js, l⟩) s i (checkIndices is s).2
  | element {rows es e es' rows' l s} :
      Evaluates (.matrix (rows ++ (es ++ e :: es') :: rows') l) s e
        (checkElements l.line false es (checkRows l.line rows
          (checkRagged l.line (rows ++ (es ++ e :: es') :: rows') s).2).2).2
  | argument {b es e es' l s} :
      Evaluates (.builtin b (es ++ e :: es') l) s e (checkArguments es s).2
  | left {op e e' l s} : Evaluates (.binary op e e' l) s e s
  | right {op e e' l s} : Evaluates (.binary op e e' l) s e' (check e s).2
  | leftCompared {o e e' l s} : Evaluates (.comparison o e e' l) s e s
  | rightCompared {o e e' l s} : Evaluates (.comparison o e e' l) s e' (check e s).2
  | operand {op e l s} : Evaluates (.unary op e l) s e s
  | value {r op e l s} : Evaluates (.assignment r op e l) s e s
  | target {r op e l s} : r.indices ≠ [] →
      Evaluates (.assignment r op e l) s (.reference r) (check e s).2
  | payload {i es e es' l s} : (checkPayload es (checkJump l.line i s).2).1 = true →
      Evaluates (.instruction i (es ++ e :: es') l) s e (checkPayload es (checkJump l.line i s).2).2
  | condition {e b a l s} : Evaluates (.conditional e b a l) s e s
  | whileCondition {e b l s} : Evaluates (.whileLoop e b l) s e s
  | lower {counter e e' lb b l s} : Evaluates (.forLoop counter ⟨e, e', lb⟩ b l) s e s
  | upper {counter e e' lb b l s} :
      Evaluates (.forLoop counter ⟨e, e', lb⟩ b l) s e' (check e s).2
  | statement {e l s} : Evaluates (.expression e l) s e s

section Equations

variable {s : Checker Scopes}

theorem check_matrix_snd (rows : List (List Node)) (l : Location) :
    (check (.matrix rows l) s).2 = (checkRows l.line rows (checkRagged l.line rows s).2).2 := by
  rw [check, checkRagged]
  split <;> rfl

theorem check_assignment_snd (r : Reference Node) (op : AssignOperator) (e : Node)
    (l : Location) :
    (check (.assignment r op e l) s).2 =
      (checkAssigned l.line op (check e s).1 r (check e s).2).2 := by
  rw [check]
  rfl

/-- The assignment to an element looks the element up first. -/
theorem checkAssigned_of_ne_nil {r : Reference Node} (h : r.indices ≠ []) (line : Nat)
    (op : AssignOperator) (t : Option Ty) :
    (checkAssigned line op t r : Check Scopes Unit) =
      (check (.reference r) >>= fun _ =>
        if t.isNone then report line .unknownAssignedValue else pure ()) := by
  obtain ⟨x, indices, lx⟩ := r
  cases indices with
  | nil => exact absurd rfl h
  | cons index indices =>
    rw [checkAssigned, check, checkReference, checkIndices]
    rfl

theorem check_builtin_snd (b : Builtin) (es : List Node) (l : Location) :
    (check (.builtin b es l) s).2 =
      ((checkArguments es >>= fun all =>
          if all && (es.mapM extent?).isSome then pure () else report l.line .invalidDimension :
        Check Scopes Unit) s).2 := by
  rw [check, bind_apply, bind_apply]
  cases (checkArguments es s).1 with
  | false => rfl
  | true => cases es.mapM extent? <;> rfl

theorem check_instruction_snd (i : Instruction) (es : List Node) (l : Location) :
    (check (.instruction i es l) s).2 =
      ((checkPayload es >>= fun all =>
          if all then pure () else report l.line (.unknownPayload i) : Check Scopes Unit)
        (checkJump l.line i s).2).2 := by
  have hlast (s' : Checker Scopes) :
      ((checkPayload es >>= fun all =>
          if all then pure none else report l.line (.unknownPayload i) >>= fun _ => pure none :
        Check Scopes (Option Ty)) s').2 =
      ((checkPayload es >>= fun all =>
          if all then pure () else report l.line (.unknownPayload i) :
        Check Scopes Unit) s').2 := by
    rw [bind_apply, bind_apply]
    split <;> rfl
  rw [← hlast, check, checkJump, bind_apply inLoop, bind_apply inLoop]
  split <;> rfl

theorem diagnostics_inBlock (b : Block Node) :
    (inBlock (checkBlock b) s).2.diagnostics =
      (checkStatements b.statements s.entered).2.diagnostics := by
  rw [checkBlock]
  rfl

end Equations

section Lists

variable {s : Checker Scopes} (line : Nat) (es es' : List Node)

theorem checkIndices_append :
    (checkIndices (es ++ es') s).2 = (checkIndices es' (checkIndices es s).2).2 := by
  induction es generalizing s with
  | nil => simp only [List.nil_append, checkIndices, pure_apply]
  | cons e es ih => simp only [List.cons_append, checkIndices, bind_apply, ih]

theorem checkArguments_append :
    (checkArguments (es ++ es') s).2 = (checkArguments es' (checkArguments es s).2).2 := by
  induction es generalizing s with
  | nil => simp only [List.nil_append, checkArguments, pure_apply]
  | cons e es ih => simp only [List.cons_append, checkArguments, bind_apply, pure_apply, ih]

theorem checkRows_append (rows rows' : List (List Node)) :
    (checkRows line (rows ++ rows') s).2 =
      (checkRows line rows' (checkRows line rows s).2).2 := by
  induction rows generalizing s with
  | nil => simp only [List.nil_append, checkRows, pure_apply]
  | cons row rows ih => simp only [List.cons_append, checkRows, bind_apply, ih]

/-- Behind some elements the others are checked as if one had been reported, or none. -/
theorem exists_checkElements_append (reported : Bool) :
    ∃ reported', (checkElements line reported (es ++ es') s).2 =
      (checkElements line reported' es' (checkElements line reported es s).2).2 := by
  induction es generalizing s reported with
  | nil => exact ⟨reported, by simp only [List.nil_append, checkElements, pure_apply]⟩
  | cons e es ih =>
    rw [List.cons_append, checkElements, checkElements, bind_apply, bind_apply]
    split
    · exact ih _
    · split
      · exact ih _
      · exact ih _

theorem checkPayload_append (h : (checkPayload es s).1 = true) :
    checkPayload (es ++ es') s = checkPayload es' (checkPayload es s).2 := by
  induction es generalizing s with
  | nil => simp only [List.nil_append, checkPayload, pure_apply]
  | cons e es ih =>
    rw [checkPayload, bind_apply] at h
    rw [List.cons_append, checkPayload, checkPayload, bind_apply, bind_apply]
    split at h
    · cases h
    next ht => rw [if_neg ht, if_neg ht, ih h]

end Lists

section Within

variable {ε α β : Type} {c : Check ε α} {f : α → Check ε β}

/-- What a check has reported stands in front of what a longer one reports. -/
theorem prefix_bind [∀ a, Grows (f a)] (s : Checker ε) :
    (c s).2.diagnostics <+: ((c >>= f) s).2.diagnostics :=
  Grows.prefix_diagnostics (c := f (c s).1) (c s).2

theorem prefix_behind {s : Checker ε} {ds : List Diagnostic} [∀ a, Grows (f a)]
    (h : ds <+: (c s).2.diagnostics) : ds <+: ((c >>= f) s).2.diagnostics :=
  h.trans (prefix_bind s)

variable {n e : Node} {s d : Checker Scopes}

/-- An evaluation lies within the check of the node that it is a part of. -/
theorem Evaluates.within (h : Evaluates n s e d) :
    s.diagnostics <+: d.diagnostics ∧
      (check e d).2.diagnostics <+: (check n s).2.diagnostics := by
  cases h with
  | index =>
    refine ⟨Grows.prefix_diagnostics s, ?_⟩
    rw [check, checkReference, bind_apply, checkIndices_append, checkIndices]
    exact (prefix_bind _).trans (Grows.prefix_diagnostics _)
  | @element rows es _ es' rows' l =>
    constructor
    · exact (Grows.prefix_diagnostics s).trans <|
        (Grows.prefix_diagnostics _).trans (Grows.prefix_diagnostics _)
    · obtain ⟨reported, h⟩ := exists_checkElements_append (s := (checkRows l.line rows
        (checkRagged l.line (rows ++ (es ++ e :: es') :: rows') s).2).2) l.line es (e :: es') false
      rw [check_matrix_snd, checkRows_append, checkRows, bind_apply, h, checkElements, bind_apply]
      exact (Grows.prefix_diagnostics _).trans (Grows.prefix_diagnostics _)
  | @argument _ es _ es' =>
    refine ⟨Grows.prefix_diagnostics s, ?_⟩
    rw [check_builtin_snd, bind_apply, checkArguments_append, checkArguments]
    exact (prefix_bind _).trans (Grows.prefix_diagnostics _)
  | left | leftCompared | value | condition | whileCondition | statement =>
    rw [check]
    exact ⟨List.prefix_rfl, prefix_bind s⟩
  | right | rightCompared =>
    rw [check, bind_apply]
    exact ⟨Grows.prefix_diagnostics s, prefix_bind _⟩
  | @operand op =>
    refine ⟨List.prefix_rfl, ?_⟩
    cases op with
    | transpose =>
      rw [check]
      exact prefix_bind s
    | negate =>
      rw [check]
      exact prefix_bind s
  | target h =>
    refine ⟨Grows.prefix_diagnostics s, ?_⟩
    rw [check_assignment_snd, checkAssigned_of_ne_nil h]
    exact prefix_bind _
  | @payload _ es _ es' _ _ h =>
    refine ⟨(Grows.prefix_diagnostics s).trans (Grows.prefix_diagnostics _), ?_⟩
    rw [check_instruction_snd, bind_apply, checkPayload_append _ _ h, checkPayload]
    exact (prefix_bind _).trans (Grows.prefix_diagnostics _)
  | lower =>
    rw [check, checkBounds]
    exact ⟨List.prefix_rfl, prefix_behind (prefix_bind s)⟩
  | upper =>
    rw [check, checkBounds]
    refine ⟨Grows.prefix_diagnostics s, prefix_behind ?_⟩
    rw [bind_apply]
    exact prefix_bind _

theorem IsExpression.of_evaluates (hn : n.IsExpression) (h : Evaluates n s e d) :
    e.IsExpression := by
  cases hn with
  | integer | float | string => cases h
  | reference hi =>
    cases h with
    | index => exact hi e (by simp)
  | matrix _ _ he =>
    cases h with
    | @element _ es _ es' => exact he (es ++ e :: es') (by simp) e (by simp)
  | builtin _ he =>
    cases h with
    | argument => exact he e (by simp)
  | binary hl hr =>
    cases h with
    | left => exact hl
    | right => exact hr
  | comparison hl hr =>
    cases h with
    | leftCompared => exact hl
    | rightCompared => exact hr
  | unary he =>
    cases h with
    | operand => exact he

theorem IsStatement.isExpression_of_evaluates (hn : n.IsStatement) (h : Evaluates n s e d) :
    e.IsExpression := by
  cases hn with
  | assignment hi he =>
    cases h with
    | value => exact he
    | target => exact .reference hi
  | instruction he =>
    cases h with
    | payload => exact he e (by simp)
  | expression he =>
    cases h with
    | statement => exact he
  | conditional he | elseIf he | elseBlock he =>
    cases h with
    | condition => exact he
  | whileLoop he =>
    cases h with
    | whileCondition => exact he
  | forLoop hl hu =>
    cases h with
    | lower => exact hl
    | upper => exact hu

theorem Comes.within {ns : List Node} {w : List Occurrence} {m : Node} (h : Comes ns s w m d) :
    s.diagnostics <+: d.diagnostics ∧
      (check m d).2.diagnostics <+: (checkStatements ns s).2.diagnostics := by
  have hhead {n : Node} {ns : List Node} {s : Checker Scopes} {ds : List Diagnostic}
      (h : ds <+: (check n s).2.diagnostics) :
      ds <+: (checkStatements (n :: ns) s).2.diagnostics := by
    rw [checkStatements]
    exact prefix_behind h
  induction h with
  | here => exact ⟨List.prefix_rfl, hhead List.prefix_rfl⟩
  | later _ ih =>
    rw [checkStatements]
    exact ⟨(Grows.prefix_diagnostics _).trans ih.1, ih.2⟩
  | @consequent e b _ _ _ s _ _ _ _ ih =>
    refine ⟨(Grows.prefix_diagnostics (c := checkCondition e) s).trans ih.1, hhead ?_⟩
    rw [check_conditional_snd]
    rw [← diagnostics_inBlock] at ih
    exact ih.2.trans (Grows.prefix_diagnostics _)
  | @elseIf e b _ _ _ s _ _ _ _ ih =>
    constructor
    · exact (Grows.prefix_diagnostics (c := checkCondition e) s).trans <|
        (Grows.prefix_diagnostics (c := inBlock (checkBlock b)) _).trans ih.1
    · rw [checkStatements, checkStatements] at ih
      refine hhead ?_
      rw [check_conditional_snd, checkAlternative]
      exact ih.2
  | @elseBlock e b b' _ _ s _ _ _ _ ih =>
    constructor
    · exact (Grows.prefix_diagnostics (c := checkCondition e) s).trans <|
        (Grows.prefix_diagnostics (c := inBlock (checkBlock b)) _).trans ih.1
    · refine hhead ?_
      rw [check_conditional_snd, checkAlternative, diagnostics_inBlock]
      exact ih.2
  | @whileBody e _ _ _ s _ _ _ _ ih =>
    refine ⟨(Grows.prefix_diagnostics (c := checkCondition e) s).trans ih.1, hhead ?_⟩
    rw [← diagnostics_inBlock] at ih
    rw [check_whileLoop_snd]
    exact ih.2
  | @forBody counter bounds _ _ _ s _ _ _ _ ih =>
    refine ⟨(Grows.prefix_diagnostics (c := checkCounter counter bounds) s).trans ih.1, hhead ?_⟩
    rw [← diagnostics_inBlock] at ih
    rw [check_forLoop_snd]
    exact ih.2

theorem Comes.isStatement {ns : List Node} {w : List Occurrence} {m : Node}
    (h : Comes ns s w m d) (hns : ∀ n ∈ ns, n.IsStatement) : m.IsStatement := by
  induction h with
  | here => exact hns _ List.mem_cons_self
  | later _ ih => exact ih fun n hn => hns n (List.mem_cons_of_mem _ hn)
  | consequent _ ih => exact ih (hns _ List.mem_cons_self).parts_of_conditional.2.1
  | elseIf _ ih =>
    have hn := (hns _ List.mem_cons_self).parts_of_conditional.2.2.1 _ rfl
    exact ih (by simpa using hn)
  | elseBlock _ ih => exact ih ((hns _ List.mem_cons_self).parts_of_conditional.2.2.2 _ rfl)
  | whileBody _ ih =>
    cases hns _ List.mem_cons_self with
    | whileLoop _ hb => exact ih hb
  | forBody _ ih =>
    cases hns _ List.mem_cons_self with
    | forLoop _ _ hb => exact ih hb

end Within

end Node

namespace Program

open Check

/-- `p.Evaluates e c`: checking the program `p`, the check comes to the expression `e` in the state
`c`. -/
inductive Evaluates (p : Program) : Node → Checker Scopes → Prop
  | part {w n s e c} : Node.Comes p.statements .initial w n s → Node.Evaluates n s e c →
      p.Evaluates e c
  | operand {n s e c} : p.Evaluates n s → Node.Evaluates n s e c → p.Evaluates e c

/-- The states in front of and behind all that the check of a program comes to. -/
inductive Passes (p : Program) : Checker Scopes → Prop
  | start : p.Passes .initial
  | before {w n c} : Node.Comes p.statements .initial w n c → p.Passes c
  | behind {w n c} : Node.Comes p.statements .initial w n c → p.Passes (Node.check n c).2
  | unread {e c} : p.Evaluates e c → p.Passes c
  | read {e c} : p.Evaluates e c → p.Passes (Node.check e c).2

variable {p : Program} {e : Node} {c : Checker Scopes}

theorem diagnostics_findings (p : Program) :
    p.findings.diagnostics = (Node.checkStatements p.statements Checker.initial).2.diagnostics := by
  rw [findings, Checker.findings, Checker.program, Node.checkBlock]

theorem Evaluates.within (h : p.Evaluates e c) :
    c.diagnostics <+: (Node.check e c).2.diagnostics ∧
      (Node.check e c).2.diagnostics <+: p.findings.diagnostics := by
  refine ⟨Grows.prefix_diagnostics c, ?_⟩
  rw [diagnostics_findings]
  induction h with
  | part hn he => exact he.within.2.trans hn.within.2
  | operand _ he ih => exact he.within.2.trans ih

/-- What has been reported at any point stands in front of all reports about the program. -/
theorem Passes.within (h : p.Passes c) : c.diagnostics <+: p.findings.diagnostics := by
  cases h with
  | start => exact List.nil_prefix
  | before h =>
    rw [diagnostics_findings]
    exact (Grows.prefix_diagnostics c).trans h.within.2
  | behind h =>
    rw [diagnostics_findings]
    exact h.within.2
  | unread h => exact h.within.1.trans h.within.2
  | read h => exact h.within.2

theorem Evaluates.isExpression (h : p.Evaluates e c) (hp : ∀ n ∈ p.statements, n.IsStatement) :
    e.IsExpression := by
  induction h with
  | part hn he => exact (hn.isStatement hp).isExpression_of_evaluates he
  | operand _ he ih => exact ih.of_evaluates he

end Program

end MatrixLang
