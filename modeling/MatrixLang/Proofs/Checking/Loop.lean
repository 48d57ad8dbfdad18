import MatrixLang.Analysis
import MatrixLang.Proofs.Checking.Expression
import MatrixLang.Proofs.Syntax.Parsed

/-! # Instructions that need a loop

The jumps of a program are its instructions that need a loop, each with the number of loop bodies
around it. They are the words of the text for them, and exactly those in no loop body are reported,
whatever else is wrong with the program.
-/

namespace MatrixLang

/-- An instruction that needs a loop, and the number of loop bodies that it lies in. -/
structure Jump where
  instruction : Instruction
  location : Location
  depth : Nat
  deriving DecidableEq, Repr

namespace Jump

def token (j : Jump) : Token := ⟨.keyword (.instruction j.instruction), j.location⟩

def diagnostic (j : Jump) : Diagnostic := ⟨j.location.line, .outsideLoop j.instruction⟩

end Jump

namespace Node

mutual

/-- The jumps in a statement that lies in `depth` loop bodies. -/
def jumps (depth : Nat) : Node → List Jump
  | .instruction i _ l => if i.needsLoop then [⟨i, l, depth⟩] else []
  | .conditional _ consequent alternative _ =>
    jumpsBlock depth consequent ++ jumpsAlternative depth alternative
  | .whileLoop _ body _ | .forLoop _ _ body _ => jumpsBlock (depth + 1) body
  | _ => []

def jumpsAlternative (depth : Nat) : Option (Alternative Node) → List Jump
  | none => []
  | some (.elseIf node) => jumps depth node
  | some (.block body) => jumpsBlock depth body

def jumpsBlock (depth : Nat) : Block Node → List Jump
  | ⟨statements, _⟩ => jumpsList depth statements

def jumpsList (depth : Nat) : List Node → List Jump
  | [] => []
  | node :: nodes => jumps depth node ++ jumpsList depth nodes

end

end Node

def Program.jumps (p : Program) : List Jump := Node.jumpsBlock 0 p

def Kind.isJump : Kind → Bool
  | .keyword (.instruction i) => i.needsLoop
  | _ => false

def Diagnostic.isOutsideLoop (d : Diagnostic) : Bool :=
  match d.violation with
  | .outsideLoop _ => true
  | _ => false

/-- What is reported about jumps: those that lie in no loop body. -/
def Jump.reports (js : List Jump) : List Diagnostic :=
  (js.filter (·.depth = 0)).map diagnostic

theorem Jump.reports_append (js ks : List Jump) :
    reports (js ++ ks) = reports js ++ reports ks := by
  rw [reports, List.filter_append, List.map_append, reports, reports]

namespace Phrase

/-- The words among the tokens that need a loop. -/
def jumpWords (us : List Token) : List Token := us.filter (·.kind.isJump)

section Words

variable {chained : Bool} {us vs : List Token} {t : Token} {k : Kind}

@[simp] theorem jumpWords_nil : jumpWords [] = [] := rfl

@[simp] theorem jumpWords_cons (t : Token) (us : List Token) :
    jumpWords (t :: us) = if t.kind.isJump then t :: jumpWords us else jumpWords us :=
  List.filter_cons

@[simp] theorem jumpWords_append (us vs : List Token) :
    jumpWords (us ++ vs) = jumpWords us ++ jumpWords vs :=
  List.filter_append ..

theorem jumpWords_of_wordless (h : Wordless us) : jumpWords us = [] := by
  refine List.filter_eq_nil_iff.mpr fun t ht => ?_
  unfold Kind.isJump
  split
  next i hi =>
    obtain ⟨b, hb⟩ := (h t ht).2 _ hi
    cases hb
  next => simp

theorem Terminates.exists_symbol (h : Terminates t) : ∃ m, t.kind = .symbol m := by
  rcases h with h | h
  · exact ⟨_, h⟩
  · exact ⟨_, h⟩

theorem jumps_instruction {i : Instruction} {es : List Node} (d : Nat)
    (ht : t.kind = .keyword (.instruction i)) :
    (Node.jumps d (.instruction i es t.location)).map (·.token) = jumpWords [t] := by
  obtain ⟨_, l⟩ := t
  obtain rfl : _ = Kind.keyword (.instruction i) := ht
  cases hi : i.needsLoop <;> simp [Node.jumps, Kind.isJump, Jump.token, hi]

mutual

theorem Statement.jumps {chained us k s} :
    Statement chained us k s → ∀ d, (s.jumps d).map (·.token) = jumpWords us
  | .assignment h ht h' hu, d => by
    obtain ⟨m, hm⟩ := hu.exists_symbol
    simp [Node.jumps, Kind.isJump, ht, hm, jumpWords_of_wordless h.wordless,
      jumpWords_of_wordless h'.wordless]
  | .instruction ht h hu _, d => by
    obtain ⟨m, hm⟩ := hu.exists_symbol
    rw [jumps_instruction d ht]
    simp [Kind.isJump, ht, hm, jumpWords_of_wordless h.wordless]
  | .expression h hu, d => by
    obtain ⟨m, hm⟩ := hu.exists_symbol
    simp [Node.jumps, Kind.isJump, hm, jumpWords_of_wordless h.wordless]
  | .conditional h, d => h.jumps d
  | .whileLoop ht ho h hc h', d => by
    simp [Node.jumps, Kind.isJump, ht, ho, hc, jumpWords_of_wordless h.wordless, h'.jumps]
  | .forLoop ht hv hq hl hc hu _ h, d => by
    simp [Node.jumps, Kind.isJump, ht, hv, hq, hc, jumpWords_of_wordless hl.wordless,
      jumpWords_of_wordless hu.wordless, h.jumps]

theorem Conditional.jumps {chained us k s} :
    Conditional chained us k s → ∀ d, (s.jumps d).map (·.token) = jumpWords us
  | .mk ht ho h hc h' ha, d => by
    simp [Node.jumps, Kind.isJump, ht, ho, hc, jumpWords_of_wordless h.wordless, h'.jumps,
      ha.jumps]

theorem Alternative.jumps {chained us k a} :
    Alternative chained us k a → ∀ d, (Node.jumpsAlternative d a).map (·.token) = jumpWords us
  | .none _, d => by simp [Node.jumpsAlternative]
  | .elseIf ht h, d => by simp [Node.jumpsAlternative, Kind.isJump, ht, h.jumps]
  | .block ht _ h, d => by simp [Node.jumpsAlternative, Kind.isJump, ht, h.jumps]

theorem Block.jumps {chained us k b} :
    Block chained us k b → ∀ d, (Node.jumpsBlock d b).map (·.token) = jumpWords us
  | .braced ho hc h, d => by simp [Node.jumpsBlock, Kind.isJump, ho, hc, h.jumps]
  | .bare h, d => by simp [Node.jumpsBlock, Node.jumpsList, h.jumps]

theorem Statements.jumps {chained us k ss} :
    Statements chained us k ss → ∀ d, (Node.jumpsList d ss).map (·.token) = jumpWords us
  | .nil, d => by simp [Node.jumpsList]
  | .cons h h', d => by simp [Node.jumpsList, h.jumps, h'.jumps]

end

end Words

end Phrase

section Checking

variable {ε : Type}

/-- From the state `s` to the state `s'` a check stays in its loops, and of the jumps `js` at this
depth it reports those that lie in no loop body. -/
structure Checker.Gates (js : Nat → List Jump) (s s' : Checker ε) : Prop where
  loopDepth : s'.loopDepth = s.loopDepth
  reports : ∃ ds, s'.diagnostics = s.diagnostics ++ ds ∧
    ds.filter (·.isOutsideLoop) = Jump.reports (js s.loopDepth)

theorem Checker.Gates.trans {js ks : Nat → List Jump} {s s' s'' : Checker ε} (h : Gates js s s')
    (h' : Gates ks s' s'') : Gates (fun d => js d ++ ks d) s s'' where
  loopDepth := h'.loopDepth.trans h.loopDepth
  reports := by
    obtain ⟨ds, hds, hjs⟩ := h.reports
    obtain ⟨es, hes, hks⟩ := h'.reports
    refine ⟨ds ++ es, by rw [hes, hds, List.append_assoc], ?_⟩
    rw [List.filter_append, hjs, hks, h.loopDepth, Jump.reports_append]

/-- The check comes to the jumps `js`, which depend on the number of loop bodies around them. -/
def Check.Gates {α : Type} (js : Nat → List Jump) (c : Check ε α) : Prop :=
  ∀ s, Checker.Gates js s (c s).2

namespace Check

variable {α β : Type} {js ks : Nat → List Jump} {c : Check ε α} {f : α → Check ε β}

theorem gates_pure (a : α) : Gates (fun _ => []) (pure a : Check ε α) := by
  intro s
  exact ⟨rfl, [], (List.append_nil _).symm, rfl⟩

theorem Gates.bind (hc : Gates js c) (hf : ∀ a, Gates ks (f a)) :
    Gates (fun d => js d ++ ks d) (c >>= f) :=
  fun s => (hc s).trans (hf (c s).1 (c s).2)

theorem Gates.last (hc : Gates js c) (hf : ∀ a, Gates (fun _ => []) (f a)) :
    Gates js (c >>= f) := by
  have h := hc.bind hf
  simpa only [List.append_nil] using h

theorem Gates.behind (hc : Gates (fun _ => []) c) (hf : ∀ a, Gates js (f a)) :
    Gates js (c >>= f) :=
  hc.bind hf

theorem gates_report (line : Nat) {v : Violation}
    (hv : (⟨line, v⟩ : Diagnostic).isOutsideLoop = false) :
    Gates (fun _ => []) (report line v : Check ε Unit) := by
  intro s
  exact ⟨rfl, [⟨line, v⟩], rfl, by simp [hv, Jump.reports]⟩

/-- In a loop body all jumps are one level deeper. -/
theorem Gates.inBody (hc : Gates js c) : Gates (fun d => js (d + 1)) (inBody c) := by
  intro s
  obtain ⟨hdepth, hreports⟩ := hc { s with loopDepth := s.loopDepth + 1 }
  exact ⟨by simp only [Check.inBody, hdepth, Nat.add_sub_cancel], hreports⟩

variable [Environment ε]

theorem gates_find? (name : String) :
    Gates (fun _ => []) (find? name : Check ε (Option Binding)) :=
  fun _ => ⟨rfl, [], (List.append_nil _).symm, rfl⟩

theorem gates_bindName (name : String) (type? : Option Ty) :
    Gates (fun _ => []) (bindName name type? : Check ε Unit) :=
  fun _ => ⟨rfl, [], (List.append_nil _).symm, rfl⟩

theorem Gates.inBlock (hc : Gates js c) : Gates js (inBlock c) := by
  intro s
  obtain ⟨hdepth, hreports⟩ := hc { s with environment := Environment.enter s.environment }
  exact ⟨hdepth, hreports⟩

theorem gates_variableType (line : Nat) (name : String) :
    Gates (fun _ => []) (variableType line name : Check ε (Option Ty)) := by
  refine (gates_find? name).bind fun b? => ?_
  cases b? with
  | none => exact (gates_report line rfl).last fun _ => gates_pure none
  | some b => exact gates_pure b.type?

/-- Expressions have no jumps. -/
theorem expressionLogic_gates : ExpressionLogic (ε := ε) fun _ c => Gates (fun _ => []) c where
  pure := gates_pure
  bind hc hf := hc.bind hf
  report {v} line hv := gates_report line (by cases v <;> first | exact hv.elim | rfl)
  variableType := gates_variableType

theorem gates_assigned (line : Nat) (name : String) (op : AssignOperator) (t : Option Ty) :
    Gates (fun _ => []) (assigned line name op t : Check ε Unit) := by
  unfold assigned
  split
  · exact gates_bindName name t
  · refine (gates_find? name).bind fun b? => ?_
    cases b? with
    | none => exact gates_report line rfl
    | some b =>
      dsimp only
      split
      · split
        · exact gates_bindName name _
        · exact gates_report line rfl
      · exact gates_report line rfl

end Check

namespace Node

open Check

variable [Environment ε]

theorem IsExpression.gates {e : Node} (he : e.IsExpression) :
    Gates (fun _ => []) (check e : Check ε (Option Ty)) :=
  expressionLogic_gates.check he

theorem gates_checkPayload {es : List Node} (h : ∀ e ∈ es, e.IsExpression) :
    Gates (fun _ => []) (checkPayload es : Check ε Bool) := by
  induction es with
  | nil =>
    rw [checkPayload]
    exact gates_pure true
  | cons e es ih =>
    rw [List.forall_mem_cons] at h
    rw [checkPayload]
    exact h.1.gates.bind fun t => holds_ite (gates_pure false) (ih h.2)

theorem gates_checkAssigned {r : Reference Node} (hr : ∀ i ∈ r.indices, i.IsExpression)
    (line : Nat) (op : AssignOperator) (t : Option Ty) :
    Gates (fun _ => []) (checkAssigned line op t r : Check ε Unit) := by
  by_cases hne : r.indices = []
  · obtain ⟨name, indices, l⟩ := r
    obtain rfl : indices = [] := hne
    rw [checkAssigned]
    exact gates_assigned line name op t
  · exact expressionLogic_gates.checkAssigned hr hne line op t

theorem gates_instruction {i : Instruction} {es : List Node} {l : Location}
    (he : ∀ e ∈ es, e.IsExpression) :
    Gates (fun d => jumps d (.instruction i es l)) (check (.instruction i es l) : Check ε _) := by
  have hpayload : Gates (fun _ => []) (checkPayload es >>= fun all =>
      if all then pure none else report l.line (.unknownPayload i) >>= fun _ => pure none :
        Check ε (Option Ty)) :=
    (gates_checkPayload he).bind fun all =>
      holds_ite (gates_pure none) ((gates_report l.line rfl).last fun _ => gates_pure none)
  intro s
  rw [check, bind_apply]
  by_cases h : i.needsLoop = true ∧ s.loopDepth = 0
  · obtain ⟨hi, hs⟩ := h
    have hreport : Checker.Gates (fun d => jumps d (.instruction i es l)) s
        (report l.line (.outsideLoop i) s).2 := by
      refine ⟨rfl, [⟨l.line, .outsideLoop i⟩], rfl, ?_⟩
      simp [jumps, hi, hs, Jump.reports, Jump.diagnostic, Diagnostic.isOutsideLoop]
    rw [if_pos (by simp [inLoop, hi, hs])]
    have h := hreport.trans (hpayload _)
    simp only [List.append_nil] at h
    exact h
  · rw [if_neg (by simpa [inLoop] using h)]
    obtain ⟨hdepth, ds, hds, hfilter⟩ := hpayload s
    refine ⟨hdepth, ds, hds, hfilter.trans ?_⟩
    by_cases hi : i.needsLoop = true <;> simp_all [jumps, Jump.reports]

theorem gates_checkStatements {ns : List Node}
    (h : ∀ n ∈ ns, Gates (fun d => jumps d n) (check n : Check ε _)) :
    Gates (fun d => jumpsList d ns) (checkStatements ns : Check ε Unit) := by
  induction ns with
  | nil =>
    simp only [checkStatements, jumpsList]
    exact gates_pure ()
  | cons n ns ih =>
    rw [List.forall_mem_cons] at h
    simp only [checkStatements, jumpsList]
    exact h.1.bind fun _ => ih h.2

theorem gates_checkBlock {b : Block Node}
    (h : ∀ n ∈ b.statements, Gates (fun d => jumps d n) (check n : Check ε _)) :
    Gates (fun d => jumpsBlock d b) (inBlock (checkBlock b) : Check ε Unit) := by
  obtain ⟨statements, l⟩ := b
  simp only [checkBlock, jumpsBlock]
  exact (gates_checkStatements h).inBlock

theorem gates_condition {e : Node} (he : e.IsExpression) {α : Type} {js : Nat → List Jump}
    {c : Check ε α} (hc : Gates js c) :
    Gates js (check e >>= fun t => requireBoolean e.line t >>= fun _ => c) :=
  he.gates.behind fun t => (expressionLogic_gates.requireBoolean e.line t).behind fun _ => hc

theorem gates_conditional {e : Node} {b : Block Node} {a : Option (Alternative Node)}
    {l : Location} (he : e.IsExpression)
    (hb : ∀ n ∈ b.statements, Gates (fun d => jumps d n) (check n : Check ε _))
    (ha : Gates (fun d => jumpsAlternative d a) (checkAlternative a : Check ε Unit)) :
    Gates (fun d => jumps d (.conditional e b a l)) (check (.conditional e b a l) : Check ε _) := by
  simp only [check, jumps]
  exact gates_condition he <| (gates_checkBlock hb).bind fun _ => ha.last fun _ => gates_pure none

/-- The check of a statement reports exactly its jumps that lie in no loop body. -/
theorem IsStatement.gates {n : Node} (hn : n.IsStatement) :
    Gates (fun d => jumps d n) (check n : Check ε _) := by
  induction hn with
  | @assignment r op e l hr he =>
    simp only [check, jumps]
    exact he.gates.bind fun t => (gates_checkAssigned hr l.line op t).last fun _ => gates_pure none
  | instruction he => exact gates_instruction he
  | expression he =>
    simp only [check, jumps]
    exact he.gates.last fun _ => gates_pure none
  | conditional he _ ih =>
    refine gates_conditional he ih ?_
    simp only [checkAlternative, jumpsAlternative]
    exact gates_pure ()
  | elseIf he _ _ ih ih' =>
    refine gates_conditional he ih ?_
    simp only [checkAlternative, jumpsAlternative]
    exact ih'.last fun _ => gates_pure ()
  | elseBlock he _ _ ih ih' =>
    refine gates_conditional he ih ?_
    simp only [checkAlternative, jumpsAlternative]
    exact gates_checkBlock ih'
  | whileLoop he _ ih =>
    simp only [check, jumps]
    exact gates_condition he ((gates_checkBlock ih).inBody.last fun _ => gates_pure none)
  | @forLoop x lx bounds b l hl hu _ ih =>
    simp only [check, jumps]
    exact (expressionLogic_gates.checkBounds hl hu).behind fun _ =>
      (gates_bindName x _).behind fun _ =>
        (gates_checkBlock ih).inBody.last fun _ => gates_pure none

end Node

end Checking

namespace Program

variable {cs : List Char} {p : Program}

/-- Of the words of a text that need a loop exactly those are reported that lie in no loop body, in
the order of the text, each with its line and its instruction, whatever else the program has. -/
theorem outsideLoop_eq (h : ofText cs = .ok p) :
    p.findings.diagnostics.filter (·.isOutsideLoop) =
        (p.jumps.filter (·.depth = 0)).map (·.diagnostic) ∧
      p.jumps.map (·.token) = (Scan.ofText cs).tokens.filter (·.kind.isJump) := by
  constructor
  · obtain ⟨statements, l⟩ := p
    have hgates := Node.gates_checkStatements (ε := Scopes) fun n hn =>
      (isStatement_of_ofText h n hn).gates
    obtain ⟨ds, hds, hfilter⟩ := (hgates .initial).reports
    have hfound : (Program.findings ⟨statements, l⟩).diagnostics = ds := by
      rw [findings, Checker.findings, Checker.program, Node.checkBlock, hds]
      rfl
    rw [hfound, hfilter]
    rfl
  · obtain ⟨us, hus, htokens⟩ := Scan.exists_tokens_eq cs
    have hspells := (Phrase.ofTokens_eq_ok_iff.mp h).1
    have hinner : (Scan.ofText cs).tokens.takeWhile (·.kind ≠ .endOfInput) = us := by
      rw [htokens]
      exact Phrase.takeWhile_append_of_inner hus rfl
    rw [hinner] at hspells
    obtain ⟨statements, l⟩ := p
    rw [jumps, Node.jumpsBlock, hspells.jumps 0, htokens, List.filter_append]
    exact (List.append_nil _).symm

section Guarded

/-- A text with one jump in a loop body and one in none, both behind conditions of no type. -/
def guardedText : List Char := "while (a) if (a) break;\nif (b) continue;".toList

def guardedTokens : List Token :=
  [⟨.keyword .whileWord, ⟨1, 1⟩⟩, ⟨.symbol .leftParen, ⟨1, 7⟩⟩, ⟨.name "a", ⟨1, 8⟩⟩,
    ⟨.symbol .rightParen, ⟨1, 9⟩⟩, ⟨.keyword .ifWord, ⟨1, 11⟩⟩, ⟨.symbol .leftParen, ⟨1, 14⟩⟩,
    ⟨.name "a", ⟨1, 15⟩⟩, ⟨.symbol .rightParen, ⟨1, 16⟩⟩,
    ⟨.keyword (.instruction .breakLoop), ⟨1, 18⟩⟩, ⟨.symbol .semicolon, ⟨1, 23⟩⟩,
    ⟨.keyword .ifWord, ⟨2, 1⟩⟩, ⟨.symbol .leftParen, ⟨2, 4⟩⟩, ⟨.name "b", ⟨2, 5⟩⟩,
    ⟨.symbol .rightParen, ⟨2, 6⟩⟩, ⟨.keyword (.instruction .continueLoop), ⟨2, 8⟩⟩,
    ⟨.symbol .semicolon, ⟨2, 16⟩⟩, ⟨.endOfInput, ⟨2, 17⟩⟩]

def guardedNode (x : String) (i : Instruction) (l lx li : Location) : Node :=
  .conditional (.reference ⟨x, [], lx⟩) ⟨[.instruction i [] li], li⟩ none l

def guardedProgram : Program :=
  ⟨[.whileLoop (.reference ⟨"a", [], ⟨1, 8⟩⟩)
      ⟨[guardedNode "a" .breakLoop ⟨1, 11⟩ ⟨1, 15⟩ ⟨1, 18⟩], ⟨1, 11⟩⟩ ⟨1, 1⟩,
    guardedNode "b" .continueLoop ⟨2, 1⟩ ⟨2, 5⟩ ⟨2, 8⟩], ⟨1, 1⟩⟩

theorem ofText_guardedText : ofText guardedText = .ok guardedProgram := by
  have ht : (Scan.ofText guardedText).tokens = guardedTokens := by decide +kernel
  rw [ofText, ht]
  rfl

theorem outsideLoop_guardedProgram :
    ofText guardedText = .ok guardedProgram ∧
      guardedProgram.findings.diagnostics.filter (·.isOutsideLoop) =
        [⟨2, .outsideLoop .continueLoop⟩] ∧
      guardedProgram.findings.diagnostics.length = 7 ∧
      guardedProgram.jumps =
        [⟨.breakLoop, ⟨1, 18⟩, 1⟩, ⟨.continueLoop, ⟨2, 8⟩, 0⟩] := by
  refine ⟨ofText_guardedText, ?_, rfl, rfl⟩
  rw [(outsideLoop_eq ofText_guardedText).1]
  rfl

end Guarded

end Program

end MatrixLang
