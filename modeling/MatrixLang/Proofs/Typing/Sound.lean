import MatrixLang.Proofs.Checking.Quiet
import MatrixLang.Proofs.Scope.Check
import MatrixLang.Proofs.Typing.Complete

/-! # Checks that report nothing accept well-typed trees

The parts of a silent check are silent one after the other, so each has the type that the rules ask
for, and what the check has done up to there is known.
-/

namespace MatrixLang

open Check

section Basic

variable {ε : Type} {line : Nat} {s : Checker ε}

theorem Check.Quiet.combines {op : BinaryOperator} {σ τ : Ty}
    (h : Quiet (combined line op (some σ) (some τ)) s) : ∃ υ, Combines op σ τ υ := by
  cases hc : σ.combine op τ with
  | ok υ => exact ⟨υ, Ty.combine_eq_ok_iff.mp hc⟩
  | error fault =>
    simp only [combined, hc] at h
    exact absurd h (not_quiet_report_bind)

theorem Check.Quiet.eq_matrix {τ : Ty} (h : Quiet (transposed line (some τ)) s) :
    ∃ shape, τ = .matrix shape := by
  cases τ with
  | matrix shape => exact ⟨shape, rfl⟩
  | _ => exact absurd h not_quiet_report_bind

theorem Check.Quiet.number_or_matrix {τ : Ty} (h : Quiet (negated line (some τ)) s) :
    τ.Number ∨ ∃ shape, τ = .matrix shape := by
  cases τ with
  | int => exact .inl .int
  | float => exact .inl .float
  | matrix shape => exact .inr ⟨shape, rfl⟩
  | _ => exact absurd h not_quiet_report_bind

theorem Check.Quiet.eq_boolean {τ : Ty} (h : Quiet (requireBoolean line (some τ)) s) :
    τ = .boolean := by
  by_contra hn
  have hn' : some τ ≠ some Ty.boolean := fun he => hn (Option.some.inj he)
  rw [requireBoolean, if_pos hn'] at h
  exact not_quiet_report _ _ h

theorem Check.Quiet.eq_int {τ : Ty} (h : Quiet (requireIndex line (some τ)) s) : τ = .int := by
  cases τ with
  | int => rfl
  | _ => exact absurd h (not_quiet_report _ _)

variable {Γ : Context} {s : Checker Table} {x : String}

theorem Check.find?_eq_none (hs : s.environment = Γ.toTable) (hx : Γ.lookup x = none) :
    Check.find? x s = (none, s) := by
  have hf : Environment.find? s.environment x = none := by
    rw [hs]
    exact (Context.find?_toTable Γ x).trans (by rw [hx]; rfl)
  rw [Check.find?, hf]

theorem Check.Quiet.lookup_eq (h : Quiet (variableType line x) s)
    (hs : s.environment = Γ.toTable) : ∃ τ, Γ.lookup x = some τ := by
  cases hx : Γ.lookup x with
  | some τ => exact ⟨τ, rfl⟩
  | none => exact absurd (h.right (Check.find?_eq_none hs hx) rfl) not_quiet_report_bind

theorem Check.Quiet.updates {op : Arithmetic} {τ : Ty}
    (h : Quiet (assigned line x (.compound op) (some τ)) s) (hs : s.environment = Γ.toTable) :
    ∃ σ υ, Γ.lookup x = some σ ∧ Combines (.plain op) σ τ υ := by
  have ha : (AssignOperator.compound op).arithmetic? = some (.plain op) := rfl
  simp only [assigned, ha] at h
  cases hx : Γ.lookup x with
  | some σ =>
    have h₁ := h.right (Check.find?_eq hs hx) rfl
    cases hc : σ.combine (.plain op) τ with
    | ok υ => exact ⟨σ, υ, rfl, Ty.combine_eq_ok_iff.mp hc⟩
    | error fault =>
      simp only [hc] at h₁
      exact absurd h₁ (not_quiet_report _ _)
  | none => exact absurd (h.right (Check.find?_eq_none hs hx) rfl) (not_quiet_report _ _)

theorem Check.quiet_of_inBody {α : Type} {c : Check Table α} (h : Quiet (inBody c) s) :
    Quiet c { s with loopDepth := s.loopDepth + 1 } := h

end Basic

namespace Node

variable {Γ : Context} {s : Checker Table}

section Lists

theorem forall_hasType_of_quiet_checkIndices {is : List Node} (he : ∀ i ∈ is, i.IsExpression)
    (ih : ∀ i ∈ is, Quiet (check i) s → ∃ τ, HasType Γ i τ) (hs : s.environment = Γ.toTable)
    (h : Quiet (checkIndices is) s) : ∀ i ∈ is, HasType Γ i .int := by
  induction is with
  | nil => exact List.forall_mem_nil _
  | cons i is ih' =>
    rw [List.forall_mem_cons] at he ih ⊢
    rw [checkIndices] at h
    obtain ⟨τ, hτ⟩ := ih.1 h.left
    have h₁ := h.right (check_eq_of_hasType hτ he.1 hs) rfl
    obtain rfl := h₁.left.eq_int
    exact ⟨hτ, ih' he.2 ih.2 (h₁.right requireIndex_eq rfl)⟩

theorem forall_number_of_quiet_checkElements {line : Nat} {es : List Node}
    (he : ∀ e ∈ es, e.IsExpression) (ih : ∀ e ∈ es, Quiet (check e) s → ∃ τ, HasType Γ e τ)
    (hs : s.environment = Γ.toTable) (h : Quiet (checkElements line false es) s) :
    ∀ e ∈ es, ∃ τ : Ty, τ.Number ∧ HasType Γ e τ := by
  induction es with
  | nil => exact List.forall_mem_nil _
  | cons e es ih' =>
    rw [List.forall_mem_cons] at he ih ⊢
    rw [checkElements] at h
    obtain ⟨τ, hτ⟩ := ih.1 h.left
    have h₁ := h.right (check_eq_of_hasType hτ he.1 hs) rfl
    split at h₁
    next hn => exact ⟨⟨τ, Ty.isNumeric_iff.mp hn, hτ⟩, ih' he.2 ih.2 h₁⟩
    next => exact absurd h₁ not_quiet_report_bind

theorem forall_number_of_quiet_checkRows {line : Nat} {rows : List (List Node)}
    (he : ∀ row ∈ rows, ∀ e ∈ row, e.IsExpression)
    (ih : ∀ row ∈ rows, ∀ e ∈ row, Quiet (check e) s → ∃ τ, HasType Γ e τ)
    (hs : s.environment = Γ.toTable) (h : Quiet (checkRows line rows) s) :
    ∀ row ∈ rows, ∀ e ∈ row, ∃ τ : Ty, τ.Number ∧ HasType Γ e τ := by
  induction rows with
  | nil => exact List.forall_mem_nil _
  | cons row rows ih' =>
    rw [List.forall_mem_cons] at he ih ⊢
    rw [checkRows] at h
    have hrow := forall_number_of_quiet_checkElements he.1 ih.1 hs h.left
    have hrun : checkElements line false row s = ((), s) := by
      refine checkElements_eq fun e hm => ?_
      obtain ⟨τ, hn, hτ⟩ := hrow e hm
      exact ⟨τ, hn, check_eq_of_hasType hτ (he.1 e hm) hs⟩
    exact ⟨hrow, ih' he.2 ih.2 (h.right hrun rfl)⟩

theorem exists_types_of_quiet_checkArguments {es : List Node} (he : ∀ e ∈ es, e.IsExpression)
    (ih : ∀ e ∈ es, Quiet (check e) s → ∃ τ, HasType Γ e τ) (hs : s.environment = Γ.toTable)
    (h : Quiet (checkArguments es) s) :
    ∃ all, checkArguments es s = (all, s) ∧ (all = true → ∀ e ∈ es, HasType Γ e .int) := by
  induction es with
  | nil => exact ⟨true, rfl, fun _ => List.forall_mem_nil _⟩
  | cons e es ih' =>
    rw [List.forall_mem_cons] at he ih
    rw [checkArguments] at h ⊢
    obtain ⟨τ, hτ⟩ := ih.1 h.left
    have hrun := check_eq_of_hasType hτ he.1 hs
    obtain ⟨all, hall, hes⟩ := ih' he.2 ih.2 (h.right hrun rfl).left
    refine ⟨_, bind_eq hrun |>.trans (bind_eq hall), fun ht => ?_⟩
    obtain ⟨rfl, rfl⟩ : τ = .int ∧ all = true := by simpa using ht
    rw [List.forall_mem_cons]
    exact ⟨hτ, hes rfl⟩

theorem forall_hasType_of_quiet_checkPayload {es : List Node} (he : ∀ e ∈ es, e.IsExpression)
    (ih : ∀ e ∈ es, Quiet (check e) s → ∃ τ, HasType Γ e τ) (hs : s.environment = Γ.toTable)
    (h : Quiet (checkPayload es) s) : ∀ e ∈ es, ∃ τ, HasType Γ e τ := by
  induction es with
  | nil => exact List.forall_mem_nil _
  | cons e es ih' =>
    rw [List.forall_mem_cons] at he ih ⊢
    rw [checkPayload] at h
    obtain ⟨τ, hτ⟩ := ih.1 h.left
    exact ⟨⟨τ, hτ⟩, ih' he.2 ih.2 (h.right (check_eq_of_hasType hτ he.1 hs) rfl)⟩

end Lists

/-- An expression on which the check is silent is well typed. -/
theorem exists_hasType_of_quiet {e : Node} (he : e.IsExpression) (hs : s.environment = Γ.toTable)
    (h : Quiet (check e) s) : ∃ τ, HasType Γ e τ := by
  induction he with
  | integer => exact ⟨_, .integer⟩
  | float => exact ⟨_, .float⟩
  | string => exact ⟨_, .string⟩
  | @reference r he ih =>
    obtain ⟨x, is, l⟩ := r
    rw [check, checkReference] at h
    have hi := forall_hasType_of_quiet_checkIndices he ih hs h.left
    have hrun := checkIndices_eq fun i hm => check_eq_of_hasType (hi i hm) (he i hm) hs
    obtain ⟨τ, hτ⟩ := (h.right hrun rfl).lookup_eq hs
    exact ⟨τ, .reference hi hτ⟩
  | @matrix rows l _ _ he ih =>
    simp only [check] at h
    split at h
    next => exact absurd h not_quiet_report_bind
    next hr =>
      have hl : ∀ row ∈ rows, row.length = (rows.headD []).length := by
        simpa [isRagged, List.any_eq_false] using hr
      have hrows := forall_number_of_quiet_checkRows he ih hs h.left
      have htype (row : List Node) (hm : row ∈ rows) (e : Node) (hm' : e ∈ row) :
          (((check e s).1).getD .int).Number ∧ HasType Γ e (((check e s).1).getD .int) := by
        obtain ⟨τ, hn, hτ⟩ := hrows row hm e hm'
        rw [check_eq_of_hasType hτ (he row hm e hm') hs]
        exact ⟨hn, hτ⟩
      exact ⟨_, .matrix hl (fun row hm e hm' => (htype row hm e hm').2)
        fun row hm e hm' => (htype row hm e hm').1⟩
  | @builtin b es l hne he ih =>
    obtain ⟨ms, hms⟩ := mapM_extent?_eq he
    simp only [check, hms] at h
    obtain ⟨all, hrun, hall⟩ := exists_types_of_quiet_checkArguments he ih hs h.left
    have h₁ := h.right hrun rfl
    split at h₁
    next ht =>
      have hes := hall ht
      cases es with
      | nil => exact absurd rfl hne
      | cons a es =>
        rw [List.forall_mem_cons] at he
        obtain ⟨m, _, hm⟩ := he.1.exists_measures
        cases es with
        | nil => exact ⟨_, .column (hes a List.mem_cons_self) hm⟩
        | cons c es =>
          obtain ⟨n, _, hn⟩ := (he.2 c List.mem_cons_self).exists_measures
          exact ⟨_, .sized hes hm hn⟩
    next => exact absurd h₁ not_quiet_report_bind
  | @binary op left right l hl hr ihl ihr =>
    rw [check] at h
    obtain ⟨σ, hσ⟩ := ihl h.left
    have h₁ := h.right (check_eq_of_hasType hσ hl hs) rfl
    obtain ⟨τ, hτ⟩ := ihr h₁.left
    obtain ⟨υ, hυ⟩ := (h₁.right (check_eq_of_hasType hτ hr hs) rfl).combines
    exact ⟨υ, .binary hσ hτ hυ⟩
  | @comparison c left right l hl hr ihl ihr =>
    rw [check] at h
    obtain ⟨σ, hσ⟩ := ihl h.left
    obtain ⟨τ, hτ⟩ := ihr (h.right (check_eq_of_hasType hσ hl hs) rfl).left
    exact ⟨.boolean, .comparison hσ hτ⟩
  | @unary op e l he ih =>
    cases op with
    | transpose =>
      rw [check] at h
      obtain ⟨τ, hτ⟩ := ih h.left
      obtain ⟨shape, rfl⟩ := (h.right (check_eq_of_hasType hτ he hs) rfl).eq_matrix
      exact ⟨_, .transpose hτ⟩
    | negate =>
      rw [check] at h
      obtain ⟨τ, hτ⟩ := ih h.left
      rcases (h.right (check_eq_of_hasType hτ he hs) rfl).number_or_matrix with hn | ⟨shape, rfl⟩
      · exact ⟨τ, .negateNumber hτ hn⟩
      · exact ⟨_, .negateMatrix hτ⟩

theorem exists_wellTypedAll_of_quiet {ns : List Node} (hn : ∀ n ∈ ns, n.IsStatement)
    (ih : ∀ n ∈ ns, ∀ {Γ : Context} {s : Checker Table}, s.environment = Γ.toTable →
      Quiet (check n) s → ∃ Δ, WellTyped (s.loopDepth != 0) Γ n Δ)
    (hs : s.environment = Γ.toTable) (h : Quiet (checkStatements ns) s) :
    ∃ Δ, WellTypedAll (s.loopDepth != 0) Γ ns Δ := by
  induction ns generalizing Γ s with
  | nil => exact ⟨Γ, .nil⟩
  | cons n ns ih' =>
    rw [List.forall_mem_cons] at hn ih
    rw [checkStatements] at h
    obtain ⟨Δ, hΔ⟩ := ih.1 hs h.left
    have hrun := check_eq_of_wellTyped hΔ hn.1 hs rfl
    obtain ⟨Ε, hΕ⟩ := ih' hn.2 ih.2 rfl (h.right hrun rfl)
    exact ⟨Ε, .cons hΔ hΕ⟩

theorem hasType_boolean_of_quiet {α : Type} {c : Node} {line : Nat} {f : Unit → Check Table α}
    [∀ u, Grows (f u)] (hc : c.IsExpression) (hs : s.environment = Γ.toTable)
    (h : Quiet (check c >>= fun t => requireBoolean line t >>= f) s) :
    HasType Γ c .boolean ∧ Quiet (f ()) s := by
  obtain ⟨τ, hτ⟩ := exists_hasType_of_quiet hc hs h.left
  have h₁ := h.right (check_eq_of_hasType hτ hc hs) rfl
  obtain rfl := h₁.left.eq_boolean
  exact ⟨hτ, h₁.right requireBoolean_eq rfl⟩

/-- What a silent check of a conditional has shown before it turns to the alternative. -/
theorem exists_wellTypedAll_of_quiet_conditional {c : Node} {b : Block Node}
    {a : Option (Alternative Node)} {l : Location} (hc : c.IsExpression)
    (hb : ∀ n ∈ b.statements, n.IsStatement)
    (ih : ∀ n ∈ b.statements, ∀ {Γ : Context} {s : Checker Table}, s.environment = Γ.toTable →
      Quiet (check n) s → ∃ Δ, WellTyped (s.loopDepth != 0) Γ n Δ)
    (hs : s.environment = Γ.toTable) (h : Quiet (check (.conditional c b a l)) s) :
    HasType Γ c .boolean ∧ ∃ Δ, WellTypedAll (s.loopDepth != 0) Γ b.statements Δ ∧
      Quiet (checkAlternative a) { s with environment := Δ.toTable } := by
  rw [check] at h
  obtain ⟨hτ, h₁⟩ := hasType_boolean_of_quiet hc hs h
  rw [inBlock_eq, checkBlock_eq] at h₁
  obtain ⟨Δ, hΔ⟩ := exists_wellTypedAll_of_quiet hb ih hs h₁.left
  exact ⟨hτ, Δ, hΔ, (h₁.right (checkStatements_eq_of_wellTyped hΔ hb hs rfl) rfl).left⟩

theorem hasType_int_of_quiet {lower upper : Node} {l : Location} (hl : lower.IsExpression)
    (hu : upper.IsExpression) (hs : s.environment = Γ.toTable)
    (h : Quiet (checkBounds ⟨lower, upper, l⟩) s) :
    HasType Γ lower .int ∧ HasType Γ upper .int := by
  rw [checkBounds] at h
  obtain ⟨σ, hσ⟩ := exists_hasType_of_quiet hl hs h.left
  have h₁ := h.right (check_eq_of_hasType hσ hl hs) rfl
  obtain ⟨τ, hτ⟩ := exists_hasType_of_quiet hu hs h₁.left
  have h₂ := h₁.right (check_eq_of_hasType hτ hu hs) rfl
  split at h₂
  next => exact absurd h₂ (not_quiet_report _ _)
  next hn =>
    obtain ⟨rfl, rfl⟩ : σ = .int ∧ τ = .int := by simpa using hn
    exact ⟨hσ, hτ⟩

/-- A statement on which the check is silent is well typed. -/
theorem exists_wellTyped_of_quiet {n : Node} (hn : n.IsStatement) :
    ∀ {Γ : Context} {s : Checker Table}, s.environment = Γ.toTable → Quiet (check n) s →
      ∃ Δ, WellTyped (s.loopDepth != 0) Γ n Δ := by
  induction hn with
  | @assignment r op e l hi he =>
    intro Γ s hs h
    obtain ⟨x, is, lx⟩ := r
    rw [check] at h
    obtain ⟨τ, hτ⟩ := exists_hasType_of_quiet he hs h.left
    have h₁ := (h.right (check_eq_of_hasType hτ he hs) rfl).left
    cases is with
    | nil =>
      cases op with
      | plain => exact ⟨_, .assign hτ⟩
      | compound op =>
        rw [checkAssigned] at h₁
        obtain ⟨σ, υ, hx, hc⟩ := h₁.updates hs
        exact ⟨_, .update hτ hx hc⟩
    | cons i is =>
      have hi' := List.forall_mem_cons.mp hi
      rw [checkAssigned] at h₁
      obtain ⟨σ, hσ⟩ := exists_hasType_of_quiet hi'.1 hs h₁.left
      have h₂ := h₁.right (check_eq_of_hasType hσ hi'.1 hs) rfl
      obtain rfl := h₂.left.eq_int
      have h₃ := h₂.right requireIndex_eq rfl
      have his := forall_hasType_of_quiet_checkIndices hi'.2
        (fun j hj => exists_hasType_of_quiet (hi'.2 j hj) hs) hs h₃.left
      have hrun := checkIndices_eq fun j hj => check_eq_of_hasType (his j hj) (hi'.2 j hj) hs
      obtain ⟨υ, hυ⟩ := (h₃.right hrun rfl).left.lookup_eq hs
      exact ⟨Γ, .element hτ (.reference (List.forall_mem_cons.mpr ⟨hσ, his⟩) hυ)⟩
  | @instruction i es l he =>
    intro Γ s hs h
    rw [check] at h
    have h₁ := h.right inLoop_eq rfl
    have ih (e : Node) (hm : e ∈ es) : Quiet (check e) s → ∃ τ, HasType Γ e τ :=
      exists_hasType_of_quiet (he e hm) hs
    split at h₁
    next => exact absurd h₁ not_quiet_report_bind
    next hl =>
      refine ⟨Γ, .instruction ?_ (forall_hasType_of_quiet_checkPayload he ih hs h₁.left)⟩
      rintro (rfl | rfl)
      · simpa [Instruction.needsLoop] using hl
      · simpa [Instruction.needsLoop] using hl
  | @expression e l he =>
    intro Γ s hs h
    rw [check] at h
    obtain ⟨τ, hτ⟩ := exists_hasType_of_quiet he hs h.left
    exact ⟨Γ, .expression hτ⟩
  | @conditional c b l hc hb ih =>
    intro Γ s hs h
    obtain ⟨hτ, Δ, hΔ, _⟩ := exists_wellTypedAll_of_quiet_conditional hc hb ih hs h
    exact ⟨Δ, .conditional hτ hΔ⟩
  | @elseIf c b l c' b' a' l' hc hb _ ih ih' =>
    intro Γ s hs h
    obtain ⟨hτ, Δ, hΔ, h₁⟩ := exists_wellTypedAll_of_quiet_conditional hc hb ih hs h
    rw [checkAlternative] at h₁
    obtain ⟨Ε, hΕ⟩ := ih' rfl h₁.left
    exact ⟨Ε, .elseIf hτ hΔ hΕ⟩
  | @elseBlock c b b' l hc hb hb' ih ih' =>
    intro Γ s hs h
    obtain ⟨hτ, Δ, hΔ, h₁⟩ := exists_wellTypedAll_of_quiet_conditional hc hb ih hs h
    rw [checkAlternative, inBlock_eq, checkBlock_eq] at h₁
    obtain ⟨Ε, hΕ⟩ := exists_wellTypedAll_of_quiet hb' ih' rfl h₁
    exact ⟨Ε, .elseBlock hτ hΔ hΕ⟩
  | @whileLoop c b l hc hb ih =>
    intro Γ s hs h
    rw [check] at h
    obtain ⟨hτ, h₁⟩ := hasType_boolean_of_quiet hc hs h
    rw [inBlock_eq, checkBlock_eq] at h₁
    obtain ⟨Δ, hΔ⟩ := exists_wellTypedAll_of_quiet hb ih (s := { s with
      loopDepth := s.loopDepth + 1 }) hs (quiet_of_inBody h₁.left)
    exact ⟨Δ, .whileLoop hτ hΔ⟩
  | @forLoop x lx bounds b l hlower hupper hb ih =>
    intro Γ s hs h
    obtain ⟨lower, upper, lb⟩ := bounds
    rw [check] at h
    obtain ⟨hl, hu⟩ := hasType_int_of_quiet hlower hupper hs h.left
    have hrun : checkBounds ⟨lower, upper, lb⟩ s = ((), s) :=
      checkBounds_eq (check_eq_of_hasType hl hlower hs) (check_eq_of_hasType hu hupper hs)
    have h₁ := (h.right hrun rfl).right (Check.bindName_eq hs) rfl
    rw [inBlock_eq, checkBlock_eq] at h₁
    obtain ⟨Δ, hΔ⟩ := exists_wellTypedAll_of_quiet hb ih (s := { s with
      environment := (Γ.bind x .int).toTable
      loopDepth := s.loopDepth + 1 }) rfl (quiet_of_inBody h₁.left)
    exact ⟨Δ, .forLoop hl hu hΔ⟩

end Node

namespace Program

variable {p : Program} {Γ : Context}

theorem flat_program_eq (hp : ∀ n ∈ p.statements, n.IsStatement) (h : p.WellTyped Γ) :
    Checker.flat.program p = ⟨Γ.toTable, 0, []⟩ := by
  have hrun := Node.checkStatements_eq_of_wellTyped h hp (s := Checker.flat) rfl rfl
  rw [Checker.program, Node.checkBlock_eq, hrun]
  rfl

theorem exists_wellTyped (hp : ∀ n ∈ p.statements, n.IsStatement)
    (h : (Checker.flat.program p).diagnostics = []) : ∃ Γ, p.WellTyped Γ := by
  rw [Checker.program, Node.checkBlock_eq] at h
  exact Node.exists_wellTypedAll_of_quiet (s := Checker.flat) hp
    (fun n hn => Node.exists_wellTyped_of_quiet (hp n hn)) rfl h

/-- The check of a program that a text spells reports nothing exactly if the program is well typed,
and then binds what the rules bind, each name to a known type. -/
theorem findings_iff_wellTyped (cs : List Char) (p : Program) (hp : ofText cs = .ok p) :
    (p.findings.diagnostics = [] ↔ ∃ Γ, p.WellTyped Γ) ∧
      ∀ Γ, p.WellTyped Γ →
        p.findings.bindings = Γ.toTable ∧ ∀ b ∈ p.findings.bindings.bindings, b.type?.isSome := by
  have hn := isStatement_of_ofText hp
  simp only [findings_eq]
  refine ⟨⟨exists_wellTyped hn, ?_⟩, ?_⟩
  · rintro ⟨Γ, h⟩
    rw [flat_program_eq hn h]
  · intro Γ h
    rw [flat_program_eq hn h]
    exact ⟨rfl, fun b hb => Context.type?_isSome_of_mem_toTable hb⟩

section Columns

def columnsText : List Char := "x = [1, 2]'; y = x + zeros(2);".toList

def columnsTokens : List Token :=
  [⟨.name "x", ⟨1, 1⟩⟩, ⟨.symbol (.assign .plain), ⟨1, 3⟩⟩, ⟨.symbol .leftBracket, ⟨1, 5⟩⟩,
    ⟨.integer 1, ⟨1, 6⟩⟩, ⟨.symbol .comma, ⟨1, 7⟩⟩, ⟨.integer 2, ⟨1, 9⟩⟩,
    ⟨.symbol .rightBracket, ⟨1, 10⟩⟩, ⟨.symbol .transpose, ⟨1, 11⟩⟩, ⟨.symbol .semicolon, ⟨1, 12⟩⟩,
    ⟨.name "y", ⟨1, 14⟩⟩, ⟨.symbol (.assign .plain), ⟨1, 16⟩⟩, ⟨.name "x", ⟨1, 18⟩⟩,
    ⟨.symbol (.binary (.plain .add)), ⟨1, 20⟩⟩, ⟨.keyword (.builtin .zeros), ⟨1, 22⟩⟩,
    ⟨.symbol .leftParen, ⟨1, 27⟩⟩, ⟨.integer 2, ⟨1, 28⟩⟩, ⟨.symbol .rightParen, ⟨1, 29⟩⟩,
    ⟨.symbol .semicolon, ⟨1, 30⟩⟩, ⟨.endOfInput, ⟨1, 31⟩⟩]

def columnsProgram : Program :=
  ⟨[.assignment ⟨"x", [], ⟨1, 1⟩⟩ .plain
      (.unary .transpose (.matrix [[.integer 1 ⟨1, 6⟩, .integer 2 ⟨1, 9⟩]] ⟨1, 5⟩) ⟨1, 11⟩) ⟨1, 3⟩,
    .assignment ⟨"y", [], ⟨1, 14⟩⟩ .plain
      (.binary (.plain .add) (.reference ⟨"x", [], ⟨1, 18⟩⟩)
        (.builtin .zeros [.integer 2 ⟨1, 28⟩] ⟨1, 22⟩) ⟨1, 20⟩) ⟨1, 16⟩], ⟨1, 1⟩⟩

theorem ofText_columnsText : ofText columnsText = .ok columnsProgram := by
  have ht : (Scan.ofText columnsText).tokens = columnsTokens := by
    rw [Scan.ofText, Piece.ofText_eq_firstOfText (Nat.le_refl _)]
    decide +kernel
  rw [ofText, ht]
  rfl

def columnsContext : Context := [("x", .matrix (.ofSize 2 1)), ("y", .matrix (.ofSize 2 1))]

theorem wellTyped_columnsProgram : columnsProgram.WellTyped columnsContext := by
  have hrow : HasType [] (.matrix [[.integer 1 ⟨1, 6⟩, .integer 2 ⟨1, 9⟩]] ⟨1, 5⟩)
      (.matrix (.ofSize 1 2)) := by
    refine @HasType.matrix _ _ 2 _ (fun _ => .int) (by simp) ?_ ?_
    · simpa using ⟨.integer, .integer⟩
    · simpa using .int
  have hx : HasType [("x", .matrix (.ofSize 2 1))] (.reference ⟨"x", [], ⟨1, 18⟩⟩)
      (.matrix (.ofSize 2 1)) :=
    .reference (List.forall_mem_nil _) rfl
  have hsum : Broadcasts (.ofSize 2 1) (.ofSize 2 1) (.ofSize 2 1) := ⟨.agree .known, .known⟩
  have hzeros : HasType [("x", .matrix (.ofSize 2 1))]
      (.builtin .zeros [.integer (2 : Nat) ⟨1, 28⟩] ⟨1, 22⟩) (.matrix (.ofSize 2 1)) :=
    .column .integer .literal
  exact .cons (.assign (.transpose hrow))
    (.cons (.assign (.binary hx hzeros (.matrices hsum))) .nil)

theorem findings_columnsProgram :
    ofText columnsText = .ok columnsProgram ∧ columnsProgram.findings.diagnostics = [] ∧
      columnsProgram.findings.bindings = columnsContext.toTable := by
  have hw := wellTyped_columnsProgram
  obtain ⟨hi, hb⟩ := findings_iff_wellTyped columnsText columnsProgram ofText_columnsText
  exact ⟨ofText_columnsText, hi.mpr ⟨_, hw⟩, (hb _ hw).1⟩

end Columns

end Program

end MatrixLang
