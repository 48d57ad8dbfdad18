import MatrixLang.Proofs.Syntax.Parsed
import MatrixLang.Proofs.Typing.Combine
import MatrixLang.Typing.Check

/-! # What the check does with well-typed trees

It reports nothing, gives an expression its type, and leaves the bindings that the rules leave. The
check is run over one table, whose blocks do nothing.
-/

namespace MatrixLang

open Check

theorem Check.bind_eq {ε α β : Type} {c : Check ε α} {f : α → Check ε β} {s s' : Checker ε}
    {a : α} (h : c s = (a, s')) : (c >>= f) s = f a s' := by
  rw [bind_apply, h]

section Basic

variable {Γ : Context} {s : Checker Table} {line : Nat}

theorem Combines.combined_eq {op : BinaryOperator} {σ τ υ : Ty} (h : Combines op σ τ υ) :
    combined line op (some σ) (some τ) s = (some υ, s) := by
  simp only [combined, Ty.combine_eq_ok_iff.mpr h]
  rfl

theorem Check.find?_eq {x : String} {τ : Ty} (hs : s.environment = Γ.toTable)
    (hx : Γ.lookup x = some τ) : Check.find? x s = (some ⟨x, some τ⟩, s) := by
  have hf : Environment.find? s.environment x = some ⟨x, some τ⟩ := by
    rw [hs]
    exact (Context.find?_toTable Γ x).trans (by rw [hx]; rfl)
  rw [Check.find?, hf]

theorem Check.variableType_eq {x : String} {τ : Ty} (hs : s.environment = Γ.toTable)
    (hx : Γ.lookup x = some τ) : variableType line x s = (some τ, s) := by
  rw [variableType, bind_eq (find?_eq hs hx)]
  rfl

theorem Check.bindName_eq {x : String} {τ : Ty} (hs : s.environment = Γ.toTable) :
    bindName x (some τ) s = ((), { s with environment := (Γ.bind x τ).toTable }) := by
  rw [bindName, hs]
  exact congrArg (fun t => ((), { s with environment := t })) (Context.toTable_bind x τ Γ).symm

theorem Check.inLoop_eq : inLoop s = (s.loopDepth != 0, s) := rfl

theorem Check.requireBoolean_eq : requireBoolean line (some .boolean) s = ((), s) := rfl

theorem Check.requireIndex_eq : requireIndex line (some .int) s = ((), s) := rfl

theorem Combines.assigned_eq {x : String} {op : Arithmetic} {σ τ υ : Ty}
    (h : Combines (.plain op) σ τ υ) (hs : s.environment = Γ.toTable)
    (hx : Γ.lookup x = some σ) :
    assigned line x (.compound op) (some τ) s =
      ((), { s with environment := (Γ.bind x υ).toTable }) := by
  have ha : (AssignOperator.compound op).arithmetic? = some (.plain op) := rfl
  simp only [assigned, ha]
  rw [bind_eq (Check.find?_eq hs hx)]
  simp only [Ty.combine_eq_ok_iff.mpr h]
  exact Check.bindName_eq hs

theorem Check.inBlock_eq {α : Type} (c : Check Table α) : inBlock c = c := rfl

theorem Check.inBody_eq {α : Type} {c : Check Table α} {a : α} {t : Table}
    (h : c { s with loopDepth := s.loopDepth + 1 } =
      (a, { s with environment := t, loopDepth := s.loopDepth + 1 })) :
    inBody c s = (a, { s with environment := t }) := by
  simp only [inBody, h, Nat.add_sub_cancel]

end Basic

namespace Node

variable {Γ : Context} {s : Checker Table}

section Lists

theorem checkIndices_eq {is : List Node} (h : ∀ i ∈ is, check i s = (some .int, s)) :
    checkIndices is s = ((), s) := by
  induction is with
  | nil => rfl
  | cons i is ih =>
    rw [List.forall_mem_cons] at h
    rw [checkIndices, bind_eq h.1]
    exact ih h.2

theorem checkElements_eq {line : Nat} {es : List Node}
    (h : ∀ e ∈ es, ∃ τ : Ty, τ.Number ∧ check e s = (some τ, s)) :
    checkElements line false es s = ((), s) := by
  induction es with
  | nil => rfl
  | cons e es ih =>
    rw [List.forall_mem_cons] at h
    obtain ⟨⟨τ, hτ, he⟩, h⟩ := h
    rw [checkElements, bind_eq he, if_pos (by simpa using Ty.isNumeric_iff.mpr hτ)]
    exact ih h

theorem checkRows_eq {line : Nat} {rows : List (List Node)}
    (h : ∀ row ∈ rows, ∀ e ∈ row, ∃ τ : Ty, τ.Number ∧ check e s = (some τ, s)) :
    checkRows line rows s = ((), s) := by
  induction rows with
  | nil => rfl
  | cons row rows ih =>
    rw [List.forall_mem_cons] at h
    rw [checkRows, bind_eq (checkElements_eq h.1)]
    exact ih h.2

theorem checkArguments_eq {es : List Node} (h : ∀ e ∈ es, check e s = (some .int, s)) :
    checkArguments es s = (true, s) := by
  induction es with
  | nil => rfl
  | cons e es ih =>
    rw [List.forall_mem_cons] at h
    rw [checkArguments, bind_eq h.1, bind_eq (ih h.2)]
    rfl

theorem checkPayload_eq {es : List Node} (h : ∀ e ∈ es, ∃ τ, check e s = (some τ, s)) :
    checkPayload es s = (true, s) := by
  induction es with
  | nil => rfl
  | cons e es ih =>
    rw [List.forall_mem_cons] at h
    obtain ⟨⟨τ, he⟩, h⟩ := h
    rw [checkPayload, bind_eq he]
    exact ih h

theorem checkBounds_eq {lower upper : Node} {l : Location} (hl : check lower s = (some .int, s))
    (hu : check upper s = (some .int, s)) : checkBounds ⟨lower, upper, l⟩ s = ((), s) := by
  rw [checkBounds, bind_eq hl, bind_eq hu]
  rfl

end Lists

section Dimensions

variable {e : Node} {m : Extent}

theorem IsExpression.exists_measures (h : e.IsExpression) :
    ∃ m, e.extent? = some m ∧ Measures e m := by
  cases h with
  | @integer n => exact ⟨.known n, rfl, .literal⟩
  | _ => exact ⟨.unknown, rfl, .computed nofun⟩

theorem extent?_eq_of_measures (h : Measures e m) : e.extent? = some m := by
  cases h with
  | literal => rfl
  | computed hn =>
    cases e with
    | integer n l => exact absurd rfl (hn n l)
    | _ => rfl

theorem mapM_extent?_eq {es : List Node} (h : ∀ e ∈ es, e.IsExpression) :
    ∃ ms, es.mapM extent? = some ms := by
  induction es with
  | nil => exact ⟨[], rfl⟩
  | cons e es ih =>
    rw [List.forall_mem_cons] at h
    obtain ⟨m, hm, _⟩ := h.1.exists_measures
    obtain ⟨ms, hms⟩ := ih h.2
    exact ⟨m :: ms, by simp [hm, hms]⟩

end Dimensions

/-- A well-typed expression is given its type, and nothing else happens. -/
theorem check_eq_of_hasType {e : Node} {τ : Ty} (h : HasType Γ e τ) (he : e.IsExpression)
    (hs : s.environment = Γ.toTable) : check e s = (some τ, s) := by
  induction h with
  | integer => rfl
  | float => rfl
  | string => rfl
  | @reference r τ hi hx ih =>
    obtain ⟨x, is, l⟩ := r
    cases he with
    | reference he =>
      rw [check, checkReference, bind_eq (checkIndices_eq fun i hi => ih i hi (he i hi))]
      exact variableType_eq hs hx
  | @matrix rows columns l types hl _ ht ih =>
    cases he with
    | matrix hne _ he =>
      have hc : (rows.headD []).length = columns := by
        cases rows with
        | nil => exact absurd rfl hne
        | cons row rows => exact hl row List.mem_cons_self
      have hr : isRagged rows = false := by
        simp only [isRagged, hc, List.any_eq_false, bne_iff_ne, ne_eq, Decidable.not_not]
        exact hl
      have hrows : checkRows l.line rows s = ((), s) :=
        checkRows_eq fun row hr e hm =>
          ⟨types e, ht row hr e hm, ih row hr e hm (he row hr e hm)⟩
      rw [check]
      simp only [hr, Bool.false_eq_true, if_false]
      rw [bind_eq hrows, hc]
      rfl
  | @column b a m l ha hm ih =>
    cases he with
    | builtin _ he =>
      have hargs : checkArguments [a] s = (true, s) :=
        checkArguments_eq (by simpa using ih (he a List.mem_cons_self))
      have hms : [a].mapM extent? = some [m] := by simp [extent?_eq_of_measures hm]
      rw [check, bind_eq hargs, if_pos rfl, hms]
      rfl
  | @sized b a c es m n l ha hm hn ih =>
    cases he with
    | builtin _ he =>
      have hargs : checkArguments (a :: c :: es) s = (true, s) :=
        checkArguments_eq fun e hm => ih e hm (he e hm)
      obtain ⟨ms, hms⟩ := mapM_extent?_eq fun e hm =>
        he e (List.mem_cons_of_mem a (List.mem_cons_of_mem c hm))
      have hms' : (a :: c :: es).mapM extent? = some (m :: n :: ms) := by
        simp [extent?_eq_of_measures hm, extent?_eq_of_measures hn, hms]
      rw [check, bind_eq hargs, if_pos rfl, hms']
      rfl
  | binary hl hr hc ihl ihr =>
    cases he with
    | binary hl hr =>
      rw [check, bind_eq (ihl hl), bind_eq (ihr hr)]
      exact hc.combined_eq
  | comparison hl hr ihl ihr =>
    cases he with
    | comparison hl hr =>
      rw [check, bind_eq (ihl hl), bind_eq (ihr hr)]
      rfl
  | transpose h ih =>
    cases he with
    | unary he =>
      rw [check, bind_eq (ih he)]
      rfl
  | negateNumber h hn ih =>
    cases he with
    | unary he =>
      rw [check, bind_eq (ih he)]
      cases hn <;> rfl
  | negateMatrix h ih =>
    cases he with
    | unary he =>
      rw [check, bind_eq (ih he)]
      rfl

theorem setEnvironment_eq (hs : s.environment = Γ.toTable) :
    { s with environment := Γ.toTable } = s := by
  rw [← hs]

theorem checkBlock_eq (b : Block Node) :
    checkBlock b = checkStatements (ε := Table) b.statements := by
  rw [checkBlock]

theorem check_conditional_eq {c : Node} {b : Block Node} {a : Option (Alternative Node)}
    {l : Location} {s' s'' : Checker Table} (hc : check c s = (some .boolean, s))
    (hb : checkStatements b.statements s = ((), s')) (ha : checkAlternative a s' = ((), s'')) :
    check (.conditional c b a l) s = (none, s'') := by
  rw [check, bind_eq hc, bind_eq requireBoolean_eq, inBlock_eq, checkBlock_eq, bind_eq hb]
  exact bind_eq ha

mutual

/-- A well-typed statement is passed in silence and leaves the context that the rules leave. -/
theorem check_eq_of_wellTyped : ∀ {inLoop Γ n Δ}, WellTyped inLoop Γ n Δ → n.IsStatement →
    ∀ {s : Checker Table}, s.environment = Γ.toTable → (s.loopDepth != 0) = inLoop →
    check n s = (none, { s with environment := Δ.toTable })
  | _, Γ, _, _, @WellTyped.assign _ _ x lx e τ l h, he, s, hs, hl => by
    cases he with
    | assignment _ he =>
      rw [check, bind_eq (check_eq_of_hasType h he hs), checkAssigned]
      exact bind_eq (Check.bindName_eq hs)
  | _, Γ, _, _, @WellTyped.update _ _ x lx op e σ τ υ l h hx hc, he, s, hs, hl => by
    cases he with
    | assignment _ he =>
      rw [check, bind_eq (check_eq_of_hasType h he hs), checkAssigned]
      exact bind_eq (hc.assigned_eq hs hx)
  | _, Γ, _, _, @WellTyped.element _ _ x i is lx op e σ τ l h hr, he, s, hs, hl => by
    cases he with
    | assignment hi he =>
      cases hr with
      | reference hn hx =>
        dsimp only at hi hn hx
        have hn' (j : Node) (hj : j ∈ i :: is) : check j s = (some .int, s) :=
          check_eq_of_hasType (hn j hj) (hi j hj) hs
        have hi' := hn' i List.mem_cons_self
        have his := checkIndices_eq fun j hj => hn' j (List.mem_cons_of_mem i hj)
        have ha : checkAssigned l.line op (some τ) ⟨x, i :: is, lx⟩ s = ((), s) := by
          rw [checkAssigned, bind_eq hi', bind_eq requireIndex_eq, bind_eq his,
            bind_eq (variableType_eq hs hx)]
          rfl
        rw [check, bind_eq (check_eq_of_hasType h he hs), setEnvironment_eq hs]
        exact bind_eq ha
  | _, Γ, _, _, @WellTyped.instruction _ _ i es l hi h, he, s, hs, hl => by
    cases he with
    | instruction he =>
      have hes : checkPayload es s = (true, s) := by
        refine checkPayload_eq fun e hm => ?_
        obtain ⟨τ, hτ⟩ := h e hm
        exact ⟨τ, check_eq_of_hasType hτ (he e hm) hs⟩
      have hn : (i.needsLoop && !(s.loopDepth != 0)) = false := by
        rw [hl]
        cases i <;> simp_all [Instruction.needsLoop]
      rw [check, setEnvironment_eq hs, bind_eq inLoop_eq]
      simp only [hn, Bool.false_eq_true, if_false]
      exact bind_eq hes
  | _, Γ, _, _, .expression h, he, s, hs, hl => by
    cases he with
    | expression he =>
      rw [check, bind_eq (check_eq_of_hasType h he hs), setEnvironment_eq hs]
      rfl
  | _, Γ, _, Δ, @WellTyped.conditional _ _ _ c b l hc hb, he, s, hs, hl => by
    cases he with
    | conditional he hn =>
      have hb' := checkStatements_eq_of_wellTyped hb hn hs hl
      exact check_conditional_eq (check_eq_of_hasType hc he hs) hb' (by rw [checkAlternative]; rfl)
  | _, Γ, _, Δ, @WellTyped.elseIf _ _ _ _ c b n l hc hb h, he, s, hs, hl => by
    obtain ⟨he, hn, hn', _⟩ := he.parts_of_conditional
    have hb' := checkStatements_eq_of_wellTyped hb hn hs hl
    refine check_conditional_eq (check_eq_of_hasType hc he hs) hb' ?_
    rw [checkAlternative]
    exact bind_eq (check_eq_of_wellTyped h (hn' _ rfl) rfl hl)
  | _, Γ, _, Δ, @WellTyped.elseBlock _ _ _ _ c b b' l hc hb h, he, s, hs, hl => by
    cases he with
    | elseBlock he hn hn' =>
      have hb' := checkStatements_eq_of_wellTyped hb hn hs hl
      refine check_conditional_eq (check_eq_of_hasType hc he hs) hb' ?_
      rw [checkAlternative, inBlock_eq, checkBlock_eq]
      exact checkStatements_eq_of_wellTyped h hn' rfl hl
  | _, Γ, _, Δ, @WellTyped.whileLoop _ _ _ c b l hc hb, he, s, hs, hl => by
    cases he with
    | whileLoop he hn =>
      have hb' := inBody_eq (s := s) (checkStatements_eq_of_wellTyped hb hn hs rfl)
      rw [check, bind_eq (check_eq_of_hasType hc he hs), bind_eq requireBoolean_eq,
        inBlock_eq, checkBlock_eq]
      exact bind_eq hb'
  | _, Γ, _, Δ, @WellTyped.forLoop _ _ _ x is lx lower upper lb b l hl' hu hb, he, s, hs, hl => by
    cases he with
    | forLoop hle hue hn =>
      have hbounds : checkBounds ⟨lower, upper, lb⟩ s = ((), s) :=
        checkBounds_eq (check_eq_of_hasType hl' hle hs) (check_eq_of_hasType hu hue hs)
      have hb' := inBody_eq (s := { s with environment := (Γ.bind x .int).toTable })
        (checkStatements_eq_of_wellTyped hb hn rfl rfl)
      rw [check, bind_eq hbounds, bind_eq (Check.bindName_eq hs), inBlock_eq, checkBlock_eq]
      exact bind_eq hb'

theorem checkStatements_eq_of_wellTyped : ∀ {inLoop Γ ns Δ}, WellTypedAll inLoop Γ ns Δ →
    (∀ n ∈ ns, n.IsStatement) → ∀ {s : Checker Table}, s.environment = Γ.toTable →
    (s.loopDepth != 0) = inLoop →
    checkStatements ns s = ((), { s with environment := Δ.toTable })
  | _, Γ, _, _, .nil, _, s, hs, _ => by
    rw [setEnvironment_eq hs]
    rfl
  | _, Γ, _, _, .cons h h', he, s, hs, hl => by
    rw [List.forall_mem_cons] at he
    rw [checkStatements, bind_eq (check_eq_of_wellTyped h he.1 hs hl)]
    exact checkStatements_eq_of_wellTyped h' he.2 rfl hl

end

end Node

end MatrixLang
