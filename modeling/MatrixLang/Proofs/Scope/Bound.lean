import MatrixLang.Proofs.Scope.Consult
import MatrixLang.Proofs.Scope.Visit

/-! # Which names are bound

A statement binds the names that its tree says it binds, whatever is wrong with it. So the names
bound at any point of a check are the binders on the walk up to there, and the reports about names
that are not bound come from the occurrences without a binder in front.
-/

namespace MatrixLang

namespace Checker

variable {α : Type} {u v w : List Occurrence} {s s' : Checker Scopes} {c : Check Scopes α}

/-- Uses that a check does not come to are missing from its reports. -/
theorem Accounts.passOver (h : Accounts u v s s')
    (hw : ∀ o ∈ w, o.binder? = none ∧ o.undeclared? = none) : Accounts u (v ++ w) s s' := by
  have hb : binders (v ++ w) = binders v := by
    rw [binders_append, binders_eq_nil hw, List.append_nil]
  obtain ⟨ds, hd, hundeclared, hundefined⟩ := h.reports
  exact
    { visits := h.visits.trans (List.sublist_append_left v w)
      sameBinders := h.sameBinders.trans hb.symm
      names := by rw [hb, h.names]
      enclosing := h.enclosing
      reports := ⟨ds, hd, by
        rw [unbound_append, List.filterMap_append, filterMap_undeclared?_eq_nil hw,
          List.append_nil, hundeclared], hundefined⟩ }

/-- A block goes through its occurrences and leaves their binders to the enclosing scope. -/
theorem Accounts.inBlock (hs : s.names.Nodup) (h : Accounts v w s.entered (c s.entered).2) :
    Accounts v w s (Check.inBlock c s).2 := by
  have hnames : (c s.entered).2.environment.innermost.names = addNames s.names (binders w) :=
    h.names
  have hpop : (c s.entered).2.environment.pop =
      ⟨(c s.entered).2.environment.innermost, s.environment.enclosing⟩ := by
    have hprefix : s.environment.innermost.names <+:
        (c s.entered).2.environment.innermost.names := hnames ▸ prefix_addNames _ _
    have hnodup : (c s.entered).2.environment.innermost.names.Nodup :=
      hnames ▸ nodup_addNames hs
    have henclosing : (c s.entered).2.environment.enclosing =
        s.environment.innermost :: s.environment.enclosing := h.enclosing
    simp only [Scopes.pop, henclosing, Table.putAll_eq hprefix hnodup]
  have henv : (Check.inBlock c s).2.environment = _ := hpop
  exact
    { visits := h.visits
      sameBinders := h.sameBinders
      names := (congrArg (·.innermost.names) henv).trans hnames
      enclosing := congrArg (·.enclosing) henv
      reports := h.reports }

theorem Accounts.inBody (h : Accounts v w s.looping (c s.looping).2) :
    Accounts v w s (Check.inBody c s).2 :=
  ⟨h.visits, h.sameBinders, h.names, h.enclosing, h.reports⟩

theorem Accounts.bindName (s : Checker Scopes) (x : String) (t : Option Ty) :
    Accounts [.binder x] [.binder x] s (Check.bindName x t s).2 where
  visits := .refl _
  sameBinders := rfl
  names := Table.names_put _ _
  enclosing := rfl
  reports := ⟨[], by simp [Check.bindName, unbound]⟩

/-- Of an update of a name nothing is reported but that it is not bound, or that the value does not
fit. -/
theorem Accounts.update {x : String} {line : Nat} (ds : List Diagnostic)
    (hn : s'.names = s.names) (he : s'.environment.enclosing = s.environment.enclosing)
    (hd : s'.diagnostics = s.diagnostics ++ ds)
    (hundeclared : ds.filter (·.isUndeclared) =
      if x ∈ s.names then [] else [⟨line, .undeclaredTarget x⟩])
    (hundefined : ds.filter (·.isUndefined) = []) :
    Accounts [.update x line] [.update x line] s s' where
  visits := .refl _
  sameBinders := rfl
  names := hn
  enclosing := he
  reports := by
    refine ⟨ds, hd, ?_, ?_⟩
    · rw [hundeclared, unbound]
      split <;> rfl
    · rw [hundefined, unbound]
      split <;> rfl

/-- An assignment to a variable binds it, or combines a value with it if it is bound. -/
theorem Accounts.assigned (s : Checker Scopes) (line : Nat) (x : String) (op : AssignOperator)
    (t : Option Ty) (l : Location) :
    Accounts (Node.walkTarget op line ⟨x, [], l⟩) (Node.walkTarget op line ⟨x, [], l⟩) s
      (Check.assigned line x op t s).2 := by
  cases op with
  | plain => exact .bindName s x t
  | compound op =>
    have hfind : (Environment.find? s.environment x).isSome ↔ x ∈ s.names :=
      Table.find?_isSome_iff
    rw [Node.walkTarget, if_neg (by simp)]
    simp only [Check.assigned, AssignOperator.arithmetic?, Check.bind_apply, Check.find?]
    cases hb : Environment.find? s.environment x with
    | none =>
      have hx : x ∉ s.names := by simpa [hb] using hfind
      exact .update _ rfl rfl rfl (by rw [if_neg hx]; rfl) rfl
    | some b =>
      have hx : x ∈ s.names := by simpa [hb] using hfind
      have hreport {v : Violation} (hv : (⟨line, v⟩ : Diagnostic).isUndeclared = false ∧
          (⟨line, v⟩ : Diagnostic).isUndefined = false) :
          Accounts [.update x line] [.update x line] s (Check.report line v s).2 :=
        .update [⟨line, v⟩] rfl rfl rfl (by simp [hx, hv.1]) (by simp [hv.2])
      obtain ⟨_, old?⟩ := b
      cases old? with
      | none => exact hreport (v := .unknownAssignedValue) ⟨rfl, rfl⟩
      | some old =>
        cases t with
        | none => exact hreport (v := .unknownAssignedValue) ⟨rfl, rfl⟩
        | some new =>
          dsimp only
          cases old.combine (.plain op) new with
          | error fault => exact hreport (v := .combination fault) ⟨rfl, rfl⟩
          | ok u =>
            have hput : (s.environment.innermost.put ⟨x, some u⟩).names = s.names :=
              (Table.names_put _ _).trans (if_pos hx)
            exact .update [] hput rfl (List.append_nil _).symm (by simp [hx]) rfl

end Checker

namespace Node

open Check Checker

section Statements

variable {e : Node} {b : Block Node} {s : Checker Scopes}

theorem consults_checkCondition (he : e.IsExpression) : Consults e.walk (checkCondition e) :=
  he.consults.finally fun _ => expressionLogic_consults.requireBoolean _ _

theorem consults_checkBounds {bounds : Bounds Node} (hl : bounds.lower.IsExpression)
    (hu : bounds.upper.IsExpression) : Consults (walkBounds bounds) (checkBounds bounds) :=
  expressionLogic_consults.checkBounds hl hu

theorem accounts_checkCounter (counter : Reference Node) {bounds : Bounds Node}
    (hl : bounds.lower.IsExpression) (hu : bounds.upper.IsExpression) :
    Accounts (walkBounds bounds ++ [.binder counter.name])
      (walkBounds bounds ++ [.binder counter.name]) s (checkCounter counter bounds s).2 :=
  (consults_checkBounds hl hu s).andThen (.bindName _ _ _)

theorem accounts_checkAssigned {r : Reference Node} (hr : ∀ i ∈ r.indices, i.IsExpression)
    (line : Nat) (op : AssignOperator) (t : Option Ty) (s : Checker Scopes) :
    Accounts (walkTarget op line r) (walkTarget op line r) s (checkAssigned line op t r s).2 := by
  obtain ⟨name, indices, l⟩ := r
  cases indices with
  | nil =>
    rw [checkAssigned]
    exact .assigned s line name op t l
  | cons index indices =>
    have hne : index :: indices ≠ [] := List.cons_ne_nil index indices
    exact (expressionLogic_consults.checkAssigned hr hne line op t s).toAccounts

theorem accounts_checkPayload {es : List Node} (h : ∀ e ∈ es, e.IsExpression)
    (s : Checker Scopes) :
    Accounts (walkList (checkedValues es s)) (walkList es) s (checkPayload es s).2 := by
  induction es generalizing s with
  | nil =>
    rw [checkedValues, checkPayload, walkList]
    exact (Checker.Consults.refl s).toAccounts
  | cons e es ih =>
    rw [List.forall_mem_cons] at h
    have he := (h.1.consults s).toAccounts
    rw [checkedValues, checkPayload, bind_apply, walkList, walkList]
    split
    · have hes := expressionLogic_consults.checkIndices (fun i hi => (h.2 i hi).consults) s
      rw [walkList, List.append_nil]
      exact he.passOver hes.uses
    · exact he.trans (ih h.2 _)

/-- Checking the statement goes through all of it, and binds and reports what it says. -/
def Accounted (n : Node) : Prop :=
  ∀ s : Checker Scopes, s.names.Nodup → Accounts (n.visited s) n.walk s (check n s).2

theorem accounts_checkStatements {ns : List Node} (h : ∀ n ∈ ns, Accounted n)
    (hs : s.names.Nodup) :
    Accounts (visitedList ns s) (walkList ns) s (checkStatements ns s).2 := by
  induction ns generalizing s with
  | nil =>
    rw [visitedList, checkStatements, walkList]
    exact (Checker.Consults.refl s).toAccounts
  | cons n ns ih =>
    rw [List.forall_mem_cons] at h
    rw [visitedList, checkStatements, walkList]
    have hn := h.1 s hs
    exact hn.trans (ih h.2 (hn.nodup hs))

theorem accounts_inBlock_checkBlock (hb : ∀ n ∈ b.statements, Accounted n)
    (hs : s.names.Nodup) :
    Accounts (visitedBlock b s.entered) (walkBlock b) s (inBlock (checkBlock b) s).2 := by
  obtain ⟨statements, l⟩ := b
  rw [visitedBlock, walkBlock, checkBlock]
  exact .inBlock hs (accounts_checkStatements hb hs)

theorem accounted_instruction {i : Instruction} {es : List Node} (l : Location)
    (he : ∀ e ∈ es, e.IsExpression) : Accounted (.instruction i es l) := by
  intro s _
  have hpayload (s' : Checker Scopes) (henv : s'.environment = s.environment)
      (hloop : s'.loopDepth = s.loopDepth) :
      Accounts (walkList (checkedValues es s)) (walkList es) s'
        ((checkPayload es >>= fun all =>
          if all then pure none else report l.line (.unknownPayload i) >>= fun _ => pure none :
            Check Scopes (Option Ty)) s').2 := by
    have hlast (all : Bool) : Consults []
        (if all then pure none else report l.line (.unknownPayload i) >>= fun _ => pure none :
          Check Scopes (Option Ty)) :=
      holds_ite (consults_pure _) (expressionLogic_consults.reported l.line (by trivial) none)
    have h := (accounts_checkPayload he s').trans (hlast (checkPayload es s').1 _).toAccounts
    rwa [List.append_nil, List.append_nil, checkedValues_congr ⟨henv, hloop, trivial⟩] at h
  have hreport : Consults [] (report l.line (.outsideLoop i) : Check Scopes Unit) :=
    consults_report ⟨rfl, rfl⟩
  rw [visited, check, walk, bind_apply]
  split
  · exact (hreport s).andThen (hpayload _ rfl rfl)
  · exact hpayload s rfl rfl

theorem accounts_conditional {a : Option (Alternative Node)} (l : Location)
    (he : e.IsExpression) (hb : ∀ n ∈ b.statements, Accounted n)
    (ha : ∀ s : Checker Scopes, s.names.Nodup →
      Accounts (visitedAlternative a s) (walkAlternative a) s (checkAlternative a s).2) :
    Accounted (.conditional e b a l) := by
  intro s hs
  have hcondition := consults_checkCondition he s
  have hblock := accounts_inBlock_checkBlock hb (hcondition.nodup hs)
  have halternative := ha _ (hblock.nodup (hcondition.nodup hs))
  rw [check_conditional_snd, visited, walk]
  exact (hcondition.andThen hblock).trans halternative

theorem IsStatement.accounted {n : Node} (hn : n.IsStatement) : Accounted n := by
  induction hn with
  | @assignment r op e l hr he =>
    intro s _
    simp only [check, visited, walk]
    exact (he.consults s).andThen (accounts_checkAssigned hr l.line op _ _)
  | @instruction i es l he => exact accounted_instruction l he
  | @expression e l he =>
    intro s _
    simp only [check, visited, walk]
    exact (he.consults s).toAccounts
  | @conditional e b l he _ ih =>
    refine accounts_conditional l he ih fun s _ => ?_
    rw [visitedAlternative, checkAlternative, walkAlternative]
    exact (Checker.Consults.refl s).toAccounts
  | @elseIf e b l e' b' a' l' he _ _ ih ih' =>
    refine accounts_conditional l he ih fun s hs => ?_
    rw [visitedAlternative, checkAlternative, walkAlternative]
    exact ih' s hs
  | @elseBlock e b b' l he _ _ ih ih' =>
    refine accounts_conditional l he ih fun s hs => ?_
    rw [visitedAlternative, checkAlternative, walkAlternative]
    exact accounts_inBlock_checkBlock ih' hs
  | @whileLoop e b l he _ ih =>
    intro s hs
    have hcondition := consults_checkCondition he s
    have hblock := accounts_inBlock_checkBlock (s := (checkCondition e s).2.looping) ih
      (hcondition.nodup hs)
    rw [check_whileLoop_snd, visited, walk]
    exact hcondition.andThen hblock.inBody
  | @forLoop x lx bounds b l hl hu _ ih =>
    intro s hs
    have hcounter : Accounts _ _ s _ := accounts_checkCounter ⟨x, [], lx⟩ hl hu
    have hblock := accounts_inBlock_checkBlock
      (s := (checkCounter ⟨x, [], lx⟩ bounds s).2.looping) ih (hcounter.nodup hs)
    rw [check_forLoop_snd, visited, walk, List.append_cons, List.append_cons _ _ (walkBlock b)]
    exact hcounter.trans hblock.inBody

theorem accounts_statements {ns : List Node} (hn : ∀ n ∈ ns, n.IsStatement)
    (hs : s.names.Nodup) :
    Accounts (visitedList ns s) (walkList ns) s (checkStatements ns s).2 :=
  accounts_checkStatements (fun n hm => (hn n hm).accounted) hs

end Statements

section Points

variable {n : Node} {ns : List Node} {w : List Occurrence} {s c : Checker Scopes}

/-- Where a check comes to, the binders on the way are bound. -/
theorem Comes.names_eq (h : Comes ns s w n c) (hn : ∀ n ∈ ns, n.IsStatement)
    (hs : s.names.Nodup) : c.names = addNames s.names (binders w) := by
  have hnext {u v w : List Occurrence} {s s' c : Checker Scopes}
      (h : Accounts u v s s') (hc : c.names = addNames s'.names (binders w)) :
      c.names = addNames s.names (binders (v ++ w)) := by
    rw [hc, h.names, binders_append, addNames_append]
  induction h with
  | here => rfl
  | later _ ih =>
    rw [List.forall_mem_cons] at hn
    have h := hn.1.accounted _ hs
    exact hnext h (ih hn.2 (h.nodup hs))
  | @consequent _ _ _ _ _ s _ _ _ _ ih =>
    rw [List.forall_mem_cons] at hn
    obtain ⟨he, hb, _⟩ := hn.1.parts_of_conditional
    have h := (consults_checkCondition he s).toAccounts
    exact hnext h (ih hb (h.nodup hs))
  | @elseIf _ _ _ _ _ s _ _ _ _ ih =>
    rw [List.forall_mem_cons] at hn
    obtain ⟨he, hb, hn, _⟩ := hn.1.parts_of_conditional
    have h := (consults_checkCondition he s).toAccounts
    have h' := accounts_inBlock_checkBlock (fun n hm => (hb n hm).accounted) (h.nodup hs)
    exact hnext (h.trans h') (ih (by simpa using hn) (h'.nodup (h.nodup hs)))
  | @elseBlock _ _ _ _ _ s _ _ _ _ ih =>
    rw [List.forall_mem_cons] at hn
    obtain ⟨he, hb, _, hb'⟩ := hn.1.parts_of_conditional
    have h := (consults_checkCondition he s).toAccounts
    have h' := accounts_inBlock_checkBlock (fun n hm => (hb n hm).accounted) (h.nodup hs)
    exact hnext (h.trans h') (ih (hb' _ rfl) (h'.nodup (h.nodup hs)))
  | @whileBody _ _ _ _ s _ _ _ _ ih =>
    rw [List.forall_mem_cons] at hn
    cases hn.1 with
    | whileLoop he hb =>
      have h := (consults_checkCondition he s).toAccounts
      exact hnext h (ih hb (h.nodup hs))
  | @forBody _ _ _ _ _ s _ _ _ _ ih =>
    rw [List.forall_mem_cons] at hn
    cases hn.1 with
    | @forLoop x lx _ _ _ hl hu hb =>
      have h : Accounts _ _ s _ := accounts_checkCounter ⟨x, [], lx⟩ hl hu
      exact hnext h (ih hb (h.nodup hs))

end Points

end Node

end MatrixLang
