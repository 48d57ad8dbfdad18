import MatrixLang.Proofs.Checking.Expression

/-! # Expressions read names

Checking an expression binds nothing. It comes to every name in the expression, whatever is wrong
with the others, and reports those that are not bound.
-/

namespace MatrixLang

def Checker.names (s : Checker Scopes) : List String := s.environment.innermost.names

/-- From the state `s` to the state `s'` a check goes through the occurrences `w`, of which it comes
to those of `v`: it binds all binders in the scope that is open, and reports all updates without one
in front and the uses in `v` without one in front. -/
structure Checker.Accounts (v w : List Occurrence) (s s' : Checker Scopes) : Prop where
  visits : v.Sublist w
  sameBinders : binders v = binders w
  names : s'.names = addNames s.names (binders w)
  enclosing : s'.environment.enclosing = s.environment.enclosing
  reports : ∃ ds, s'.diagnostics = s.diagnostics ++ ds ∧
    ds.filter (·.isUndeclared) = (unbound s.names w).filterMap (·.undeclared?) ∧
    ds.filter (·.isUndefined) = (unbound s.names v).filterMap (·.undefined?)

/-- A check that comes to all of the occurrences `w`, which are uses, and binds nothing. -/
structure Checker.Consults (w : List Occurrence) (s s' : Checker Scopes) : Prop
    extends Accounts w w s s' where
  environment : s'.environment = s.environment
  uses : ∀ o ∈ w, o.binder? = none ∧ o.undeclared? = none

theorem Table.find?_isSome_iff {t : Table} {name : String} :
    (t.find? name).isSome ↔ name ∈ t.names := by
  simp [find?, names]

namespace Checker

variable {v w v' w' : List Occurrence} {s s' s'' : Checker Scopes}

theorem Accounts.nodup (h : Accounts v w s s') (hs : s.names.Nodup) : s'.names.Nodup :=
  h.names ▸ nodup_addNames hs

theorem Accounts.trans (h : Accounts v w s s') (h' : Accounts v' w' s' s'') :
    Accounts (v ++ v') (w ++ w') s s'' where
  visits := h.visits.append h'.visits
  sameBinders := by rw [binders_append, binders_append, h.sameBinders, h'.sameBinders]
  names := by rw [h'.names, h.names, binders_append, addNames_append]
  enclosing := h'.enclosing.trans h.enclosing
  reports := by
    have hnames (u : List Occurrence) :
        unbound s'.names u = unbound (s.names ++ binders w) u :=
      unbound_congr fun x => by rw [h.names, mem_addNames, List.mem_append]
    obtain ⟨ds, hd, hundeclared, hundefined⟩ := h.reports
    obtain ⟨es, he, hundeclared', hundefined'⟩ := h'.reports
    rw [hnames] at hundeclared' hundefined'
    refine ⟨ds ++ es, by rw [he, hd, List.append_assoc], ?_, ?_⟩
    · rw [unbound_append, List.filter_append, List.filterMap_append, hundeclared, hundeclared']
    · rw [unbound_append, List.filter_append, List.filterMap_append, hundefined, hundefined',
        h.sameBinders]

/-- A check that leaves the bindings alone and reports the uses that are not bound. -/
theorem Consults.of_environment (ds : List Diagnostic) (henv : s'.environment = s.environment)
    (hw : ∀ o ∈ w, o.binder? = none ∧ o.undeclared? = none)
    (hd : s'.diagnostics = s.diagnostics ++ ds) (hundeclared : ds.filter (·.isUndeclared) = [])
    (hundefined : ds.filter (·.isUndefined) = (unbound s.names w).filterMap (·.undefined?)) :
    Consults w s s' where
  visits := .refl w
  sameBinders := rfl
  names := by rw [binders_eq_nil hw, names, henv, names, addNames, List.foldl_nil]
  enclosing := by rw [henv]
  reports := ⟨ds, hd, hundeclared.trans (filterMap_undeclared?_eq_nil hw).symm, hundefined⟩
  environment := henv
  uses := hw

theorem Consults.refl (s : Checker Scopes) : Consults [] s s :=
  .of_environment [] rfl nofun (List.append_nil _).symm rfl rfl

theorem Consults.trans (h : Consults v s s') (h' : Consults w s' s'') :
    Consults (v ++ w) s s'' where
  toAccounts := h.toAccounts.trans h'.toAccounts
  environment := h'.environment.trans h.environment
  uses := List.forall_mem_append.mpr ⟨h.uses, h'.uses⟩

theorem Consults.andThen (h : Consults v s s') (h' : Accounts v' w s' s'') :
    Accounts (v ++ v') (v ++ w) s s'' :=
  h.toAccounts.trans h'

end Checker

namespace Check

variable {α β : Type} {v w : List Occurrence} {c : Check Scopes α} {f : α → Check Scopes β}

/-- The check goes through the occurrences `w` and binds nothing, wherever it starts. -/
def Consults (w : List Occurrence) (c : Check Scopes α) : Prop :=
  ∀ s, Checker.Consults w s (c s).2

theorem consults_pure (a : α) : Consults [] (pure a) := Checker.Consults.refl

theorem Consults.bind (hc : Consults v c) (hf : ∀ a, Consults w (f a)) :
    Consults (v ++ w) (c >>= f) :=
  fun s => (hc s).trans (hf (c s).1 (c s).2)

theorem Consults.finally (hc : Consults w c) (hf : ∀ a, Consults [] (f a)) :
    Consults w (c >>= f) := by
  have h := hc.bind hf
  rwa [List.append_nil] at h

theorem consults_report {line : Nat} {x : Violation}
    (hx : (⟨line, x⟩ : Diagnostic).isUndeclared = false ∧
      (⟨line, x⟩ : Diagnostic).isUndefined = false) :
    Consults [] (report line x : Check Scopes Unit) := fun _ =>
  .of_environment [⟨line, x⟩] rfl nofun rfl (by simp [hx.1]) (by simp [hx.2, unbound])

theorem consults_variableType (line : Nat) (name : String) :
    Consults [.use name line] (variableType line name : Check Scopes (Option Ty)) := by
  intro s
  have hfind : (Environment.find? s.environment name).isSome ↔ name ∈ s.names :=
    Table.find?_isSome_iff
  have huse : ∀ o ∈ [Occurrence.use name line], o.binder? = none ∧ o.undeclared? = none := by
    simp [Occurrence.binder?, Occurrence.undeclared?]
  rw [variableType, bind_apply, find?]
  cases hb : Environment.find? s.environment name with
  | none =>
    have hn : name ∉ s.names := by simpa [hb] using hfind
    have hundefined : (unbound s.names [.use name line]).filterMap (·.undefined?) =
        [⟨line, .undefinedVariable name⟩] := by
      simp [unbound, hn, Occurrence.undefined?]
    exact .of_environment _ rfl huse rfl rfl hundefined.symm
  | some b =>
    have hn : name ∈ s.names := by simpa [hb] using hfind
    exact .of_environment [] rfl huse (List.append_nil _).symm rfl (by simp [unbound, hn])

theorem expressionLogic_consults : ExpressionLogic @Consults where
  pure := consults_pure
  bind := Consults.bind
  report {v} _ hv := by cases v <;> first | exact hv.elim | exact consults_report ⟨rfl, rfl⟩
  variableType := consults_variableType

end Check

/-- Checking an expression goes through all of it and binds nothing. -/
theorem Node.IsExpression.consults {e : Node} (he : e.IsExpression) :
    Check.Consults e.walk (check e) :=
  Check.expressionLogic_consults.check he

end MatrixLang
