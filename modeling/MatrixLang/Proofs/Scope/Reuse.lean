import MatrixLang.Proofs.Checking.Quiet
import MatrixLang.Proofs.Scope.Check
import MatrixLang.Proofs.Scope.Reported

/-! # Checking with a used checker

A program that reads no name before it binds it is checked alike whatever the checker has seen
before: what the program finds on its own lies over the old bindings and behind the old diagnostics.
-/

namespace MatrixLang

def Diagnostic.IsUnbound (d : Diagnostic) : Prop := d.isUndefined = true ∨ d.isUndeclared = true

instance (d : Diagnostic) : Decidable d.IsUnbound := inferInstanceAs (Decidable (_ ∨ _))

/-- The checker `t` has seen what the checker `s` has, and before it the bindings of `base` and the
diagnostics `old`. -/
structure Checker.Overlays (base : Table) (old : List Diagnostic) (s t : Checker Table) : Prop where
  find? : ∀ x, t.environment.find? x = (s.environment.find? x).or (base.find? x)
  loopDepth : t.loopDepth = s.loopDepth
  diagnostics : t.diagnostics = old ++ s.diagnostics

namespace Check

open Checker

variable {α β : Type}

/-- From `s` on the check comes to no name that is not bound. -/
def Closed (c : Check Table α) (s : Checker Table) : Prop :=
  ∀ d ∈ (c s).2.diagnostics, ¬ d.IsUnbound

/-- The check `c` only adds diagnostics, and if it comes to no name that is not bound, then `d` does
the same over any bindings. -/
structure Reuses (base : Table) (old : List Diagnostic) (c d : Check Table α) : Prop where
  grows : Grows c
  overlays : ∀ ⦃s t⦄, Overlays base old s t → Closed c s →
    (d t).1 = (c s).1 ∧ Overlays base old (c s).2 (d t).2

variable {base : Table} {old : List Diagnostic} {c d : Check Table α}
  {f g : α → Check Table β} {s t : Checker Table}

theorem Closed.left (hf : ∀ a, Grows (f a)) (h : Closed (c >>= f) s) : Closed c s := fun e he =>
  h e (((hf (c s).1).prefix_diagnostics (c s).2).subset he)

namespace Reuses

theorem pure (a : α) : Reuses base old (Pure.pure a) (Pure.pure a) :=
  ⟨inferInstance, fun _ _ h _ => ⟨rfl, h⟩⟩

theorem bind (hc : Reuses base old c d) (hf : ∀ a, Reuses base old (f a) (g a)) :
    Reuses base old (c >>= f) (d >>= g) where
  grows :=
    have := hc.grows
    have := fun a => (hf a).grows
    inferInstance
  overlays s t h hclosed := by
    obtain ⟨hresult, hstate⟩ := hc.overlays h (hclosed.left fun a => (hf a).grows)
    rw [bind_apply, bind_apply, hresult]
    exact (hf (c s).1).overlays hstate hclosed

theorem report (line : Nat) (v : Violation) :
    Reuses base old (report line v) (report line v) where
  grows := inferInstance
  overlays s t h _ := by
    refine ⟨rfl, h.find?, h.loopDepth, ?_⟩
    simp only [Check.report, h.diagnostics, List.append_assoc]

theorem bindName (x : String) (type? : Option Ty) :
    Reuses base old (bindName x type?) (bindName x type?) where
  grows := inferInstance
  overlays s t h _ := by
    refine ⟨rfl, fun y => ?_, h.loopDepth, h.diagnostics⟩
    have hput (u : Table) :
        (u.put ⟨x, type?⟩).find? y = if x = y then some ⟨x, type?⟩ else u.find? y :=
      u.find?_put ⟨x, type?⟩ y
    simp only [Check.bindName, Environment.put, hput, h.find?]
    split <;> rfl

/-- A name may be looked up if what follows reports that it is not bound. -/
theorem bindFind? {x : String} {f : Option Binding → Check Table α}
    (hgrows : Grows (find? x >>= f)) (hnone : ∀ s, ¬ Closed (f none) s)
    (hsome : ∀ b, Reuses base old (f (some b)) (f (some b))) :
    Reuses base old (find? x >>= f) (find? x >>= f) where
  grows := hgrows
  overlays s t h hclosed := by
    have ht := h.find? x
    have hfind (s : Checker Table) : (find? x >>= f) s = f (s.environment.find? x) s := rfl
    rw [Closed, hfind] at hclosed
    rw [hfind, hfind]
    cases hs : s.environment.find? x with
    | none =>
      rw [hs] at hclosed
      exact absurd hclosed (hnone s)
    | some b =>
      rw [hs, Option.some_or] at ht
      rw [hs] at hclosed
      rw [ht]
      exact (hsome b).overlays h hclosed

theorem not_closed_report {line : Nat} {v : Violation} {k : Check Table α}
    (hk : Grows k) (hv : Diagnostic.IsUnbound ⟨line, v⟩) (s : Checker Table) :
    ¬ Closed (Check.report line v >>= fun _ => k) s := fun h =>
  h.left (fun _ => hk) _ (List.mem_append_right _ (List.mem_singleton_self _)) hv

theorem variableType (line : Nat) (x : String) :
    Reuses base old (variableType line x) (variableType line x) :=
  bindFind? (inferInstanceAs (Grows (Check.variableType line x)))
    (not_closed_report inferInstance (.inl rfl)) fun b => pure b.type?

theorem assigned (line : Nat) (x : String) (op : AssignOperator) (value : Option Ty) :
    Reuses base old (assigned line x op value) (assigned line x op value) := by
  have hgrows : Grows (Check.assigned (ε := Table) line x op value) :=
    Grows.congruence.onEqualLines.assigned rfl x op value
  unfold Check.assigned at *
  cases hop : op.arithmetic? with
  | none => exact bindName x value
  | some op =>
    rw [hop] at hgrows
    refine bindFind? hgrows ?_ fun b => ?_
    · exact not_closed_report (.pure ()) (.inr rfl)
    · dsimp only
      split
      · split
        · exact bindName x _
        · exact report line _
      · exact report line _

theorem nameCongruence :
    NameCongruence Eq fun {α} (c d : Check Table α) => Reuses base old c d where
  pure := pure
  bind := bind
  report v hline := hline ▸ report _ v
  inLoop := ⟨inferInstance, fun _ _ h _ => ⟨by simp only [inLoop, h.loopDepth], h⟩⟩
  variableType x hline := hline ▸ variableType _ x
  assigned x op value hline := hline ▸ assigned _ x op value
  bindName := bindName
  inBody {α c d} h :=
    have := h.grows
    { grows := inferInstance
      overlays := fun s t hst hclosed => by
        have hb := h.overlays (s := { s with loopDepth := s.loopDepth + 1 })
          (t := { t with loopDepth := t.loopDepth + 1 })
          ⟨hst.find?, congrArg (· + 1) hst.loopDepth, hst.diagnostics⟩ hclosed
        exact ⟨hb.1, hb.2.find?, congrArg (· - 1) hb.2.loopDepth, hb.2.diagnostics⟩ }
  inBlock {α c d} h :=
    have := h.grows
    { grows := inferInstance
      overlays := h.overlays }

end Reuses

end Check

section Names

variable {ns ms : List String}

theorem addNames_eq_self (h : ∀ x ∈ ms, x ∈ ns) : addNames ns ms = ns := by
  induction ms with
  | nil => rfl
  | cons m ms ih =>
    rw [List.forall_mem_cons] at h
    have hm : addName ns m = ns := if_pos h.1
    rw [addNames, List.foldl_cons, hm]
    exact ih h.2

end Names

namespace Checker

/-- A checker that has checked the programs, one after the other. -/
def reused (ps : List Program) : Checker Scopes := ps.foldl (fun s p => s.program p) initial

/-- Between programs a checker is in no block and in no loop, and like one over the table `t`. -/
structure BetweenPrograms (s : Checker Scopes) (t : Checker Table) : Prop where
  flattens : s.Flattens t
  loopDepth : s.loopDepth = 0
  depth : s.environment.depth = 1

variable {s : Checker Scopes} {t : Checker Table} {p : Program}

namespace BetweenPrograms

theorem initial : BetweenPrograms initial flat := ⟨flattens_initial, rfl, rfl⟩

theorem program (h : BetweenPrograms s t) (p : Program) :
    BetweenPrograms (s.program p) (t.program p) := by
  have hstep := Node.checkBlock_congr Check.Simulates.congruence p h.flattens
  exact ⟨hstep.state, hstep.loopDepth.trans h.loopDepth, hstep.depth.trans h.depth⟩

theorem exists_reused (ps : List Program) : ∃ t, BetweenPrograms (reused ps) t := by
  rw [reused]
  generalize hs : Checker.initial = s
  have h : ∃ t, BetweenPrograms s t := ⟨flat, hs ▸ .initial⟩
  clear hs
  induction ps generalizing s with
  | nil => exact h
  | cons p ps ih =>
    obtain ⟨t, h⟩ := h
    exact ih _ ⟨_, h.program p⟩

theorem environment_eq (h : BetweenPrograms s t) : s.environment = ⟨t.environment, []⟩ := by
  have henclosing : s.environment.enclosing = [] := by
    have hdepth := h.depth
    rw [Scopes.depth] at hdepth
    exact List.eq_nil_of_length_eq_zero (by omega)
  have htable := h.flattens.environment.toTable
  rw [Scopes.toTable, henclosing, Scopes.closeAll] at htable
  rw [← htable, ← henclosing]

theorem bindings_findings (h : BetweenPrograms s t) : s.findings.bindings = t.environment := by
  rw [Checker.findings, h.environment_eq]
  rfl

end BetweenPrograms

/-- What a program finds on its own lies over what the checker has found before. -/
theorem BetweenPrograms.findings (h : BetweenPrograms s t)
    (hclosed : ∀ d ∈ p.findings.diagnostics, ¬ d.IsUnbound) :
    (s.program p).diagnostics = s.diagnostics ++ p.findings.diagnostics ∧
      ∀ x, (s.program p).environment.find? x =
        (p.findings.bindings.find? x).or (s.environment.find? x) := by
  have hp := Program.findings_eq p
  have hover : Overlays t.environment t.diagnostics flat t := by
    refine ⟨fun x => ?_, h.flattens.loopDepth.symm.trans h.loopDepth, (List.append_nil _).symm⟩
    rfl
  have hreuses : Check.Reuses t.environment t.diagnostics (Node.checkBlock p)
      (Node.checkBlock p) := by
    simpa only [Node.movedBlock_id] using Node.checkBlock_moved (f := id) (g := id)
      Check.Reuses.nameCongruence (fun _ => rfl) p
  rw [hp] at hclosed ⊢
  obtain ⟨_, hover⟩ := hreuses.overlays hover hclosed
  have hstep := h.program p
  refine ⟨?_, fun x => ?_⟩
  · rw [hstep.flattens.diagnostics, h.flattens.diagnostics]
    exact hover.diagnostics
  · rw [hstep.flattens.environment.find?, h.flattens.environment.find?]
    exact hover.find? x

end Checker

namespace Program

open Checker

variable {p : Program} {cs : List Char}

theorem isSome_find?_bindings_iff (h : ofText cs = .ok p) {x : String} :
    (p.findings.bindings.find? x).isSome ↔ x ∈ binders p.walk := by
  have hnames : p.findings.bindings.names = addNames [] (binders p.walk) := by
    rw [bindings_findings_eq h]
    exact (accounts_ofText h).names
  rw [Table.find?_isSome_iff, hnames, mem_addNames]
  exact or_iff_right List.not_mem_nil

/-- A second check of a program right behind the first one repeats its diagnostics and leaves the
bindings as they are. -/
theorem program_program (h : ofText cs = .ok p) {s : Checker Scopes} {t : Checker Table}
    (hs : BetweenPrograms s t) (hclosed : ∀ d ∈ p.findings.diagnostics, ¬ d.IsUnbound) :
    (s.program p).program p =
      { s.program p with
        diagnostics := (s.program p).diagnostics ++ p.findings.diagnostics } := by
  have hfirst := hs.program p
  have hsecond := hfirst.program p
  obtain ⟨_, hfind⟩ := hs.findings hclosed
  obtain ⟨hdiagnostics, hfind'⟩ := hfirst.findings hclosed
  have hnodup : s.names.Nodup := by
    rw [Checker.names, hs.environment_eq]
    exact hs.flattens.environment.nodup
  have haccounts := accounts_program h hnodup
  have haccounts' := accounts_program h (haccounts.nodup hnodup)
  have hnames : ((s.program p).program p).names = (s.program p).names := by
    rw [haccounts'.names, addNames_eq_self]
    intro x hx
    rw [haccounts.names, mem_addNames]
    exact .inr hx
  have htable : ((t.program p).program p).environment = (t.program p).environment := by
    refine Table.eq_of_find? hsecond.flattens.environment.nodup ?_ fun x => ?_
    · rwa [Checker.names, Checker.names, hsecond.environment_eq, hfirst.environment_eq] at hnames
    · have hx := hfind' x
      rw [hfind x, ← Option.or_assoc, Option.or_self, ← hfind x] at hx
      rwa [hsecond.environment_eq, hfirst.environment_eq] at hx
  have henvironment : ((s.program p).program p).environment = (s.program p).environment := by
    rw [hsecond.environment_eq, hfirst.environment_eq, htable]
  have hloop : ((s.program p).program p).loopDepth = (s.program p).loopDepth := by
    rw [hsecond.loopDepth, hfirst.loopDepth]
  calc (s.program p).program p
      = ⟨((s.program p).program p).environment, ((s.program p).program p).loopDepth,
          ((s.program p).program p).diagnostics⟩ := rfl
    _ = _ := by rw [henvironment, hloop, hdiagnostics]

/-- A program that comes to no name that is not bound is checked alike whatever has been checked
before. It has the diagnostics that it has on its own, the names that it binds are bound as on its
own and all others stay as they are, and checking it once more changes nothing but that its
diagnostics are repeated. -/
theorem findings_reused (ps : List Program) (h : ofText cs = .ok p)
    (hclosed : ∀ d ∈ p.findings.diagnostics, ¬ d.IsUnbound) :
    let used := reused ps
    let again := used.program p
    again.findings.diagnostics = used.findings.diagnostics ++ p.findings.diagnostics ∧
    (∀ x ∈ binders p.walk, ∃ b, p.findings.bindings.find? x = some b ∧
      again.findings.bindings.find? x = some b) ∧
    (∀ x ∉ binders p.walk,
      again.findings.bindings.find? x = used.findings.bindings.find? x) ∧
    again.program p =
      { again with diagnostics := again.diagnostics ++ p.findings.diagnostics } := by
  intro used again
  obtain ⟨t, hs⟩ := BetweenPrograms.exists_reused ps
  obtain ⟨hdiagnostics, hfind⟩ := hs.findings hclosed
  have hbindings : ∀ x, again.findings.bindings.find? x =
      (p.findings.bindings.find? x).or (used.findings.bindings.find? x) := by
    intro x
    rw [(hs.program p).bindings_findings, hs.bindings_findings]
    have hx := hfind x
    rwa [(hs.program p).environment_eq, hs.environment_eq] at hx
  refine ⟨hdiagnostics, fun x hx => ?_, fun x hx => ?_, program_program h hs hclosed⟩
  · obtain ⟨b, hb⟩ := Option.isSome_iff_exists.mp ((isSome_find?_bindings_iff h).mpr hx)
    refine ⟨b, hb, ?_⟩
    rw [hbindings, hb, Option.some_or]
  · have hnone : p.findings.bindings.find? x = none :=
      Option.not_isSome_iff_eq_none.mp (mt (isSome_find?_bindings_iff h).mp hx)
    rw [hbindings, hnone, Option.none_or]

section Update

def updateText : List Char := "x = 1;\nx += \"a\"; y = x;".toList

def updateTokens : List Token :=
  [⟨.name "x", ⟨1, 1⟩⟩, ⟨.symbol (.assign .plain), ⟨1, 3⟩⟩, ⟨.integer 1, ⟨1, 5⟩⟩,
    ⟨.symbol .semicolon, ⟨1, 6⟩⟩, ⟨.name "x", ⟨2, 1⟩⟩,
    ⟨.symbol (.assign (.compound .add)), ⟨2, 3⟩⟩, ⟨.string "a", ⟨2, 6⟩⟩,
    ⟨.symbol .semicolon, ⟨2, 9⟩⟩, ⟨.name "y", ⟨2, 11⟩⟩, ⟨.symbol (.assign .plain), ⟨2, 13⟩⟩,
    ⟨.name "x", ⟨2, 15⟩⟩, ⟨.symbol .semicolon, ⟨2, 16⟩⟩, ⟨.endOfInput, ⟨2, 17⟩⟩]

def updateProgram : Program :=
  ⟨[.assignment ⟨"x", [], ⟨1, 1⟩⟩ .plain (.integer 1 ⟨1, 5⟩) ⟨1, 3⟩,
    .assignment ⟨"x", [], ⟨2, 1⟩⟩ (.compound .add) (.string "a" ⟨2, 6⟩) ⟨2, 3⟩,
    .assignment ⟨"y", [], ⟨2, 11⟩⟩ .plain (.reference ⟨"x", [], ⟨2, 15⟩⟩) ⟨2, 13⟩], ⟨1, 1⟩⟩

theorem ofText_updateText : ofText updateText = .ok updateProgram := by
  have ht : (Scan.ofText updateText).tokens = updateTokens := by decide +kernel
  rw [ofText, ht]
  rfl

def earlierProgram : Program :=
  ⟨[.assignment ⟨"x", [], ⟨1, 1⟩⟩ .plain (.string "s" ⟨1, 5⟩) ⟨1, 3⟩,
    .assignment ⟨"z", [], ⟨1, 10⟩⟩ .plain (.reference ⟨"x", [], ⟨1, 14⟩⟩) ⟨1, 12⟩], ⟨1, 1⟩⟩

theorem findings_updateProgram :
    ofText updateText = .ok updateProgram ∧
      (∀ d ∈ updateProgram.findings.diagnostics, ¬ d.IsUnbound) ∧
      updateProgram.findings.diagnostics =
        [⟨2, .combination (.operands (.plain .add) .int .string)⟩] ∧
      let used := reused [earlierProgram]
      let again := used.program updateProgram
      again.findings.diagnostics = used.findings.diagnostics ++ updateProgram.findings.diagnostics ∧
      again.findings.bindings.find? "x" = some ⟨"x", some .int⟩ ∧
      again.findings.bindings.find? "z" = used.findings.bindings.find? "z" ∧
      again.program updateProgram =
        { again with
          diagnostics := again.diagnostics ++ updateProgram.findings.diagnostics } := by
  have hdiagnostics : updateProgram.findings.diagnostics =
      [⟨2, .combination (.operands (.plain .add) .int .string)⟩] := rfl
  have hclosed : ∀ d ∈ updateProgram.findings.diagnostics, ¬ d.IsUnbound := by
    rw [hdiagnostics]
    decide
  obtain ⟨hagain, hbound, hothers, htwice⟩ :=
    findings_reused [earlierProgram] ofText_updateText hclosed
  obtain ⟨b, hb, hx⟩ := hbound "x" (by decide)
  obtain rfl : b = ⟨"x", some .int⟩ := (Option.some.inj hb).symm
  exact ⟨ofText_updateText, hclosed, hdiagnostics, hagain, hx, hothers "z" (by decide), htwice⟩

end Update

end Program

end MatrixLang
