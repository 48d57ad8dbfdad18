import MatrixLang.Proofs.Checking.Expression
import MatrixLang.Proofs.Syntax.ExpressionSound

/-! # What checking an expression depends on

The check of an expression looks up the variables that occur in it and nothing else. Checkers that
agree on these give it the same type and report the same, whatever other names they have bound, in
whatever scopes and loops they are, and both are left as they were but for the reports.
-/

namespace MatrixLang

section Agreement

variable {ε : Type}

def Checker.reporting (s : Checker ε) (ds : List Diagnostic) : Checker ε :=
  { s with diagnostics := s.diagnostics ++ ds }

theorem Checker.reporting_nil (s : Checker ε) : s.reporting [] = s := by
  rw [reporting, List.append_nil]

theorem Checker.reporting_append (s : Checker ε) (ds es : List Diagnostic) :
    s.reporting (ds ++ es) = (s.reporting ds).reporting es := by
  simp only [reporting, List.append_assoc]

variable [Environment ε]

/-- The same entries, or none, for all variables that the occurrences `w` read. -/
def Checker.AgreeOn (w : List Occurrence) (s s' : Checker ε) : Prop :=
  ∀ name line, .use name line ∈ w →
    Environment.find? s.environment name = Environment.find? s'.environment name

theorem Checker.AgreeOn.mono {v w : List Occurrence} {s s' : Checker ε} (h : AgreeOn w s s')
    (hv : ∀ o ∈ v, o ∈ w) : AgreeOn v s s' :=
  fun name line ho => h name line (hv _ ho)

theorem Checker.AgreeOn.reporting {w : List Occurrence} {s s' : Checker ε} (h : AgreeOn w s s')
    (ds : List Diagnostic) : AgreeOn w (s.reporting ds) (s'.reporting ds) :=
  h

end Agreement

namespace Check

variable {ε α β : Type} [Environment ε] {v w : List Occurrence} {c : Check ε α}
  {f : α → Check ε β}

/-- In states that agree on the variables of `w` the check has the same result and adds the same
diagnostics, and it changes nothing else in either. -/
def Local (w : List Occurrence) (c : Check ε α) : Prop :=
  ∀ ⦃s s'⦄, Checker.AgreeOn w s s' →
    ∃ a ds, c s = (a, s.reporting ds) ∧ c s' = (a, s'.reporting ds)

theorem local_pure (a : α) : Local [] (pure a : Check ε α) := by
  intro s s' _
  refine ⟨a, [], ?_, ?_⟩ <;> rw [pure_apply, Checker.reporting_nil]

theorem Local.bind (hc : Local v c) (hf : ∀ a, Local w (f a)) : Local (v ++ w) (c >>= f) := by
  intro s s' h
  obtain ⟨a, ds, hs, hs'⟩ := hc (h.mono fun _ => List.mem_append_left w)
  have hw : Checker.AgreeOn w s s' := h.mono fun _ => List.mem_append_right v
  obtain ⟨b, es, ht, ht'⟩ := hf a (hw.reporting ds)
  refine ⟨b, ds ++ es, ?_, ?_⟩
  · rw [bind_apply, hs, ht, Checker.reporting_append]
  · rw [bind_apply, hs', ht', Checker.reporting_append]

theorem local_report (line : Nat) (x : Violation) : Local [] (report line x : Check ε Unit) :=
  fun _ _ _ => ⟨(), [⟨line, x⟩], rfl, rfl⟩

theorem local_variableType (line : Nat) (name : String) :
    Local [.use name line] (variableType line name : Check ε (Option Ty)) := by
  intro s s' h
  have hfind := h name line List.mem_cons_self
  rw [variableType, bind_apply, bind_apply, find?, find?, ← hfind]
  cases Environment.find? s.environment name with
  | none => exact ⟨none, [⟨line, .undefinedVariable name⟩], rfl, rfl⟩
  | some b => exact local_pure b.type? fun _ _ ho => absurd ho List.not_mem_nil

theorem expressionLogic_local : ExpressionLogic (ε := ε) Local where
  pure := local_pure
  bind := Local.bind
  report line _ := local_report line _
  variableType := local_variableType

end Check

namespace Checker

/-- An expression that any tokens give has the same type and the same reports in all states that
agree on the variables in it, and only the reports are added to the state. -/
theorem expression_of_agreeOn {d : Nat} {ts rest : List Token} {e : Node}
    (he : Grammar.expression d ts = .ok e rest) {s s' : Checker Scopes}
    (h : AgreeOn e.walk s s') :
    ∃ type? ds, s.expression e = (type?, s.reporting ds) ∧
      s'.expression e = (type?, s'.reporting ds) := by
  obtain ⟨us, -, hus, -⟩ := Phrase.expression_sound he
  exact Check.expressionLogic_local.term (Phrase.Chain.isTerm hus) h

section Elsewhere

/-- The tokens of `m[k] + z` on the third line. -/
def elementTokens : List Token :=
  [⟨.name "m", ⟨3, 1⟩⟩, ⟨.symbol .leftBracket, ⟨3, 2⟩⟩, ⟨.name "k", ⟨3, 3⟩⟩,
    ⟨.symbol .rightBracket, ⟨3, 4⟩⟩, ⟨.symbol (.binary (.plain .add)), ⟨3, 6⟩⟩,
    ⟨.name "z", ⟨3, 8⟩⟩]

def elementSum : Node :=
  .binary (.plain .add) (.reference ⟨"m", [.reference ⟨"k", [], ⟨3, 3⟩⟩], ⟨3, 1⟩⟩)
    (.reference ⟨"z", [], ⟨3, 8⟩⟩) ⟨3, 6⟩

def outerChecker : Checker Scopes :=
  ⟨⟨⟨[⟨"m", some (.matrix (.ofSize 2 3))⟩, ⟨"k", some .float⟩, ⟨"y", none⟩]⟩, []⟩, 0, []⟩

def innerChecker : Checker Scopes :=
  ⟨⟨⟨[⟨"y", some .int⟩, ⟨"k", some .float⟩, ⟨"m", some (.matrix (.ofSize 2 3))⟩]⟩, [.empty]⟩, 1,
    [⟨1, .raggedMatrix⟩]⟩

theorem agreeOn_elementSum : AgreeOn elementSum.walk outerChecker innerChecker := by
  have hwalk : elementSum.walk = [.use "k" 3, .use "m" 3, .use "z" 3] := rfl
  intro name line ho
  simp only [hwalk, List.mem_cons, Occurrence.use.injEq, List.not_mem_nil, or_false] at ho
  obtain ⟨rfl, -⟩ | ⟨rfl, -⟩ | ⟨rfl, -⟩ := ho <;> rfl

theorem expression_elementSum :
    Grammar.expression (Grammar.depthFor 6) elementTokens = .ok elementSum [] ∧
      AgreeOn elementSum.walk outerChecker innerChecker ∧
      ∃ type? ds, outerChecker.expression elementSum = (type?, outerChecker.reporting ds) ∧
        innerChecker.expression elementSum = (type?, innerChecker.reporting ds) := by
  have he : Grammar.expression (Grammar.depthFor 6) elementTokens = .ok elementSum [] := rfl
  exact ⟨he, agreeOn_elementSum, expression_of_agreeOn he agreeOn_elementSum⟩

end Elsewhere

end Checker

end MatrixLang
