import MatrixLang.Proofs.Checking.Congruence

/-! # Checks that run side by side

What a check finds does not depend on what has been reported before, and not on lines. So checkers
with the same environment in the same loops stay so, and add the same diagnostics but for lines.
-/

namespace MatrixLang

/-- Two checkers that are the same but for their diagnostics, which `D` relates. -/
structure Checker.Parallel {ε : Type} (D : List Diagnostic → List Diagnostic → Prop)
    (s t : Checker ε) : Prop where
  environment : s.environment = t.environment
  loopDepth : s.loopDepth = t.loopDepth
  diagnostics : D s.diagnostics t.diagnostics

def Check.Parallel {ε : Type} (D : List Diagnostic → List Diagnostic → Prop) {α : Type}
    (c d : Check ε α) : Prop :=
  ∀ ⦃s t⦄, Checker.Parallel D s t → (c s).1 = (d t).1 ∧ Checker.Parallel D (c s).2 (d t).2

namespace Check

variable {ε : Type} [Environment ε] {L : Nat → Nat → Prop}
  {D : List Diagnostic → List Diagnostic → Prop}

theorem lineCongruence_parallel
    (hD : ∀ {ds es line line'} v, L line line' → D ds es →
      D (ds ++ [⟨line, v⟩]) (es ++ [⟨line', v⟩])) :
    LineCongruence L (@Parallel ε D) where
  pure _ _ _ h := ⟨rfl, h⟩
  bind hc hf s t h := by
    have hc := hc h
    rw [bind_apply, bind_apply, ← hc.1]
    exact hf _ hc.2
  report v hline s t h := ⟨rfl, h.environment, h.loopDepth, hD v hline h.diagnostics⟩
  inLoop s t h := ⟨by simp only [inLoop, h.loopDepth], h⟩
  find? name s t h := ⟨by simp only [find?, h.environment], h⟩
  bindName name type? s t h :=
    ⟨rfl, by simp only [bindName, h.environment], h.loopDepth, h.diagnostics⟩
  inBody hc s t h := by
    have hb := hc (s := { s with loopDepth := s.loopDepth + 1 })
      (t := { t with loopDepth := t.loopDepth + 1 })
      ⟨h.environment, congrArg (· + 1) h.loopDepth, h.diagnostics⟩
    exact ⟨hb.1, hb.2.environment, congrArg (· - 1) hb.2.loopDepth, hb.2.diagnostics⟩
  inBlock hc s t h := by
    have hb := hc (s := { s with environment := Environment.enter s.environment })
      (t := { t with environment := Environment.enter t.environment })
      ⟨congrArg Environment.enter h.environment, h.loopDepth, h.diagnostics⟩
    exact ⟨hb.1, congrArg Environment.leave hb.2.environment, hb.2.loopDepth, hb.2.diagnostics⟩

end Check

end MatrixLang
