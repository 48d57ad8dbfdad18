import MatrixLang.Viewer.Session

/-! # The order of problems

The problems of a text are found stage by stage and listed by their lines. Problems on one line stay
in the order in which they were found.
-/

namespace MatrixLang

namespace Analysis

variable {cs : List Char}

theorem mem_diagnostics_ofText {d : Diagnostic} (h : d ∈ (ofText cs).diagnostics) :
    ∃ p, Program.ofText cs = .ok p ∧ d ∈ p.findings.diagnostics := by
  rw [ofText, diagnostics] at h
  cases hp : Program.ofText cs with
  | ok p => exact ⟨p, rfl, by simpa [hp, Except.map] using h⟩
  | error e => simp [hp, Except.map] at h

theorem outcome_ofText_eq_error_iff {e : SyntaxError} :
    (ofText cs).outcome = .error e ↔ Program.ofText cs = .error e := by
  rw [ofText]
  cases Program.ofText cs <;> simp [Except.map]

end Analysis

namespace Viewer.Problem

def found (a : Analysis) : List Problem :=
  a.lexicalErrors.map (fun e => ⟨.lexical, e.location.line, e.text⟩) ++
    match a.outcome with
    | .ok checked => checked.findings.diagnostics.map fun d => ⟨.semantic, d.line, d.text⟩
    | .error e => [⟨.syntactic, e.found.location.line, e.message⟩]

variable {a : Analysis} {p : Problem}

theorem perm_found (a : Analysis) : (ofAnalysis a).Perm (found a) :=
  List.mergeSort_perm _ _

theorem mem_ofAnalysis_iff : p ∈ ofAnalysis a ↔ p ∈ found a := (perm_found a).mem_iff

theorem mem_found_iff :
    p ∈ found a ↔ (∃ e ∈ a.lexicalErrors, p = ⟨.lexical, e.location.line, e.text⟩) ∨
      (∃ d ∈ a.diagnostics, p = ⟨.semantic, d.line, d.text⟩) ∨
      ∃ e, a.outcome = .error e ∧ p = ⟨.syntactic, e.found.location.line, e.message⟩ := by
  obtain ⟨errors, outcome⟩ := a
  cases outcome <;> simp [found, Analysis.diagnostics, eq_comm]

section Order

/-- Whether two problems are in the order of their lines. -/
def ordered (p q : Problem) : Bool := p.line ≤ q.line

theorem ordered_iff {p q : Problem} : ordered p q = true ↔ p.line ≤ q.line := decide_eq_true_iff

theorem ordered_trans (p q r : Problem) (hpq : ordered p q = true) (hqr : ordered q r = true) :
    ordered p r = true := by
  rw [ordered_iff] at *
  exact Nat.le_trans hpq hqr

theorem ordered_total (p q : Problem) : (ordered p q || ordered q p) = true := by
  rw [Bool.or_eq_true, ordered_iff, ordered_iff]
  exact Nat.le_total _ _

theorem pairwise_ofAnalysis (a : Analysis) : (ofAnalysis a).Pairwise (·.line ≤ ·.line) :=
  (List.pairwise_mergeSort ordered_trans ordered_total (found a)).imp ordered_iff.mp

theorem ofAnalysis_eq_found (h : (found a).Pairwise (ordered · ·)) : ofAnalysis a = found a :=
  List.mergeSort_of_pairwise h

/-- On each line the problems are in the order in which they were found. -/
theorem filter_ofAnalysis (a : Analysis) (n : Nat) :
    (ofAnalysis a).filter (·.line = n) = (found a).filter (·.line = n) := by
  have hsame : ((found a).filter (·.line = n)).Pairwise (ordered · ·) := by
    refine List.pairwise_filter.mpr (List.pairwise_of_forall fun p q hp hq => ?_)
    have hline : p.line = q.line := (of_decide_eq_true hp).trans (of_decide_eq_true hq).symm
    exact ordered_iff.mpr (Nat.le_of_eq hline)
  have hsublist : ((found a).filter (·.line = n)).Sublist (ofAnalysis a) :=
    List.sublist_mergeSort ordered_trans ordered_total hsame List.filter_sublist
  have hfilter := hsublist.filter (·.line = n)
  rw [List.filter_filter] at hfilter
  simp only [Bool.and_self] at hfilter
  exact (hfilter.eq_of_length ((perm_found a).filter _).length_eq.symm).symm

end Order

end Viewer.Problem

end MatrixLang
