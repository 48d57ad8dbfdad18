import MatrixLang.Proofs.Checking.Expression
import MatrixLang.Proofs.Checking.Quiet
import MatrixLang.Proofs.Typing.Sum

/-! # Compound assignments

A compound assignment to a variable checks its value before it looks the variable up, and the
assignment of the written out operation does so behind it. Still both are silent in the same cases
and then bind the same, and in all other cases the compound one binds nothing.
-/

namespace MatrixLang

open Check

namespace Node

/-- The statement `x op= e`. -/
def compound (x : String) (op : Arithmetic) (e : Node) (lx l : Location) : Node :=
  .assignment ⟨x, [], lx⟩ (.compound op) e l

/-- The expression `x op e`. -/
def operation (x : String) (op : Arithmetic) (e : Node) (lx l : Location) : Node :=
  .binary (.plain op) (.reference ⟨x, [], lx⟩) e l

/-- The statement `x = x op e`. -/
def expanded (x : String) (op : Arithmetic) (e : Node) (lx lx' lop l : Location) : Node :=
  .assignment ⟨x, [], lx⟩ .plain (operation x op e lx' lop) l

end Node

namespace Check

variable {ε : Type} {s : Checker ε} {line : Nat} {x : String} {op : Arithmetic} {t u : Option Ty}
  {τ : Ty}

theorem combined_eq_of_join? (h : Ty.join? op t u = some τ) :
    combined line (.plain op) t u s = (some τ, s) := by
  obtain ⟨σ, υ, rfl, rfl, hc⟩ := Ty.join?_eq_some_iff.mp h
  simp only [combined, hc]
  rfl

theorem not_quiet_combined (h : Ty.join? op t u = none) :
    ¬ Quiet (combined line (.plain op) t u) s := by
  intro hq
  unfold combined at hq
  split at hq
  next σ υ =>
    split at hq
    next τ hc =>
      have hs := Ty.join?_eq_some_iff.mpr ⟨σ, υ, rfl, rfl, hc⟩
      cases h.symm.trans hs
    next => exact not_quiet_report_bind hq
  next => exact not_quiet_report_bind hq

variable [Environment ε]

theorem variableType_cases (s : Checker ε) (line : Nat) (x : String) :
    variableType line x s = (s.type? x, s) ∨
      s.type? x = none ∧ ¬ Quiet (variableType line x) s := by
  rw [Quiet, variableType, bind_apply, find?, Checker.type?]
  cases Environment.find? s.environment x with
  | none => exact .inr ⟨rfl, not_quiet_report_bind⟩
  | some b => exact .inl rfl

theorem assigned_eq_of_join? (h : Ty.join? op (s.type? x) t = some τ) :
    assigned line x (.compound op) t s = bindName x (some τ) s := by
  obtain ⟨σ, υ, hσ, rfl, hc⟩ := Ty.join?_eq_some_iff.mp h
  obtain ⟨b, hb, hb'⟩ := Option.bind_eq_some_iff.mp hσ
  simp only [assigned, AssignOperator.arithmetic?, bind_apply, find?, hb, hb', hc]

theorem exists_assigned_eq_report (line : Nat) (h : Ty.join? op (s.type? x) t = none) :
    ∃ v, assigned line x (.compound op) t s = report line v s := by
  rw [Checker.type?] at h
  simp only [assigned, AssignOperator.arithmetic?, bind_apply, find?]
  cases hb : Environment.find? s.environment x with
  | none => exact ⟨_, rfl⟩
  | some b =>
    rw [hb, Option.bind_some] at h
    obtain ⟨_, old?⟩ := b
    cases old? with
    | none => exact ⟨_, rfl⟩
    | some σ =>
      cases t with
      | none => exact ⟨_, rfl⟩
      | some υ =>
        cases hc : σ.combine (.plain op) υ with
        | error fault => exact ⟨.combination fault, by simp only [hc]⟩
        | ok τ =>
          have hs := Ty.join?_eq_some_iff.mpr ⟨σ, υ, rfl, rfl, hc⟩
          cases h.symm.trans hs

end Check

/-- The type of `x op e`, if the variable and the expression have types that combine. -/
def Checker.operation? (s : Checker Scopes) (x : String) (op : Arithmetic) (e : Node) : Option Ty :=
  Ty.join? op (s.type? x) (s.expression e).1

theorem Checker.operation?_eq_none {s : Checker Scopes} {x : String} {op : Arithmetic} {e : Node}
    (h : Environment.find? s.environment x = none ∨ s.type? x = none ∨ (s.expression e).1 = none ∨
      ∃ σ τ fault, s.type? x = some σ ∧ (s.expression e).1 = some τ ∧
        σ.combine (.plain op) τ = .error fault) : s.operation? x op e = none := by
  by_contra hne
  obtain ⟨τ, hτ⟩ := Option.ne_none_iff_exists'.mp hne
  obtain ⟨σ, υ, hσ, hυ, hc⟩ := Ty.join?_eq_some_iff.mp hτ
  rcases h with h | h | h | ⟨σ', υ', fault, hσ', hυ', hc'⟩
  · simp [Checker.type?, h] at hσ
  · simp [h] at hσ
  · simp [h] at hυ
  · obtain rfl : σ = σ' := Option.some.inj (hσ.symm.trans hσ')
    obtain rfl : υ = υ' := Option.some.inj (hυ.symm.trans hυ')
    simp [hc] at hc'

namespace Node

section Updates

variable {e : Node} {s : Checker Scopes} {x : String} {op : Arithmetic} {τ : Ty}
  {lx lx' lop l : Location}

theorem check_compound :
    check (compound x op e lx l) s =
      (none, (assigned l.line x (.compound op) (check e s).1 (check e s).2).2) := by
  rw [compound, check]
  rfl

theorem check_expanded :
    check (expanded x op e lx lx' lop l) s =
      (none, (bindName x (check (operation x op e lx' lop) s).1
        (check (operation x op e lx' lop) s).2).2) := by
  rw [expanded, check]
  rfl

theorem check_variable : check (.reference ⟨x, [], lx⟩) s = variableType lx.line x s := by
  rw [check, checkReference, checkIndices]
  rfl

theorem IsTerm.join?_type? (he : e.IsTerm) :
    Ty.join? op ((check e s).2.type? x) (check e s).1 = s.operation? x op e := by
  rw [Checker.type?, (he.reads s).environment]
  rfl

theorem check_compound_eq (he : e.IsTerm) (h : s.operation? x op e = some τ) :
    check (compound x op e lx l) s = (none, (bindName x (some τ) (check e s).2).2) := by
  rw [check_compound, assigned_eq_of_join? (he.join?_type?.trans h)]

/-- Where the operation has no type, a compound assignment is reported and binds nothing. -/
theorem exists_check_compound_eq (he : e.IsTerm) (h : s.operation? x op e = none)
    (lx l : Location) :
    ∃ v, check (compound x op e lx l) s = (none, (report l.line v (check e s).2).2) := by
  obtain ⟨v, hv⟩ := exists_assigned_eq_report l.line (he.join?_type?.trans h)
  exact ⟨v, by rw [check_compound, hv]⟩

theorem not_quiet_compound (he : e.IsTerm) (h : s.operation? x op e = none) :
    ¬ Quiet (check (compound x op e lx l)) s := by
  obtain ⟨v, hv⟩ := exists_check_compound_eq he h lx l
  rw [Quiet, hv]
  intro hq
  have hle := (he.reads s).diagnostics.length_le
  have hlength := congrArg List.length hq
  rw [report, List.length_append, List.length_singleton] at hlength
  omega

theorem check_operation_eq (h : s.operation? x op e = some τ) :
    check (operation x op e lx lop) s = (some τ, (check e s).2) := by
  rw [operation, check, bind_apply, check_variable]
  rcases variableType_cases s lx.line x with hv | ⟨hn, _⟩
  · rw [hv]
    exact combined_eq_of_join? h
  · rw [Checker.operation?, hn] at h
    cases h

theorem not_quiet_operation (h : s.operation? x op e = none) :
    ¬ Quiet (check (operation x op e lx lop)) s := by
  intro hq
  rw [operation, check] at hq
  rcases variableType_cases s lx.line x with hv | ⟨_, hn⟩
  · have hright := hq.right (check_variable.trans hv) rfl
    exact not_quiet_combined h (hright.right rfl hright.left)
  · rw [Quiet, ← check_variable] at hn
    exact hn hq.left

theorem check_expanded_eq (h : s.operation? x op e = some τ) :
    check (expanded x op e lx lx' lop l) s = (none, (bindName x (some τ) (check e s).2).2) := by
  rw [check_expanded, check_operation_eq h]

theorem not_quiet_expanded (h : s.operation? x op e = none) :
    ¬ Quiet (check (expanded x op e lx lx' lop l)) s := by
  rw [Quiet, check_expanded]
  exact not_quiet_operation h

/-- A compound assignment to a variable and the assignment of the operation that it stands for are
silent in the same cases, and then leave the same state behind. If the variable is not bound, or it
or the value has no type, or the types do not combine, a compound assignment binds nothing. -/
theorem quiet_compound_iff (he : e.IsTerm) (x : String) (op : Arithmetic)
    (lx l lx' lx'' lop l' : Location) (s : Checker Scopes) :
    (Quiet (check (compound x op e lx l)) s ↔
        Quiet (check (expanded x op e lx' lx'' lop l')) s) ∧
      (Quiet (check (compound x op e lx l)) s →
        check (compound x op e lx l) s = check (expanded x op e lx' lx'' lop l') s) ∧
      ((Environment.find? s.environment x = none ∨ s.type? x = none ∨ (s.expression e).1 = none ∨
          ∃ σ τ fault, s.type? x = some σ ∧ (s.expression e).1 = some τ ∧
            σ.combine (.plain op) τ = .error fault) →
        (check (compound x op e lx l) s).2.environment = s.environment) := by
  refine ⟨?_, fun hq => ?_, fun h => ?_⟩
  · cases h : s.operation? x op e with
    | none => exact iff_of_false (not_quiet_compound he h) (not_quiet_expanded h)
    | some τ => rw [Quiet, Quiet, check_compound_eq he h, check_expanded_eq h]
  · cases h : s.operation? x op e with
    | none => exact absurd hq (not_quiet_compound he h)
    | some τ => rw [check_compound_eq he h, check_expanded_eq h]
  · obtain ⟨v, hv⟩ := exists_check_compound_eq he (Checker.operation?_eq_none h) lx l
    rw [hv]
    exact (he.reads s).environment

section Mixed

def mixedChecker : Checker Scopes :=
  ⟨⟨⟨[⟨"x", some .int⟩, ⟨"y", some .float⟩]⟩, []⟩, 0, []⟩

def mixedValue : Node := .reference ⟨"y", [], ⟨1, 6⟩⟩

theorem quiet_compound_mixedValue :
    mixedValue.IsTerm ∧
      Quiet (check (compound "x" .add mixedValue ⟨1, 1⟩ ⟨1, 3⟩)) mixedChecker ∧
      check (compound "x" .add mixedValue ⟨1, 1⟩ ⟨1, 3⟩) mixedChecker =
        check (expanded "x" .add mixedValue ⟨1, 1⟩ ⟨1, 5⟩ ⟨1, 7⟩ ⟨1, 3⟩) mixedChecker ∧
      (check (compound "z" .add mixedValue ⟨1, 1⟩ ⟨1, 3⟩) mixedChecker).2.environment =
        mixedChecker.environment := by
  have he : mixedValue.IsTerm := .reference nofun
  have hq : Quiet (check (compound "x" .add mixedValue ⟨1, 1⟩ ⟨1, 3⟩)) mixedChecker := rfl
  refine ⟨he, hq, ?_, ?_⟩
  · exact (quiet_compound_iff he "x" .add ⟨1, 1⟩ ⟨1, 3⟩ ⟨1, 1⟩ ⟨1, 5⟩ ⟨1, 7⟩ ⟨1, 3⟩ _).2.1 hq
  · exact (quiet_compound_iff he "z" .add ⟨1, 1⟩ ⟨1, 3⟩ ⟨1, 1⟩ ⟨1, 5⟩ ⟨1, 7⟩ ⟨1, 3⟩ _).2.2
      (.inl rfl)

end Mixed

end Updates

end Node

end MatrixLang
