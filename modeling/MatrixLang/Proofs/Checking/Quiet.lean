import MatrixLang.Proofs.Checking.Congruence

/-! # Checks that report nothing

A check only adds diagnostics, behind those that are there. So a check that leaves them as they were
has no part that reports.
-/

namespace MatrixLang

namespace Check

variable {ε α β : Type}

/-- A check adds its diagnostics behind the others. -/
class Grows (c : Check ε α) : Prop where
  prefix_diagnostics (s : Checker ε) : s.diagnostics <+: (c s).2.diagnostics

namespace Grows

instance pure (a : α) : Grows (Pure.pure a : Check ε α) :=
  ⟨fun _ => List.prefix_rfl⟩

instance bind {c : Check ε α} {f : α → Check ε β} [Grows c] [∀ a, Grows (f a)] :
    Grows (c >>= f) :=
  ⟨fun s => (prefix_diagnostics s).trans (prefix_diagnostics (c s).2)⟩

instance ite {p : Prop} [Decidable p] {c d : Check ε α} [Grows c] [Grows d] :
    Grows (if p then c else d) := by
  split <;> infer_instance

instance report (line : Nat) (v : Violation) : Grows (report line v : Check ε Unit) :=
  ⟨fun _ => List.prefix_append ..⟩

instance inLoop : Grows (inLoop : Check ε Bool) := ⟨fun _ => List.prefix_rfl⟩

instance inBody {c : Check ε α} [Grows c] : Grows (inBody c) :=
  ⟨fun s => prefix_diagnostics (c := c) { s with loopDepth := s.loopDepth + 1 }⟩

variable [Environment ε]

instance find? (name : String) : Grows (find? name : Check ε (Option Binding)) :=
  ⟨fun _ => List.prefix_rfl⟩

instance bindName (name : String) (type? : Option Ty) :
    Grows (bindName name type? : Check ε Unit) :=
  ⟨fun _ => List.prefix_rfl⟩

instance inBlock {c : Check ε α} [Grows c] : Grows (inBlock c) :=
  ⟨fun s => prefix_diagnostics (c := c) { s with environment := Environment.enter s.environment }⟩

theorem congruence : Congruence fun {α} (c _ : Check ε α) => Grows c where
  pure _ := inferInstance
  bind _ _ := inferInstance
  report _ _ := inferInstance
  inLoop := inferInstance
  find? _ := inferInstance
  bindName _ _ := inferInstance
  inBody _ := inferInstance
  inBlock _ := inferInstance

section Instances

variable (line : Nat) (t u : Option Ty)

instance (op : BinaryOperator) : Grows (combined line op t u : Check ε (Option Ty)) :=
  congruence.combined line op t u

instance : Grows (transposed line t : Check ε (Option Ty)) := congruence.transposed line t

instance : Grows (negated line t : Check ε (Option Ty)) := congruence.negated line t

instance : Grows (requireBoolean line t : Check ε Unit) := congruence.requireBoolean line t

instance : Grows (requireIndex line t : Check ε Unit) := congruence.requireIndex line t

instance (name : String) : Grows (variableType line name : Check ε (Option Ty)) :=
  congruence.variableType line name

open Node

instance (n : Node) : Grows (check n : Check ε (Option Ty)) := check_congr congruence n

instance (r : Reference Node) : Grows (checkReference r : Check ε (Option Ty)) :=
  checkReference_congr congruence r

instance (op : AssignOperator) (r : Reference Node) :
    Grows (checkAssigned line op t r : Check ε Unit) :=
  checkAssigned_congr congruence line op t r

instance (ns : List Node) : Grows (checkIndices ns : Check ε Unit) :=
  checkIndices_congr congruence ns

instance (reported : Bool) (ns : List Node) :
    Grows (checkElements line reported ns : Check ε Unit) :=
  checkElements_congr congruence line reported ns

instance (rows : List (List Node)) : Grows (checkRows line rows : Check ε Unit) :=
  checkRows_congr congruence line rows

instance (ns : List Node) : Grows (checkArguments ns : Check ε Bool) :=
  checkArguments_congr congruence ns

instance (ns : List Node) : Grows (checkPayload ns : Check ε Bool) :=
  checkPayload_congr congruence ns

instance (b : Bounds Node) : Grows (checkBounds b : Check ε Unit) :=
  checkBounds_congr congruence b

instance (a : Option (Alternative Node)) : Grows (checkAlternative a : Check ε Unit) :=
  checkAlternative_congr congruence a

instance (b : Block Node) : Grows (checkBlock b : Check ε Unit) := checkBlock_congr congruence b

instance (ns : List Node) : Grows (checkStatements ns : Check ε Unit) :=
  checkStatements_congr congruence ns

end Instances

end Grows

/-- A check that starts in `s` reports nothing. -/
def Quiet (c : Check ε α) (s : Checker ε) : Prop := (c s).2.diagnostics = s.diagnostics

section Quiet

variable {c : Check ε α} {f : α → Check ε β} {s s' : Checker ε} {a : α}

theorem Quiet.left [Grows c] [∀ a, Grows (f a)] (h : Quiet (c >>= f) s) : Quiet c s := by
  have h₁ := Grows.prefix_diagnostics (c := c) s
  have h₂ := Grows.prefix_diagnostics (c := f (c s).1) (c s).2
  refine (h₁.eq_of_length_le ?_).symm
  calc (c s).2.diagnostics.length ≤ (f (c s).1 (c s).2).2.diagnostics.length := h₂.length_le
    _ = s.diagnostics.length := congrArg List.length h

theorem Quiet.right (h : Quiet (c >>= f) s) (hc : c s = (a, s'))
    (hs : s'.diagnostics = s.diagnostics) : Quiet (f a) s' := by
  rw [Quiet, bind_apply, hc] at h
  exact h.trans hs.symm

theorem not_quiet_report (line : Nat) (v : Violation) : ¬ Quiet (report line v) s := by
  simp [Quiet, report]

theorem not_quiet_report_bind {line : Nat} {v : Violation} {f : Unit → Check ε β}
    [∀ a, Grows (f a)] : ¬ Quiet (report line v >>= f) s :=
  fun h => not_quiet_report line v h.left

end Quiet

end Check

end MatrixLang
