import MatrixLang.Proofs.Scope.Walk
import MatrixLang.Proofs.Syntax.Term
import MatrixLang.Typing.Check

/-! # What the checks of expressions do

An expression is checked by reading names and by reports about its operands, one part behind the
other. What these steps have in common with the names that they come to, every check of an
expression has. The induction over expressions is done here once for all such properties.
-/

namespace MatrixLang

/-- A violation other than of a name that is not bound and an instruction outside of loops. -/
def Violation.IsPlain : Violation → Prop
  | .undefinedVariable _ | .undeclaredTarget _ | .outsideLoop _ => False
  | _ => True

namespace Check

variable {ε α β : Type}

theorem holds_ite {R : Check ε α → Prop} {p : Prop} [Decidable p] {c d : Check ε α} (hc : R c)
    (hd : R d) : R (if p then c else d) := by
  split
  · exact hc
  · exact hd

variable [Environment ε]

/-- A property of checks and the occurrences that they come to which the steps of expressions have,
and which goes over to one step behind another. -/
structure ExpressionLogic (R : {α : Type} → List Occurrence → Check ε α → Prop) : Prop where
  pure {α : Type} (a : α) : R [] (Pure.pure a)
  bind {α β : Type} {v w : List Occurrence} {c : Check ε α} {f : α → Check ε β} :
    R v c → (∀ a, R w (f a)) → R (v ++ w) (c >>= f)
  report {v : Violation} (line : Nat) : v.IsPlain → R [] (report line v)
  variableType (line : Nat) (name : String) : R [.use name line] (variableType line name)

namespace ExpressionLogic

variable {R : {α : Type} → List Occurrence → Check ε α → Prop} (hR : ExpressionLogic R)
  {w : List Occurrence}

include hR

theorem last {c : Check ε α} {f : α → Check ε β} (hc : R w c) (hf : ∀ a, R [] (f a)) :
    R w (c >>= f) := by
  have h := hR.bind hc hf
  rwa [List.append_nil] at h

section Parts

variable (line : Nat) (t u : Option Ty)

theorem reported {v : Violation} (hv : v.IsPlain) (a : α) :
    R [] (Check.report line v >>= fun _ => Pure.pure a) :=
  hR.last (hR.report line hv) fun _ => hR.pure a

theorem combined (op : BinaryOperator) : R [] (combined line op t u) := by
  unfold Check.combined
  split
  · split
    · exact hR.pure _
    · exact hR.reported line (by trivial) none
  · exact hR.reported line (by trivial) none

theorem transposed : R [] (transposed line t) := by
  unfold Check.transposed
  split
  · exact hR.pure _
  · exact hR.reported line (by trivial) none

theorem negated : R [] (negated line t) := by
  unfold Check.negated
  split
  · exact holds_ite (hR.pure _) (hR.reported line (by trivial) none)
  · exact hR.reported line (by trivial) none

theorem requireBoolean : R [] (requireBoolean line t) :=
  holds_ite (hR.report line (by trivial)) (hR.pure ())

theorem requireIndex : R [] (requireIndex line t) := by
  unfold Check.requireIndex
  split
  · exact hR.pure _
  · exact hR.pure _
  · exact hR.report line (by trivial)

end Parts

open Node

section Lists

theorem checkIndices {is : List Node} (h : ∀ i ∈ is, R i.walk (check i)) :
    R (walkList is) (checkIndices is) := by
  induction is with
  | nil =>
    rw [Node.checkIndices, walkList]
    exact hR.pure _
  | cons i is ih =>
    rw [List.forall_mem_cons] at h
    rw [Node.checkIndices, walkList]
    exact hR.bind h.1 fun _ => hR.bind (hR.requireIndex _ _) fun _ => ih h.2

theorem checkElements {es : List Node} (line : Nat) (reported : Bool)
    (h : ∀ e ∈ es, R e.walk (check e)) : R (walkList es) (checkElements line reported es) := by
  induction es generalizing reported with
  | nil =>
    rw [Node.checkElements, walkList]
    exact hR.pure _
  | cons e es ih =>
    rw [List.forall_mem_cons] at h
    rw [Node.checkElements, walkList]
    refine hR.bind h.1 fun t => holds_ite (ih reported h.2) (holds_ite ?_ (ih true h.2))
    exact hR.bind (v := []) (hR.report line (by trivial)) fun _ => ih true h.2

theorem checkRows {rows : List (List Node)} (line : Nat)
    (h : ∀ row ∈ rows, ∀ e ∈ row, R e.walk (check e)) :
    R (walkRows rows) (checkRows line rows) := by
  induction rows with
  | nil =>
    rw [Node.checkRows, walkRows]
    exact hR.pure _
  | cons row rows ih =>
    rw [List.forall_mem_cons] at h
    rw [Node.checkRows, walkRows]
    exact hR.bind (hR.checkElements line false h.1) fun _ => ih h.2

theorem checkArguments {es : List Node} (h : ∀ e ∈ es, R e.walk (check e)) :
    R (walkList es) (checkArguments es) := by
  induction es with
  | nil =>
    rw [Node.checkArguments, walkList]
    exact hR.pure _
  | cons e es ih =>
    rw [List.forall_mem_cons] at h
    rw [Node.checkArguments, walkList]
    exact hR.bind h.1 fun _ => hR.last (ih h.2) fun _ => hR.pure _

end Lists

/-- The check of a term comes to all of it. -/
theorem term {e : Node} (he : e.IsTerm) : R e.walk (check e) := by
  induction he with
  | integer | float | string =>
    rw [Node.check, walk]
    exact hR.pure _
  | @reference r _ ih =>
    obtain ⟨name, indices, l⟩ := r
    rw [Node.check, checkReference, walk, walkReference]
    exact hR.bind (hR.checkIndices ih) fun _ => hR.variableType _ _
  | @matrix rows l _ ih =>
    rw [Node.check, walk]
    have hrows : R (walkRows rows) (Node.checkRows l.line rows >>= fun _ =>
        Pure.pure (some (Ty.matrix (.ofSize rows.length (rows.headD []).length)))) :=
      hR.last (hR.checkRows l.line ih) fun _ => hR.pure _
    exact holds_ite (hR.bind (v := []) (hR.report l.line (by trivial)) fun _ => hrows) hrows
  | @builtin b es l _ ih =>
    rw [Node.check, walk]
    refine hR.last (hR.checkArguments ih) fun all =>
      holds_ite ?_ (hR.reported l.line (by trivial) none)
    split
    · exact hR.pure _
    · exact hR.reported l.line (by trivial) none
  | @binary op left right l _ _ ih ih' =>
    rw [Node.check, walk]
    exact hR.bind ih fun _ => hR.last ih' fun _ => hR.combined _ _ _ _
  | @comparison c left right l _ _ ih ih' =>
    rw [Node.check, walk]
    exact hR.bind ih fun _ => hR.last ih' fun _ => hR.pure _
  | @unary op e l _ ih =>
    cases op with
    | transpose =>
      rw [Node.check, walk]
      exact hR.last ih fun _ => hR.transposed _ _
    | negate =>
      rw [Node.check, walk]
      exact hR.last ih fun _ => hR.negated _ _

theorem check {e : Node} (he : e.IsExpression) : R e.walk (Node.check e) := hR.term he.isTerm

theorem checkBounds {bounds : Bounds Node} (hl : bounds.lower.IsExpression)
    (hu : bounds.upper.IsExpression) : R (walkBounds bounds) (checkBounds bounds) := by
  obtain ⟨lower, upper, l⟩ := bounds
  rw [walkBounds, Node.checkBounds]
  exact hR.bind (hR.check hl) fun _ => hR.last (hR.check hu) fun _ =>
    holds_ite (hR.report l.line (by trivial)) (hR.pure ())

theorem checkAssigned {r : Reference Node} (hr : ∀ i ∈ r.indices, i.IsExpression)
    (hne : r.indices ≠ []) (line : Nat) (op : AssignOperator) (t : Option Ty) :
    R (walkTarget op line r) (checkAssigned line op t r) := by
  obtain ⟨name, indices, l⟩ := r
  cases indices with
  | nil => exact absurd rfl hne
  | cons index indices =>
    rw [List.forall_mem_cons] at hr
    rw [walkTarget, Node.checkAssigned, List.append_assoc]
    refine hR.bind (hR.check hr.1) fun _ => hR.bind (v := []) (hR.requireIndex _ _) fun _ =>
      hR.bind (hR.checkIndices fun i hi => hR.check (hr.2 i hi)) fun _ =>
        hR.last (hR.variableType _ _) fun _ => holds_ite (hR.report line (by trivial)) (hR.pure ())

end ExpressionLogic

end Check

section Reads

variable {ε α β : Type}

/-- From the state `s` to the state `s'` a check has changed nothing but its diagnostics, behind the
earlier ones. -/
structure Checker.Reads (s s' : Checker ε) : Prop where
  environment : s'.environment = s.environment
  loopDepth : s'.loopDepth = s.loopDepth
  diagnostics : s.diagnostics <+: s'.diagnostics

theorem Checker.Reads.refl (s : Checker ε) : Reads s s := ⟨rfl, rfl, List.prefix_rfl⟩

theorem Checker.Reads.trans {s s' s'' : Checker ε} (h : Reads s s') (h' : Reads s' s'') :
    Reads s s'' :=
  ⟨h'.environment.trans h.environment, h'.loopDepth.trans h.loopDepth,
    h.diagnostics.trans h'.diagnostics⟩

/-- A check that reads and reports, and changes nothing else. -/
def Check.Reads (c : Check ε α) : Prop := ∀ s, Checker.Reads s (c s).2

namespace Check

theorem reads_pure (a : α) : Reads (pure a : Check ε α) := Checker.Reads.refl

theorem Reads.bind {c : Check ε α} {f : α → Check ε β} (hc : Reads c) (hf : ∀ a, Reads (f a)) :
    Reads (c >>= f) :=
  fun s => (hc s).trans (hf (c s).1 (c s).2)

theorem reads_report (line : Nat) (v : Violation) : Reads (report line v : Check ε Unit) :=
  fun _ => ⟨rfl, rfl, List.prefix_append ..⟩

variable [Environment ε]

theorem reads_variableType (line : Nat) (name : String) :
    Reads (variableType line name : Check ε (Option Ty)) := by
  refine Reads.bind (fun s => Checker.Reads.refl s) fun b? => ?_
  cases b? with
  | none => exact (reads_report line _).bind fun _ => reads_pure none
  | some b => exact reads_pure b.type?

/-- Checking an expression binds nothing and leaves the loops alone. -/
theorem expressionLogic_reads : ExpressionLogic (ε := ε) fun _ c => Reads c where
  pure := reads_pure
  bind hc hf := hc.bind hf
  report line _ := reads_report line _
  variableType := reads_variableType

end Check

theorem Node.IsTerm.reads [Environment ε] {e : Node} (he : e.IsTerm) :
    Check.Reads (check e : Check ε (Option Ty)) :=
  Check.expressionLogic_reads.term he

end Reads

end MatrixLang
