import MatrixLang.Proofs.Checking.Expression
import MatrixLang.Proofs.Checking.Point
import MatrixLang.Proofs.Typing.Complete

/-! # Causes of reports

Some reports are only about types that are missing. As long as nothing has been reported every
expression gets a type and every name is bound to one, so a type is only missing behind another
report, and the first report of a program is never about a missing type.
-/

namespace MatrixLang

/-- A violation that is only about a missing type. -/
def Violation.IsFollowUp : Violation → Prop
  | .unknownOperand | .unknownAssignedValue | .unknownPayload _ => True
  | _ => False

section Resolved

def Table.Resolved (t : Table) : Prop := ∀ b ∈ t.bindings, b.type? ≠ none

/-- All names have types, in every open scope. -/
def Scopes.Resolved (s : Scopes) : Prop := ∀ t ∈ s.innermost :: s.enclosing, t.Resolved

namespace Table

variable {t u : Table} {b : Binding} {name : String}

theorem mem_of_mem_putInto {c : Binding} {bs : List Binding} (h : c ∈ putInto b bs) :
    c = b ∨ c ∈ bs := by
  induction bs with
  | nil => exact .inl (List.mem_singleton.mp h)
  | cons b' bs ih =>
    rw [putInto] at h
    split at h
    · exact (List.mem_cons.mp h).imp_right (List.mem_cons_of_mem b')
    · rcases List.mem_cons.mp h with rfl | h
      · exact .inr List.mem_cons_self
      · exact (ih h).imp_right (List.mem_cons_of_mem b')

theorem Resolved.put (ht : t.Resolved) (hb : b.type? ≠ none) : (t.put b).Resolved := by
  intro c hc
  rcases mem_of_mem_putInto hc with rfl | hc
  · exact hb
  · exact ht c hc

theorem Resolved.putAll (ht : t.Resolved) (hu : u.Resolved) : (t.putAll u).Resolved :=
  List.foldlRecOn u.bindings Table.put ht fun _ ht b hb => ht.put (hu b hb)

theorem Resolved.type?_ne_none (ht : t.Resolved) (h : t.find? name = some b) : b.type? ≠ none :=
  ht b (List.mem_of_find?_eq_some h)

end Table

namespace Scopes

variable {s : Scopes} {b : Binding}

theorem resolved_empty : empty.Resolved := by
  intro t ht
  obtain rfl := List.mem_singleton.mp ht
  exact nofun

theorem Resolved.put (hs : s.Resolved) (hb : b.type? ≠ none) : (s.put b).Resolved := by
  rw [Resolved, List.forall_mem_cons] at hs ⊢
  exact ⟨hs.1.put hb, hs.2⟩

theorem Resolved.push (hs : s.Resolved) : s.push.Resolved := by
  rw [Resolved, Scopes.push, List.forall_mem_cons]
  exact ⟨hs _ List.mem_cons_self, hs⟩

theorem Resolved.pop (hs : s.Resolved) : s.pop.Resolved := by
  rw [Scopes.pop]
  cases he : s.enclosing with
  | nil => exact hs
  | cons t ts =>
    rw [Resolved, he, List.forall_mem_cons, List.forall_mem_cons] at hs
    rw [Resolved, List.forall_mem_cons]
    exact ⟨hs.2.1.putAll hs.1, hs.2.2⟩

end Scopes

end Resolved

/-- The first report has a cause of its own, and without a report all names have types. -/
structure Checker.Explained (s : Checker Scopes) : Prop where
  first : ∀ d ∈ s.diagnostics.head?, ¬ d.violation.IsFollowUp
  resolved : s.diagnostics = [] → s.environment.Resolved

namespace Checker

variable {s s' : Checker Scopes} {name : String} {b : Binding}

theorem explained_initial : initial.Explained :=
  ⟨nofun, fun _ => Scopes.resolved_empty⟩

theorem Explained.type?_ne_none (hs : s.Explained) (hnil : s.diagnostics = [])
    (hb : Environment.find? s.environment name = some b) : b.type? ≠ none :=
  Table.Resolved.type?_ne_none (hs.resolved hnil _ List.mem_cons_self) hb

/-- Behind a report nothing else is asked of a check. -/
theorem Explained.of_prefix (hs : s.Explained) (h : s.diagnostics <+: s'.diagnostics)
    (hne : s.diagnostics ≠ []) : s'.Explained := by
  obtain ⟨ds, hds⟩ := h
  constructor
  · rw [← hds, List.head?_append_of_ne_nil _ hne]
    exact hs.first
  · rw [← hds]
    exact fun hnil => absurd (List.append_eq_nil_iff.mp hnil).1 hne

theorem Explained.of_resolved (hs : s.Explained) (hd : s'.diagnostics = s.diagnostics)
    (h : s.environment.Resolved → s'.environment.Resolved) : s'.Explained :=
  ⟨hd ▸ hs.first, fun hnil => h (hs.resolved (hd ▸ hnil))⟩

end Checker

namespace Check

/-- The check keeps reports explained, and gives a result with the property `P` unless there are
any. -/
def Explains {α : Type} (P : α → Prop) (c : Check Scopes α) : Prop :=
  ∀ s, s.Explained → (c s).2.Explained ∧ ((c s).2.diagnostics = [] → P (c s).1)

section Explains

variable {α β : Type} {P : α → Prop} {Q : β → Prop} {c : Check Scopes α} {f : α → Check Scopes β}
  {line : Nat} {v : Violation}

theorem explains_pure {a : α} (ha : P a) : Explains P (pure a) :=
  fun _ hs => ⟨hs, fun _ => ha⟩

theorem Explains.bind [∀ a, Grows (f a)] (hc : Explains P c) (hf : ∀ a, P a → Explains Q (f a)) :
    Explains Q (c >>= f) := by
  intro s hs
  obtain ⟨hc, hresult⟩ := hc s hs
  by_cases hne : (c s).2.diagnostics = []
  · exact hf _ (hresult hne) _ hc
  · have hgrows := Grows.prefix_diagnostics (c := f (c s).1) (c s).2
    refine ⟨hc.of_prefix hgrows hne, fun hnil => absurd ?_ hne⟩
    exact List.prefix_nil.mp (hnil ▸ hgrows)

theorem explains_report {P : Unit → Prop} (hv : ¬ v.IsFollowUp) : Explains P (report line v) := by
  intro s hs
  have hne : (report line v s).2.diagnostics ≠ [] := List.append_ne_nil_of_right_ne_nil _ nofun
  refine ⟨⟨?_, fun hnil => absurd hnil hne⟩, fun hnil => absurd hnil hne⟩
  cases hd : s.diagnostics with
  | nil => simpa [report, hd] using hv
  | cons d ds => simpa [report, hd] using hs.first

theorem explains_reported (hv : ¬ v.IsFollowUp) (a : α) :
    Explains P (report line v >>= fun _ => pure a) :=
  (explains_report (P := fun _ => False) hv).bind fun _ h => h.elim

theorem explains_bindName (name : String) (τ : Ty) :
    Explains (fun _ => True) (bindName name (some τ)) :=
  fun _ hs => ⟨hs.of_resolved rfl fun hr => hr.put nofun, fun _ => trivial⟩

theorem Explains.inBlock (hc : Explains P c) : Explains P (inBlock c) := by
  intro s hs
  have h := hc s.entered (hs.of_resolved rfl (·.push))
  exact ⟨h.1.of_resolved rfl (·.pop), h.2⟩

theorem Explains.inBody (hc : Explains P c) : Explains P (inBody c) := by
  intro s hs
  have h := hc s.looping (hs.of_resolved rfl id)
  exact ⟨h.1.of_resolved rfl id, h.2⟩

end Explains

section Parts

variable {t u : Option Ty} (line : Nat)

theorem explains_variableType (name : String) :
    Explains (· ≠ none) (variableType line name) := by
  intro s hs
  rw [variableType, bind_apply, find?]
  cases hb : Environment.find? s.environment name with
  | none => exact explains_reported id none s hs
  | some b => exact ⟨hs, fun hnil => hs.type?_ne_none hnil hb⟩

theorem explains_combined (op : BinaryOperator) (ht : t ≠ none) (hu : u ≠ none) :
    Explains (· ≠ none) (combined line op t u) := by
  obtain ⟨σ, rfl⟩ := Option.ne_none_iff_exists'.mp ht
  obtain ⟨τ, rfl⟩ := Option.ne_none_iff_exists'.mp hu
  unfold combined
  cases h : σ.combine op τ with
  | ok υ =>
    simp only [h]
    exact explains_pure nofun
  | error fault =>
    simp only [h]
    exact explains_reported id none

theorem explains_transposed (t : Option Ty) : Explains (· ≠ none) (transposed line t) := by
  unfold transposed
  split
  · exact explains_pure nofun
  · exact explains_reported id none

theorem explains_negated (t : Option Ty) : Explains (· ≠ none) (negated line t) := by
  unfold negated
  split
  · exact holds_ite (explains_pure nofun) (explains_reported id none)
  · exact explains_reported id none

theorem explains_requireBoolean (t : Option Ty) :
    Explains (fun _ => True) (requireBoolean line t) :=
  holds_ite (explains_report id) (explains_pure trivial)

theorem explains_requireIndex (t : Option Ty) :
    Explains (fun _ => True) (requireIndex line t) := by
  unfold requireIndex
  split
  · exact explains_pure trivial
  · exact explains_pure trivial
  · exact explains_report id

/-- An update of a name without a type is explained by the report behind which it was bound. -/
theorem explains_assigned (name : String) (op : AssignOperator) (ht : t ≠ none) :
    Explains (fun _ => True) (assigned line name op t) := by
  obtain ⟨τ, rfl⟩ := Option.ne_none_iff_exists'.mp ht
  cases op with
  | plain => exact explains_bindName name τ
  | compound op =>
    intro s hs
    simp only [assigned, AssignOperator.arithmetic?, bind_apply, find?]
    cases hb : Environment.find? s.environment name with
    | none => exact explains_report (P := fun _ => True) (v := .undeclaredTarget name) id s hs
    | some b =>
      obtain ⟨_, old?⟩ := b
      cases old? with
      | none =>
        have hne : s.diagnostics ≠ [] := fun hnil => hs.type?_ne_none hnil hb rfl
        exact ⟨hs.of_prefix (List.prefix_append ..) hne, fun _ => trivial⟩
      | some σ =>
        dsimp only
        cases σ.combine (.plain op) τ with
        | ok υ => exact explains_bindName name υ s hs
        | error fault =>
          exact explains_report (P := fun _ => True) (v := .combination fault) id s hs

end Parts

end Check

namespace Node

open Check

section Lists

variable {es : List Node}

theorem explains_checkIndices (h : ∀ e ∈ es, Explains (· ≠ none) (check e)) :
    Explains (fun _ => True) (checkIndices es) := by
  induction es with
  | nil =>
    rw [checkIndices]
    exact explains_pure trivial
  | cons e es ih =>
    rw [List.forall_mem_cons] at h
    rw [checkIndices]
    exact h.1.bind fun t _ => (explains_requireIndex e.line t).bind fun _ _ => ih h.2

theorem explains_checkElements (line : Nat) (reported : Bool)
    (h : ∀ e ∈ es, Explains (· ≠ none) (check e)) :
    Explains (fun _ => True) (checkElements line reported es) := by
  induction es generalizing reported with
  | nil =>
    rw [checkElements]
    exact explains_pure trivial
  | cons e es ih =>
    rw [List.forall_mem_cons] at h
    rw [checkElements]
    refine h.1.bind fun t _ => holds_ite (ih reported h.2) (holds_ite ?_ (ih true h.2))
    exact (explains_report (P := fun _ => True) id).bind fun _ _ => ih true h.2

theorem explains_checkRows {rows : List (List Node)} (line : Nat)
    (h : ∀ row ∈ rows, ∀ e ∈ row, Explains (· ≠ none) (check e)) :
    Explains (fun _ => True) (checkRows line rows) := by
  induction rows with
  | nil =>
    rw [checkRows]
    exact explains_pure trivial
  | cons row rows ih =>
    rw [List.forall_mem_cons] at h
    rw [checkRows]
    exact (explains_checkElements line false h.1).bind fun _ _ => ih h.2

theorem explains_checkArguments (h : ∀ e ∈ es, Explains (· ≠ none) (check e)) :
    Explains (fun _ => True) (checkArguments es) := by
  induction es with
  | nil =>
    rw [checkArguments]
    exact explains_pure trivial
  | cons e es ih =>
    rw [List.forall_mem_cons] at h
    rw [checkArguments]
    exact h.1.bind fun t _ => (ih h.2).bind fun _ _ => explains_pure trivial

/-- As long as nothing has been reported all values of an instruction have types. -/
theorem explains_checkPayload (h : ∀ e ∈ es, Explains (· ≠ none) (check e)) :
    Explains (· = true) (checkPayload es) := by
  induction es with
  | nil =>
    rw [checkPayload]
    exact explains_pure rfl
  | cons e es ih =>
    rw [List.forall_mem_cons] at h
    rw [checkPayload]
    refine h.1.bind fun t ht => ?_
    obtain ⟨τ, rfl⟩ := Option.ne_none_iff_exists'.mp ht
    exact ih h.2

end Lists

/-- An expression has a type, or a report says why it has none. -/
theorem IsExpression.explains {e : Node} (he : e.IsExpression) :
    Explains (· ≠ none) (check e) := by
  induction he with
  | integer | float | string =>
    rw [check]
    exact explains_pure nofun
  | @reference r _ ih =>
    obtain ⟨name, indices, l⟩ := r
    rw [check, checkReference]
    exact (explains_checkIndices ih).bind fun _ _ => explains_variableType l.line name
  | @matrix rows l _ _ _ ih =>
    have hrows : Explains (· ≠ none) (checkRows l.line rows >>= fun _ =>
        pure (some (Ty.matrix (.ofSize rows.length (rows.headD []).length)))) :=
      (explains_checkRows l.line ih).bind fun _ _ => explains_pure nofun
    rw [check]
    refine holds_ite ?_ hrows
    exact (explains_report (P := fun _ => True) id).bind fun _ _ => hrows
  | @builtin b es l hne he ih =>
    obtain ⟨ms, hms⟩ := mapM_extent?_eq he
    have hshape : (Shape.ofExtents? ms).map Ty.matrix ≠ none := by
      cases es with
      | nil => exact absurd rfl hne
      | cons e es =>
        simp only [List.mapM_cons, Option.bind_eq_bind, Option.bind_eq_some_iff] at hms
        obtain ⟨m, _, ms', _, ⟨⟩⟩ := hms
        cases ms' <;> exact nofun
    simp only [check, hms]
    refine (explains_checkArguments ih).bind fun all _ => ?_
    exact holds_ite (explains_pure hshape) (explains_reported id none)
  | @binary op left right l _ _ ih ih' =>
    rw [check]
    exact ih.bind fun t ht => ih'.bind fun u hu => explains_combined l.line op ht hu
  | comparison _ _ ih ih' =>
    rw [check]
    exact ih.bind fun _ _ => ih'.bind fun _ _ => explains_pure nofun
  | @unary op e l _ ih =>
    cases op with
    | transpose =>
      rw [check]
      exact ih.bind fun t _ => explains_transposed l.line t
    | negate =>
      rw [check]
      exact ih.bind fun t _ => explains_negated l.line t

section Statements

variable {e : Node} {b : Block Node} {s : Checker Scopes}

theorem explains_checkRagged (line : Nat) (rows : List (List Node)) :
    Explains (fun _ => True) (checkRagged line rows) :=
  holds_ite (explains_report id) (explains_pure trivial)

theorem explains_checkJump (line : Nat) (i : Instruction) :
    Explains (fun _ => True) (checkJump line i) :=
  have hloop : Explains (fun _ => True) inLoop := fun _ hs => ⟨hs, fun _ => trivial⟩
  hloop.bind fun _ _ => holds_ite (explains_report id) (explains_pure trivial)

theorem explains_checkCondition (he : e.IsExpression) :
    Explains (fun _ => True) (checkCondition e) :=
  he.explains.bind fun t _ => explains_requireBoolean e.line t

theorem explains_checkCounter (counter : Reference Node) {bounds : Bounds Node}
    (hl : bounds.lower.IsExpression) (hu : bounds.upper.IsExpression) :
    Explains (fun _ => True) (checkCounter counter bounds) := by
  obtain ⟨lower, upper, l⟩ := bounds
  have hbounds : Explains (fun _ => True) (checkBounds ⟨lower, upper, l⟩) := by
    rw [checkBounds]
    exact hl.explains.bind fun _ _ => hu.explains.bind fun _ _ =>
      holds_ite (explains_report id) (explains_pure trivial)
  exact hbounds.bind fun _ _ => explains_bindName counter.name .int

theorem explains_checkAssigned {r : Reference Node} (hr : ∀ i ∈ r.indices, i.IsExpression)
    (line : Nat) (op : AssignOperator) {t : Option Ty} (ht : t ≠ none) :
    Explains (fun _ => True) (checkAssigned line op t r) := by
  by_cases hnil : r.indices = []
  · obtain ⟨name, indices, l⟩ := r
    obtain rfl : indices = [] := hnil
    rw [checkAssigned]
    exact explains_assigned line name op ht
  · obtain ⟨τ, rfl⟩ := Option.ne_none_iff_exists'.mp ht
    rw [checkAssigned_of_ne_nil hnil]
    exact (IsExpression.reference hr).explains.bind fun _ _ => explains_pure trivial

theorem explains_checkStatements {ns : List Node}
    (h : ∀ n ∈ ns, Explains (fun _ => True) (check n)) :
    Explains (fun _ => True) (checkStatements ns) := by
  induction ns with
  | nil =>
    rw [checkStatements]
    exact explains_pure trivial
  | cons n ns ih =>
    rw [List.forall_mem_cons] at h
    rw [checkStatements]
    exact h.1.bind fun _ _ => ih h.2

theorem explains_checkBlock (h : ∀ n ∈ b.statements, Explains (fun _ => True) (check n)) :
    Explains (fun _ => True) (checkBlock b) := by
  rw [checkBlock]
  exact explains_checkStatements h

theorem explains_instruction {i : Instruction} {es : List Node} {l : Location}
    (he : ∀ e ∈ es, e.IsExpression) :
    Explains (fun _ => True) (check (.instruction i es l)) := by
  have hpayload : Explains (fun _ => True) (checkPayload es >>= fun all =>
      if all then pure () else report l.line (.unknownPayload i)) := by
    refine (explains_checkPayload fun e h => (he e h).explains).bind fun all hall => ?_
    rw [if_pos hall]
    exact explains_pure trivial
  intro s hs
  rw [check_instruction_snd]
  exact ⟨(hpayload _ (explains_checkJump l.line i s hs).1).1, fun _ => trivial⟩

theorem explains_conditional {a : Option (Alternative Node)} {l : Location} (he : e.IsExpression)
    (hb : ∀ n ∈ b.statements, Explains (fun _ => True) (check n))
    (ha : Explains (fun _ => True) (checkAlternative a)) :
    Explains (fun _ => True) (check (.conditional e b a l)) := by
  rw [check]
  exact he.explains.bind fun t _ => (explains_requireBoolean e.line t).bind fun _ _ =>
    (explains_checkBlock hb).inBlock.bind fun _ _ => ha.bind fun _ _ => explains_pure trivial

theorem IsStatement.explains {n : Node} (hn : n.IsStatement) :
    Explains (fun _ => True) (check n) := by
  induction hn with
  | @assignment r op e l hr he =>
    rw [check]
    exact he.explains.bind fun t ht => (explains_checkAssigned hr l.line op ht).bind fun _ _ =>
      explains_pure trivial
  | instruction he => exact explains_instruction he
  | expression he =>
    rw [check]
    exact he.explains.bind fun _ _ => explains_pure trivial
  | conditional he _ ih =>
    refine explains_conditional he ih ?_
    rw [checkAlternative]
    exact explains_pure trivial
  | elseIf he _ _ ih ih' =>
    refine explains_conditional he ih ?_
    rw [checkAlternative]
    exact ih'.bind fun _ _ => explains_pure trivial
  | elseBlock he _ _ ih ih' =>
    refine explains_conditional he ih ?_
    rw [checkAlternative]
    exact (explains_checkBlock ih').inBlock
  | @whileLoop e b l he _ ih =>
    rw [check]
    exact he.explains.bind fun t _ => (explains_requireBoolean e.line t).bind fun _ _ =>
      (explains_checkBlock ih).inBlock.inBody.bind fun _ _ => explains_pure trivial
  | @forLoop x lx bounds b l hl hu _ ih =>
    intro s hs
    rw [check_forLoop_snd]
    have hcounter := (explains_checkCounter ⟨x, [], lx⟩ hl hu s hs).1
    exact ⟨((explains_checkBlock ih).inBlock.inBody _ hcounter).1, fun _ => trivial⟩

end Statements

section Points

variable {n e : Node} {ns : List Node} {w : List Occurrence} {s c : Checker Scopes}

theorem Comes.explained (h : Comes ns s w n c) (hn : ∀ n ∈ ns, n.IsStatement)
    (hs : s.Explained) : c.Explained := by
  have henter {s : Checker Scopes} (hs : s.Explained) : s.entered.Explained :=
    hs.of_resolved rfl (·.push)
  have hloop {s : Checker Scopes} (hs : s.Explained) : s.looping.Explained :=
    hs.of_resolved rfl id
  induction h with
  | here => exact hs
  | later _ ih =>
    rw [List.forall_mem_cons] at hn
    exact ih hn.2 (hn.1.explains _ hs).1
  | consequent _ ih =>
    rw [List.forall_mem_cons] at hn
    obtain ⟨he, hb, _⟩ := hn.1.parts_of_conditional
    exact ih hb (henter (explains_checkCondition he _ hs).1)
  | elseIf _ ih =>
    rw [List.forall_mem_cons] at hn
    obtain ⟨he, hb, hm, _⟩ := hn.1.parts_of_conditional
    have hblock := (explains_checkBlock fun n h => (hb n h).explains).inBlock
    exact ih (by simpa using hm) (hblock _ (explains_checkCondition he _ hs).1).1
  | elseBlock _ ih =>
    rw [List.forall_mem_cons] at hn
    obtain ⟨he, hb, _, hb'⟩ := hn.1.parts_of_conditional
    have hblock := (explains_checkBlock fun n h => (hb n h).explains).inBlock
    exact ih (hb' _ rfl) (henter (hblock _ (explains_checkCondition he _ hs).1).1)
  | whileBody _ ih =>
    rw [List.forall_mem_cons] at hn
    cases hn.1 with
    | whileLoop he hb =>
      exact ih hb (henter (hloop (explains_checkCondition he _ hs).1))
  | forBody _ ih =>
    rw [List.forall_mem_cons] at hn
    cases hn.1 with
    | @forLoop x lx _ _ _ hl hu hb =>
      exact ih hb (henter (hloop (explains_checkCounter ⟨x, [], lx⟩ hl hu _ hs).1))

theorem IsExpression.explained_of_evaluates (hn : n.IsExpression) (h : Evaluates n s e c)
    (hs : s.Explained) : c.Explained := by
  cases hn with
  | integer | float | string => cases h
  | reference hi =>
    cases h with
    | index =>
      have hindices := explains_checkIndices fun i h => (hi i (List.mem_append_left _ h)).explains
      exact (hindices s hs).1
  | @matrix _ l _ _ he =>
    cases h with
    | @element rows es _ es' rows' =>
      have hragged := explains_checkRagged l.line (rows ++ (es ++ e :: es') :: rows')
      have hrows := explains_checkRows l.line fun row hr e' h =>
        (he row (List.mem_append_left _ hr) e' h).explains
      have helements := explains_checkElements l.line false fun e' h =>
        (he (es ++ e :: es') (by simp) e' (List.mem_append_left _ h)).explains
      exact (helements _ (hrows _ (hragged s hs).1).1).1
  | builtin _ he =>
    cases h with
    | argument =>
      have hes := explains_checkArguments fun e h => (he e (List.mem_append_left _ h)).explains
      exact (hes s hs).1
  | binary hl =>
    cases h with
    | left => exact hs
    | right => exact (hl.explains s hs).1
  | comparison hl =>
    cases h with
    | leftCompared => exact hs
    | rightCompared => exact (hl.explains s hs).1
  | unary =>
    cases h with
    | operand => exact hs

theorem IsStatement.explained_of_evaluates (hn : n.IsStatement) (h : Evaluates n s e c)
    (hs : s.Explained) : c.Explained := by
  cases hn with
  | assignment _ he =>
    cases h with
    | value => exact hs
    | target => exact (he.explains s hs).1
  | @instruction i _ l he =>
    cases h with
    | payload =>
      have hvalues := explains_checkPayload fun e h => (he e (List.mem_append_left _ h)).explains
      exact (hvalues _ (explains_checkJump l.line i s hs).1).1
  | expression =>
    cases h with
    | statement => exact hs
  | conditional | elseIf | elseBlock =>
    cases h with
    | condition => exact hs
  | whileLoop =>
    cases h with
    | whileCondition => exact hs
  | forLoop hl =>
    cases h with
    | lower => exact hs
    | upper => exact (hl.explains s hs).1

end Points

end Node

namespace Program

variable {p : Program} {e : Node} {c : Checker Scopes}

theorem Evaluates.explained (h : p.Evaluates e c) (hp : ∀ n ∈ p.statements, n.IsStatement) :
    c.Explained := by
  induction h with
  | part hn he =>
    have hs := hn.explained hp Checker.explained_initial
    exact (hn.isStatement hp).explained_of_evaluates he hs
  | operand h he ih => exact (h.isExpression hp).explained_of_evaluates he ih

theorem Passes.explained (h : p.Passes c) (hp : ∀ n ∈ p.statements, n.IsStatement) :
    c.Explained := by
  cases h with
  | start => exact Checker.explained_initial
  | before h => exact h.explained hp Checker.explained_initial
  | behind h =>
    exact ((h.isStatement hp).explains _ (h.explained hp Checker.explained_initial)).1
  | unread h => exact h.explained hp
  | read h => exact ((h.isExpression hp).explains _ (h.explained hp)).1

theorem explained_findings (hp : ∀ n ∈ p.statements, n.IsStatement) :
    ∀ d ∈ p.findings.diagnostics.head?, ¬ d.violation.IsFollowUp := by
  rw [diagnostics_findings]
  have hstatements := Node.explains_checkStatements fun n hn => (hp n hn).explains
  exact (hstatements _ Checker.explained_initial).1.first

/-- Among the reports about a program every one about a missing type has another one in front, so
that no such report is the first. Wherever the check passes through, it has reported a first part of
all that it reports, and that is not empty if some name has no type or an expression has just been
given none. -/
theorem followUps_caused {cs : List Char} (h : ofText cs = .ok p) :
    (∀ ds d es, p.findings.diagnostics = ds ++ d :: es → d.violation.IsFollowUp →
        ∃ d' ∈ ds, ¬ d'.violation.IsFollowUp) ∧
      (∀ d ∈ p.findings.diagnostics.head?, ¬ d.violation.IsFollowUp) ∧
      (∀ c, p.Passes c → c.diagnostics <+: p.findings.diagnostics ∧
        (¬ c.environment.Resolved → c.diagnostics ≠ [])) ∧
      ∀ e c, p.Evaluates e c → c.diagnostics <+: (Node.check e c).2.diagnostics ∧
        (Node.check e c).2.diagnostics <+: p.findings.diagnostics ∧
        ((Node.check e c).1 = none → (Node.check e c).2.diagnostics ≠ []) := by
  have hp := isStatement_of_ofText h
  have hfirst := explained_findings hp
  refine ⟨fun ds d es hd hfollows => ?_, hfirst,
    fun c hc => ⟨hc.within, fun hunresolved hnil => ?_⟩,
    fun e c he => ⟨he.within.1, he.within.2, fun hnone hnil => ?_⟩⟩
  · rw [hd] at hfirst
    cases ds with
    | nil => exact absurd hfollows (hfirst d rfl)
    | cons d' ds => exact ⟨d', List.mem_cons_self, hfirst d' rfl⟩
  · exact hunresolved ((hc.explained hp).resolved hnil)
  · exact ((he.isExpression hp).explains c (he.explained hp)).2 hnil hnone

section Untyped

/-- A text in which one name that is not bound leaves another one without a type. -/
def untypedText : List Char := "x = a + 1;\nprint x;".toList

def untypedTokens : List Token :=
  [⟨.name "x", ⟨1, 1⟩⟩, ⟨.symbol (.assign .plain), ⟨1, 3⟩⟩, ⟨.name "a", ⟨1, 5⟩⟩,
    ⟨.symbol (.binary (.plain .add)), ⟨1, 7⟩⟩, ⟨.integer 1, ⟨1, 9⟩⟩,
    ⟨.symbol .semicolon, ⟨1, 10⟩⟩, ⟨.keyword (.instruction .printValues), ⟨2, 1⟩⟩,
    ⟨.name "x", ⟨2, 7⟩⟩, ⟨.symbol .semicolon, ⟨2, 8⟩⟩, ⟨.endOfInput, ⟨2, 9⟩⟩]

def untypedValue : Node :=
  .binary (.plain .add) (.reference ⟨"a", [], ⟨1, 5⟩⟩) (.integer 1 ⟨1, 9⟩) ⟨1, 7⟩

def untypedProgram : Program :=
  ⟨[.assignment ⟨"x", [], ⟨1, 1⟩⟩ .plain untypedValue ⟨1, 3⟩,
    .instruction .printValues [.reference ⟨"x", [], ⟨2, 7⟩⟩] ⟨2, 1⟩], ⟨1, 1⟩⟩

theorem ofText_untypedText : ofText untypedText = .ok untypedProgram := by
  have ht : (Scan.ofText untypedText).tokens = untypedTokens := by decide +kernel
  rw [ofText, ht]
  rfl

theorem followUps_untypedProgram :
    ofText untypedText = .ok untypedProgram ∧
      untypedProgram.findings.diagnostics =
        [⟨1, .undefinedVariable "a"⟩, ⟨1, .unknownOperand⟩, ⟨2, .unknownPayload .printValues⟩] ∧
      (∃ d ∈ [(⟨1, .undefinedVariable "a"⟩ : Diagnostic)], ¬ d.violation.IsFollowUp) ∧
      (∃ c, untypedProgram.Passes c ∧ c.diagnostics <+: untypedProgram.findings.diagnostics ∧
        ¬ c.environment.Resolved ∧ c.diagnostics ≠ []) ∧
      untypedProgram.Evaluates untypedValue .initial ∧
      (Node.check untypedValue Checker.initial).2.diagnostics ≠ [] := by
  have hcaused := followUps_caused ofText_untypedText
  have hvalue : untypedProgram.Evaluates untypedValue .initial := .part .here .value
  have hpasses := Passes.behind (p := untypedProgram) .here
  have hunresolved : ¬ Scopes.Resolved ⟨⟨[⟨"x", none⟩]⟩, []⟩ := fun h =>
    h _ List.mem_cons_self _ List.mem_cons_self rfl
  obtain ⟨hfront, hreported⟩ := hcaused.2.2.1 _ hpasses
  refine ⟨ofText_untypedText, rfl, ?_, ⟨_, hpasses, hfront, hunresolved, hreported hunresolved⟩,
    hvalue, ?_⟩
  · exact hcaused.1 [⟨1, .undefinedVariable "a"⟩] ⟨1, .unknownOperand⟩
      [⟨2, .unknownPayload .printValues⟩] rfl trivial
  · exact (hcaused.2.2.2 _ _ hvalue).2.2 rfl

end Untyped

end Program

end MatrixLang
