import MatrixLang.Analysis
import MatrixLang.Proofs.Scope.SymbolTable

/-! # Checking in one flat table

A check over scopes and the same check over a single table keep in step through every node of every
tree: they give the same types and diagnostics, and the scopes always flatten to the table. Each
check leaves the depth of the scopes and of the loops as it found it.
-/

namespace MatrixLang

/-- A checker over scopes in step with one over the table to which they flatten. -/
structure Checker.Flattens (s : Checker Scopes) (t : Checker Table) : Prop where
  environment : s.environment.Flattens t.environment
  loopDepth : s.loopDepth = t.loopDepth
  diagnostics : s.diagnostics = t.diagnostics

namespace Check

variable {α β : Type}

/-- Two checks that give the same result, keep in step and leave all depths as they are. -/
structure InStep (s : Checker Scopes) (c : α × Checker Scopes) (d : α × Checker Table) : Prop where
  result : c.1 = d.1
  state : c.2.Flattens d.2
  depth : c.2.environment.depth = s.environment.depth
  loopDepth : c.2.loopDepth = s.loopDepth

def Simulates (c : Check Scopes α) (d : Check Table α) : Prop :=
  ∀ ⦃s t⦄, Checker.Flattens s t → InStep s (c s) (d t)

namespace Simulates

theorem pure (a : α) : Simulates (Pure.pure a) (Pure.pure a) :=
  fun _ _ h => ⟨rfl, h, rfl, rfl⟩

theorem bind {c : Check Scopes α} {d : Check Table α} {f : α → Check Scopes β}
    {g : α → Check Table β} (h : c.Simulates d) (hf : ∀ a, (f a).Simulates (g a)) :
    Simulates (c >>= f) (d >>= g) := by
  intro s t hs
  have hc := h hs
  have hb := hf (c s).1 hc.state
  rw [bind_apply, bind_apply, ← hc.result]
  exact ⟨hb.result, hb.state, hb.depth.trans hc.depth, hb.loopDepth.trans hc.loopDepth⟩

theorem report (line : Nat) (v : Violation) : Simulates (report line v) (report line v) :=
  fun _ _ h => ⟨rfl, ⟨h.environment, h.loopDepth, by simp [Check.report, h.diagnostics]⟩, rfl, rfl⟩

theorem inLoop : Simulates inLoop inLoop :=
  fun _ _ h => ⟨by simp [Check.inLoop, h.loopDepth], h, rfl, rfl⟩

theorem find? (name : String) : Simulates (find? name) (find? name) :=
  fun _ _ h => ⟨h.environment.find? name, h, rfl, rfl⟩

theorem bindName (name : String) (type? : Option Ty) :
    Simulates (bindName name type?) (bindName name type?) :=
  fun _ _ h => ⟨rfl, ⟨h.environment.put _, h.loopDepth, h.diagnostics⟩, rfl, rfl⟩

theorem inBody {c : Check Scopes α} {d : Check Table α} (h : c.Simulates d) :
    Simulates (inBody c) (inBody d) := by
  intro s t hs
  have hb := h (s := { s with loopDepth := s.loopDepth + 1 })
    (t := { t with loopDepth := t.loopDepth + 1 })
    ⟨hs.environment, congrArg (· + 1) hs.loopDepth, hs.diagnostics⟩
  refine ⟨hb.result, ⟨hb.state.environment, ?_, hb.state.diagnostics⟩, hb.depth, ?_⟩
  · exact congrArg (· - 1) hb.state.loopDepth
  · exact congrArg (· - 1) hb.loopDepth

theorem inBlock {c : Check Scopes α} {d : Check Table α} (h : c.Simulates d) :
    Simulates (inBlock c) (inBlock d) := by
  intro s t hs
  have hb := h (s := { s with environment := s.environment.push }) (t := t)
    ⟨hs.environment.push, hs.loopDepth, hs.diagnostics⟩
  refine ⟨hb.result, ⟨hb.state.environment.pop, hb.state.loopDepth, hb.state.diagnostics⟩, ?_,
    hb.loopDepth⟩
  calc _ = max ((c { s with environment := s.environment.push }).2.environment.depth - 1) 1 :=
        Scopes.depth_pop _
    _ = max s.environment.depth 1 := by rw [hb.depth]; simp
    _ = s.environment.depth := by simp [Scopes.depth]

theorem congruence : Congruence Simulates where
  pure := .pure
  bind := .bind
  report := .report
  inLoop := .inLoop
  find? := .find?
  bindName := .bindName
  inBody := .inBody
  inBlock := .inBlock

end Simulates

end Check

namespace Checker

/-- The checker of a program in which blocks do nothing, before it has seen anything. -/
def flat : Checker Table := ⟨.empty, 0, []⟩

theorem flattens_initial : initial.Flattens flat := ⟨Scopes.flattens_empty, rfl, rfl⟩

/-- A checker at the depths of the checker `s` that has found what one over a table has. -/
structure Matches (s c : Checker Scopes) (d : Checker Table) : Prop where
  depth : c.environment.depth = s.environment.depth
  loopDepth : c.loopDepth = s.loopDepth
  diagnostics : c.diagnostics = d.diagnostics
  table : c.environment.toTable = d.environment
  type? : ∀ name, c.type? name = d.type? name

variable {s : Checker Scopes} {t : Checker Table}

theorem Flattens.type? (h : s.Flattens t) (name : String) : s.type? name = t.type? name :=
  congrArg (Option.bind · _) (h.environment.find? name)

theorem matches_of_inStep {α : Type} {c : α × Checker Scopes} {d : α × Checker Table}
    (h : Check.InStep s c d) : s.Matches c.2 d.2 :=
  ⟨h.depth, h.loopDepth, h.state.diagnostics, h.state.environment.toTable, h.state.type?⟩

theorem Flattens.expression (h : s.Flattens t) (n : Node) :
    (s.expression n).1 = (t.expression n).1 ∧ s.Matches (s.expression n).2 (t.expression n).2 := by
  have hn := Node.check_congr Check.Simulates.congruence n h
  exact ⟨hn.result, matches_of_inStep hn⟩

theorem Flattens.program (h : s.Flattens t) (p : Program) : s.Matches (s.program p) (t.program p) :=
  matches_of_inStep (Node.checkBlock_congr Check.Simulates.congruence p h)

end Checker

/-- Checking a program over scopes finds what checking it over one table does. -/
theorem Program.findings_eq (p : Program) :
    p.findings = ⟨(Checker.flat.program p).diagnostics, (Checker.flat.program p).environment⟩ := by
  have h := Checker.flattens_initial.program p
  simp only [findings, Checker.findings, h.diagnostics, h.table]

open ScopeStep in
/-- A stack of scopes is one flat table, and so are the scopes of a checker, whatever it checks. The
same goes for scopes that keep their bindings by name and the order of the names beside them. -/
theorem scopes_eq_table (steps : List ScopeStep) :
    let scopes := run Scopes.empty steps
    let table := run Table.empty steps
    let stack := run ScopeStack.empty steps
    answers Scopes.empty steps = answers Table.empty steps ∧
    scopes.toTable = table ∧
    table.names = ((puts steps).map (·.name)).eraseDups ∧ table.names.Nodup ∧
    (∀ b ∈ table.bindings, Table.latest? (puts steps) b.name = some b) ∧
    (∀ name, scopes.find? name = Table.latest? (puts steps) name) ∧
    answers ScopeStack.empty steps = answers Table.empty steps ∧ stack.toScopes = scopes ∧
    stack.global.insertionOrder = table.names ∧ stack.global.bindings = table.bindings ∧
    stack.global.size = table.size ∧
    ∀ (loopDepth : Nat) (diagnostics : List Diagnostic),
      let s : Checker Scopes := ⟨scopes, loopDepth, diagnostics⟩
      let t : Checker Table := ⟨table, loopDepth, diagnostics⟩
      let x : Checker ScopeStack := ⟨stack, loopDepth, diagnostics⟩
      (∀ n : Node, (s.expression n).1 = (t.expression n).1 ∧
        s.Matches (s.expression n).2 (t.expression n).2 ∧
        s.expression n = ((x.expression n).1, (x.expression n).2.map ScopeStack.toScopes)) ∧
      ∀ p : Program, s.Matches (s.program p) (t.program p) ∧
        s.program p = (x.program p).map ScopeStack.toScopes := by
  intro scopes table stack
  have hf : scopes.Flattens table := flattens_run Scopes.flattens_empty steps
  have ht : table = (puts steps).foldl Table.put .empty := run_table _ _
  have hn : table.names.Nodup := hf.nodup
  have hl : ∀ name, table.find? name = Table.latest? (puts steps) name := fun name => by
    rw [ht, Table.find?_foldl_put, Table.find?, Table.empty, List.find?_nil, Option.or_none]
  have ha : answers Scopes.empty steps = answers Table.empty steps :=
    answers_eq Scopes.flattens_empty steps
  have hx : stack.toScopes = scopes := (run_map ScopeStack.isHom_toScopes .empty steps).symm
  have hg : stack.global.toTable = table := by rw [ScopeStack.toTable_global, hx, hf.toTable]
  refine ⟨ha, hf.toTable, ?_, hn, fun b hb => ?_, fun name => (hf.find? name).trans (hl name), ?_,
    hx, ?_, congrArg Table.bindings hg, ?_, ?_⟩
  · rw [ht, Table.names_foldl_put]
    simp [Table.empty]
  · rw [← hl]
    exact Table.find?_eq_some_of_mem hn hb
  · exact (answers_map ScopeStack.isHom_toScopes .empty steps).symm.trans ha
  · rw [← hg, SymbolTable.names_toTable]
  · rw [← hg, SymbolTable.size_toTable]
  · intro loopDepth diagnostics s t x
    have hs : s.Flattens t := ⟨hf, rfl, rfl⟩
    have hc : s = x.map ScopeStack.toScopes := congrArg (Checker.mk · _ _) hx.symm
    refine ⟨fun n => ⟨(hs.expression n).1, (hs.expression n).2, ?_⟩,
      fun p => ⟨hs.program p, ?_⟩⟩
    · rw [hc]
      exact Checker.expression_map ScopeStack.isHom_toScopes x n
    · rw [hc]
      exact Checker.program_map ScopeStack.isHom_toScopes x p

end MatrixLang
