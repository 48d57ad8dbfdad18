import MatrixLang.Proofs.Checking.Congruence
import MatrixLang.Proofs.Scope.Flatten
import MatrixLang.Typing.SymbolTable

/-! # Symbol tables are tables

The bindings of a symbol table, listed in order, form a table on which everything that is put,
looked up or listed comes out the same. So do stacks of symbol tables and scopes, under every run of
steps and under every check.
-/

namespace MatrixLang

namespace SymbolTable

variable (x y : SymbolTable)

def toTable : Table := ⟨x.bindings⟩

@[simp] theorem toTable_empty : empty.toTable = .empty := rfl

theorem find?_of_mem {name : String} (h : name ∈ x.insertionOrder) :
    ∃ b, x.find? name = some b ∧ b.name = name := by
  have hm := (x.mem_entries name).2 h
  have hb : x.find? name = some x.entries[name] := Std.HashMap.getElem?_eq_some_getElem hm
  exact ⟨x.entries[name], hb, x.name_eq _ _ hb⟩

theorem find?_of_notMem {name : String} (h : name ∉ x.insertionOrder) : x.find? name = none :=
  Std.HashMap.getElem?_eq_none (mt (x.mem_entries name).1 h)

@[simp] theorem names_toTable : x.toTable.names = x.insertionOrder := by
  rw [toTable, Table.names_mk, bindings, List.map_filterMap]
  calc x.insertionOrder.filterMap (fun name => (x.find? name).map (·.name))
      = x.insertionOrder.filterMap some := by
        refine List.filterMap_congr fun name h => ?_
        obtain ⟨b, hb, rfl⟩ := x.find?_of_mem h
        rw [hb, Option.map_some]
    _ = x.insertionOrder := List.filterMap_some

theorem nodup_toTable : x.toTable.names.Nodup := by
  rw [names_toTable]
  exact x.nodup

@[simp] theorem find?_toTable (name : String) : x.toTable.find? name = x.find? name := by
  by_cases h : name ∈ x.insertionOrder
  · obtain ⟨b, hb, rfl⟩ := x.find?_of_mem h
    rw [hb]
    exact Table.find?_eq_some_of_mem x.nodup_toTable (List.mem_filterMap.2 ⟨_, h, hb⟩)
  · rw [x.find?_of_notMem h, Table.find?_eq_none]
    rwa [names_toTable]

@[simp] theorem type?_toTable (name : String) : x.toTable.type? name = x.type? name := by
  rw [Table.type?, find?_toTable, type?]

/-- The keys of the entries are the names in order. -/
theorem keys_perm : x.entries.keys.Perm x.toTable.names := by
  rw [names_toTable, List.perm_ext_iff_of_nodup Std.HashMap.nodup_keys x.nodup]
  intro name
  rw [Std.HashMap.mem_keys, x.mem_entries]

@[simp] theorem size_toTable : x.toTable.size = x.size :=
  calc x.toTable.size = x.toTable.names.length := (List.length_map _).symm
    _ = x.entries.keys.length := x.keys_perm.length_eq.symm
    _ = x.size := Std.HashMap.length_keys

@[simp] theorem isEmpty_toTable : x.toTable.isEmpty = x.isEmpty :=
  calc x.toTable.isEmpty = x.toTable.names.isEmpty := List.isEmpty_map.symm
    _ = x.entries.keys.isEmpty := x.keys_perm.isEmpty_eq.symm
    _ = x.isEmpty := Std.HashMap.isEmpty_keys

@[simp] theorem toTable_put (b : Binding) : (x.put b).toTable = x.toTable.put b := by
  refine Table.eq_of_find? (nodup_toTable _) ?_ fun name => ?_
  · simp only [Table.names_put, names_toTable, put, x.mem_entries]
  · rw [find?_toTable, Table.find?_put, find?_toTable, find?, find?, put,
      Std.HashMap.getElem?_insert]
    simp only [beq_iff_eq]

theorem toTable_foldl_put (bs : List Binding) :
    (bs.foldl put x).toTable = bs.foldl Table.put x.toTable := by
  induction bs generalizing x with
  | nil => rfl
  | cons b bs ih => rw [List.foldl_cons, ih, toTable_put, List.foldl_cons]

@[simp] theorem toTable_putAll : (x.putAll y).toTable = x.toTable.putAll y.toTable :=
  x.toTable_foldl_put y.bindings

end SymbolTable

namespace ScopeStack

variable (x : ScopeStack)

def toScopes : Scopes := ⟨x.innermost.toTable, x.enclosing.map (·.toTable)⟩

@[simp] theorem toScopes_empty : empty.toScopes = .empty := rfl

@[simp] theorem depth_toScopes : x.toScopes.depth = x.depth := by
  simp [toScopes, Scopes.depth, depth]

theorem toTable_global : x.global.toTable = x.toScopes.toTable := by
  obtain ⟨y, ys⟩ := x
  induction ys generalizing y with
  | nil => rfl
  | cons z ys ih =>
    have h := ih (z.putAll y)
    rw [toScopes, SymbolTable.toTable_putAll] at h
    exact h

end ScopeStack

/-- A map of environments under which everything done to them comes out the same. -/
structure Environment.IsHom {ε δ : Type} [Environment ε] [Environment δ] (f : ε → δ) : Prop where
  find? : ∀ s name, find? (f s) name = find? s name
  put : ∀ s b, put (f s) b = f (put s b)
  enter : ∀ s, enter (f s) = f (enter s)
  leave : ∀ s, leave (f s) = f (leave s)

theorem ScopeStack.isHom_toScopes : Environment.IsHom toScopes where
  find? s name := s.innermost.find?_toTable name
  put s b := by
    change Scopes.put _ _ = (ScopeStack.put _ _).toScopes
    simp [Scopes.put, ScopeStack.put, toScopes]
  enter _ := rfl
  leave s := by
    obtain ⟨y, ys⟩ := s
    change Scopes.pop _ = (ScopeStack.pop _).toScopes
    cases ys <;> simp [Scopes.pop, ScopeStack.pop, toScopes]

section Hom

variable {ε δ : Type} [Environment ε] [Environment δ] {f : ε → δ} (hf : Environment.IsHom f)

include hf

namespace ScopeStep

theorem next_map (s : ε) : ∀ step : ScopeStep, step.next (f s) = f (step.next s)
  | .put b => hf.put s b
  | .push => hf.enter s
  | .pop => hf.leave s
  | .get _ => rfl

theorem run_map (s : ε) (steps : List ScopeStep) : run (f s) steps = f (run s steps) := by
  induction steps generalizing s with
  | nil => rfl
  | cons step steps ih =>
    rw [run, List.foldl_cons, next_map hf]
    exact ih _

theorem answers_map (s : ε) (steps : List ScopeStep) : answers (f s) steps = answers s steps := by
  induction steps generalizing s with
  | nil => rfl
  | cons step steps ih =>
    cases step with
    | get name => exact congrArg₂ List.cons (hf.find? s name) (ih s)
    | put b => exact (congrArg (answers · steps) (hf.put s b)).trans (ih _)
    | push => exact (congrArg (answers · steps) (hf.enter s)).trans (ih _)
    | pop => exact (congrArg (answers · steps) (hf.leave s)).trans (ih _)

end ScopeStep

end Hom

namespace Checker

variable {ε δ : Type}

def map (f : ε → δ) (c : Checker ε) : Checker δ := { c with environment := f c.environment }

end Checker

namespace Check

variable {ε δ α β : Type} {f : ε → δ}

/-- Two checks that do the same on an environment and on what it is mapped to. -/
def Commutes (f : ε → δ) (c : Check ε α) (d : Check δ α) : Prop :=
  ∀ s, d (s.map f) = ((c s).1, (c s).2.map f)

theorem Commutes.bind {c : Check ε α} {d : Check δ α} {g : α → Check ε β} {k : α → Check δ β}
    (h : Commutes f c d) (hg : ∀ a, Commutes f (g a) (k a)) : Commutes f (c >>= g) (d >>= k) := by
  intro s
  rw [bind_apply, h s]
  exact hg _ _

theorem commutes [Environment ε] [Environment δ] (hf : Environment.IsHom f) :
    Congruence (fun {α} (c : Check ε α) d => Commutes f c d) where
  pure _ _ := rfl
  bind := .bind
  report _ _ _ := rfl
  inLoop _ := rfl
  find? name s := congrArg (·, s.map f) (hf.find? s.environment name)
  bindName name type? s := by
    simp only [bindName, Checker.map, hf.put]
  inBody h s := by
    have hs := h { s with loopDepth := s.loopDepth + 1 }
    simp only [Checker.map] at hs
    simp only [inBody, Checker.map, hs]
  inBlock h s := by
    have hs := h { s with environment := Environment.enter s.environment }
    simp only [Checker.map] at hs
    simp only [inBlock, Checker.map, hf.enter, hs, hf.leave]

end Check

namespace Checker

variable {ε δ : Type} [Environment ε] [Environment δ] {f : ε → δ} (hf : Environment.IsHom f)

include hf

theorem expression_map (c : Checker ε) (n : Node) :
    (c.map f).expression n = ((c.expression n).1, (c.expression n).2.map f) :=
  Node.check_congr (Check.commutes hf) n c

theorem program_map (c : Checker ε) (p : Program) :
    (c.map f).program p = (c.program p).map f :=
  congrArg Prod.snd (Node.checkBlock_congr (Check.commutes hf) p c)

end Checker

end MatrixLang
