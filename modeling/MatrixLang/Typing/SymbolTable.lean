import Mathlib.Data.List.Nodup
import MatrixLang.Typing.Scopes

/-! # Symbol tables

A symbol table keeps its bindings by name, and beside them the names in the order in which they were
first put. A stack of such tables holds the bindings of a check as scopes do.
-/

namespace MatrixLang

structure SymbolTable where
  entries : Std.HashMap String Binding
  insertionOrder : List String
  nodup : insertionOrder.Nodup
  mem_entries : ∀ name, name ∈ entries ↔ name ∈ insertionOrder
  name_eq : ∀ (name : String) (b : Binding), entries[name]? = some b → b.name = name

namespace SymbolTable

def empty : SymbolTable := ⟨∅, [], List.nodup_nil, by simp, by simp⟩

def size (x : SymbolTable) : Nat := x.entries.size

def isEmpty (x : SymbolTable) : Bool := x.entries.isEmpty

def find? (x : SymbolTable) (name : String) : Option Binding := x.entries[name]?

def type? (x : SymbolTable) (name : String) : Option Ty := (x.find? name).bind (·.type?)

/-- The bindings in the order in which their names were first put. -/
def bindings (x : SymbolTable) : List Binding := x.insertionOrder.filterMap x.find?

def put (x : SymbolTable) (b : Binding) : SymbolTable where
  entries := x.entries.insert b.name b
  insertionOrder := if b.name ∈ x.entries then x.insertionOrder else x.insertionOrder ++ [b.name]
  nodup := by
    split
    · exact x.nodup
    next h => exact List.nodup_append_comm.1 (List.nodup_cons.2 ⟨mt (x.mem_entries _).2 h, x.nodup⟩)
  mem_entries name := by
    split
    next h =>
      rw [Std.HashMap.mem_insert, ← x.mem_entries, beq_iff_eq, or_iff_right_iff_imp]
      exact fun he => he ▸ h
    · rw [Std.HashMap.mem_insert, x.mem_entries, List.mem_append, List.mem_singleton, beq_iff_eq,
        or_comm, eq_comm]
  name_eq name c h := by
    rw [Std.HashMap.getElem?_insert] at h
    split at h
    next he =>
      obtain rfl := Option.some.inj h
      exact beq_iff_eq.1 he
    · exact x.name_eq name c h

def putAll (x y : SymbolTable) : SymbolTable := y.bindings.foldl put x

end SymbolTable

/-- The table of the innermost open block, and those of the enclosing ones from the inside out. -/
structure ScopeStack where
  innermost : SymbolTable
  enclosing : List SymbolTable

namespace ScopeStack

def empty : ScopeStack := ⟨.empty, []⟩

def depth (x : ScopeStack) : Nat := x.enclosing.length + 1

def find? (x : ScopeStack) (name : String) : Option Binding := x.innermost.find? name

def put (x : ScopeStack) (b : Binding) : ScopeStack := { x with innermost := x.innermost.put b }

def push (x : ScopeStack) : ScopeStack := ⟨x.innermost, x.innermost :: x.enclosing⟩

def pop (x : ScopeStack) : ScopeStack :=
  match x.enclosing with
  | [] => x
  | y :: ys => ⟨y.putAll x.innermost, ys⟩

/-- The outermost table once every scope is closed. -/
def global (x : ScopeStack) : SymbolTable :=
  x.enclosing.foldl (fun inner y => y.putAll inner) x.innermost

instance : Environment ScopeStack where
  find? := find?
  put := put
  enter := push
  leave := pop

end ScopeStack

end MatrixLang
