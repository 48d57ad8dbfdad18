import MatrixLang.Typing.Ty

/-! # Tables of bindings

A table maps names to their types in the order in which they were first bound. A bound name may lack
a known type, which is not the same as being unbound.
-/

namespace MatrixLang

/-- A bound name and its type, if that is known. -/
structure Binding where
  name : String
  type? : Option Ty
  deriving DecidableEq, Repr

/-- Bindings in the order in which their names were first put. -/
structure Table where
  bindings : List Binding
  deriving DecidableEq, Repr

namespace Table

def empty : Table := ⟨[]⟩

def size (t : Table) : Nat := t.bindings.length

def isEmpty (t : Table) : Bool := t.bindings.isEmpty

def find? (t : Table) (name : String) : Option Binding :=
  t.bindings.find? (·.name == name)

def type? (t : Table) (name : String) : Option Ty :=
  (t.find? name).bind (·.type?)

/-- The bindings with `b` at the place of its name, or at the end for a new name. -/
def putInto (b : Binding) : List Binding → List Binding
  | [] => [b]
  | c :: cs => if c.name = b.name then b :: cs else c :: putInto b cs

/-- Binds a name, anew or again at its place. -/
def put (t : Table) (b : Binding) : Table := ⟨putInto b t.bindings⟩

def putAll (t u : Table) : Table := u.bindings.foldl put t

theorem find?_putInto (b : Binding) (bs : List Binding) (name : String) :
    (putInto b bs).find? (·.name == name) =
      if b.name = name then some b else bs.find? (·.name == name) := by
  induction bs with
  | nil => by_cases h : b.name = name <;> simp [putInto, h]
  | cons c cs ih =>
    by_cases hc : c.name = b.name
    · by_cases h : b.name = name <;> simp [putInto, hc, h]
    · by_cases h : b.name = name
      · simp_all [putInto]
      · by_cases hn : c.name = name <;> simp_all [putInto]

theorem find?_put (t : Table) (b : Binding) (name : String) :
    (t.put b).find? name = if b.name = name then some b else t.find? name :=
  find?_putInto b t.bindings name

end Table

end MatrixLang
