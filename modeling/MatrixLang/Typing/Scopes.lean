import MatrixLang.Typing.Table

/-! # Scopes

A block opens a scope with a copy of the enclosing bindings, and closing it writes all its bindings
back. Anything that binds names and opens and closes blocks can serve for checking a program; a
single table serves too, with nothing done for blocks.
-/

namespace MatrixLang

/-- What holds the bindings while a program is checked. -/
class Environment (ε : Type) where
  find? : ε → String → Option Binding
  put : ε → Binding → ε
  enter : ε → ε
  leave : ε → ε

/-- The table of the innermost open block, and those of the enclosing ones from the inside out. -/
structure Scopes where
  innermost : Table
  enclosing : List Table
  deriving DecidableEq, Repr

namespace Scopes

def empty : Scopes := ⟨.empty, []⟩

def depth (s : Scopes) : Nat := s.enclosing.length + 1

def find? (s : Scopes) (name : String) : Option Binding := s.innermost.find? name

def put (s : Scopes) (b : Binding) : Scopes := { s with innermost := s.innermost.put b }

def push (s : Scopes) : Scopes := ⟨s.innermost, s.innermost :: s.enclosing⟩

/-- Closes the innermost scope; the outermost one stays open. -/
def pop (s : Scopes) : Scopes :=
  match s.enclosing with
  | [] => s
  | t :: ts => ⟨t.putAll s.innermost, ts⟩

/-- The outermost table once every scope is closed, from the inside out. -/
def closeAll (innermost : Table) : List Table → Table
  | [] => innermost
  | t :: ts => closeAll (t.putAll innermost) ts

def toTable (s : Scopes) : Table := closeAll s.innermost s.enclosing

instance : Environment Scopes where
  find? := find?
  put := put
  enter := push
  leave := pop

end Scopes

instance : Environment Table where
  find? := Table.find?
  put := Table.put
  enter t := t
  leave t := t

end MatrixLang
