import MatrixLang.Tree.Expectation

/-! # Grammar rules

A rule reads the front of a list of tokens and leaves the rest, or stops at the token that does not
fit. Rules that call each other carry a bound on their depth, and running out of it is kept apart
from a syntax error.
-/

namespace MatrixLang

inductive Outcome (α : Type) where
  | ok (value : α) (rest : List Token)
  | error (expected : Expectation) (rest : List Token)
  | exhausted
  deriving Repr

/-- Goes on with `f` after a value; a stop stays a stop. -/
def Outcome.andThen {α β : Type} (o : Outcome α) (f : α → List Token → Outcome β) : Outcome β :=
  match o with
  | .ok a rest => f a rest
  | .error e rest => .error e rest
  | .exhausted => .exhausted

/-- The token in front; past the last one the input has ended nowhere. -/
def Token.head (ts : List Token) : Token :=
  ts.headD ⟨.endOfInput, .nowhere⟩

def Rule (α : Type) := List Token → Outcome α

namespace Rule

instance : Monad Rule where
  pure a ts := .ok a ts
  bind r f ts := (r ts).andThen f

variable {α : Type}

def exhausted : Rule α := fun _ => .exhausted

def fail (e : Expectation) : Rule α := fun ts => .error e ts

def peek : Rule Token := fun ts => .ok (Token.head ts) ts

def skip : Rule Unit := fun ts => .ok () (ts.drop 1)

/-- The tokens that are left, to come back to with `resume`. -/
def remaining : Rule (List Token) := fun ts => .ok ts ts

def resume (ts : List Token) : Rule Unit := fun _ => .ok () ts

def accept (s : Symbol) : Rule Bool := do
  let t ← peek
  if t.kind = .symbol s then
    skip
    return true
  else
    return false

def expect (s : Symbol) (e : Expectation) : Rule Unit := do
  let t ← peek
  if t.kind = .symbol s then skip else fail e

theorem pure_apply (a : α) (ts : List Token) : (pure a : Rule α) ts = .ok a ts := rfl

theorem bind_apply {β : Type} (r : Rule α) (f : α → Rule β) (ts : List Token) :
    (r >>= f) ts = (r ts).andThen f := rfl

end Rule

end MatrixLang
