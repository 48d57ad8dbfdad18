/-! # Shapes of matrices

An extent is a known number or unknown until the program runs. Two extents agree unless both are
known and differ, and a shape with one row is compatible with every row count.
-/

namespace MatrixLang

inductive Extent where
  | known (n : Nat)
  | unknown
  deriving DecidableEq, Repr

namespace Extent

/-- The more precise of two extents that agree. -/
def unify? : Extent → Extent → Option Extent
  | .known m, .known n => if m = n then some (.known m) else none
  | .unknown, e => some e
  | e, .unknown => some e

def text : Extent → String
  | .known n => toString n
  | .unknown => "?"

end Extent

structure Shape where
  rows : Extent
  columns : Extent
  deriving DecidableEq, Repr

namespace Shape

def ofSize (rows columns : Nat) : Shape := ⟨.known rows, .known columns⟩

def transpose (s : Shape) : Shape := ⟨s.columns, s.rows⟩

def isRow (s : Shape) : Bool := s.rows = .known 1

/-- The shape of a sum of matrices of the shapes `s` and `t`, if their columns agree and their rows
do or one of them is a row. -/
def broadcast? (s t : Shape) : Option Shape :=
  match s.columns.unify? t.columns with
  | none => none
  | some columns =>
    match s.rows.unify? t.rows with
    | some rows => some ⟨rows, columns⟩
    | none =>
      if s.isRow then some ⟨t.rows, columns⟩
      else if t.isRow then some ⟨s.rows, columns⟩
      else none

def text (s : Shape) : String := s.rows.text ++ "x" ++ s.columns.text

@[simp] theorem transpose_transpose (s : Shape) : s.transpose.transpose = s := rfl

end Shape

end MatrixLang
