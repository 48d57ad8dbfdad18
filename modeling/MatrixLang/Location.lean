/-! # Places in a text

Lines and columns count from one, and a column counts characters since the last line break.
The place after a text depends only on its line breaks and on what follows the last of them.
-/

namespace MatrixLang

structure Location where
  line : Nat
  column : Nat
  deriving DecidableEq, Repr, Inhabited

namespace Location

def start : Location := ⟨1, 1⟩

/-- The place given to the end of an empty list of tokens. -/
def nowhere : Location := ⟨0, 0⟩

def next (l : Location) (c : Char) : Location :=
  if c = '\n' then ⟨l.line + 1, 1⟩ else ⟨l.line, l.column + 1⟩

def after (l : Location) (cs : List Char) : Location :=
  cs.foldl next l

def text (l : Location) : String :=
  s!"line {l.line}, column {l.column}"

@[simp] theorem after_nil (l : Location) : l.after [] = l := rfl

@[simp] theorem after_cons (l : Location) (c : Char) (cs : List Char) :
    l.after (c :: cs) = (l.next c).after cs := rfl

@[simp] theorem after_append (l : Location) (cs ds : List Char) :
    l.after (cs ++ ds) = (l.after cs).after ds :=
  List.foldl_append

end Location

end MatrixLang
