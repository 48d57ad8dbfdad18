/-! # Lines of a text

A line break, alone or behind a carriage return, ends a line and belongs to none. The last line may
lack its break, and a carriage return that no break follows is a character like any other.
-/

namespace MatrixLang.Text

def prepend (c : Char) : List (List Char) → List (List Char)
  | [] => [[c]]
  | l :: ls => (c :: l) :: ls

def lines : List Char → List (List Char)
  | [] => []
  | '\n' :: cs => [] :: lines cs
  | '\r' :: '\n' :: cs => [] :: lines cs
  | c :: cs => prepend c (lines cs)

def padLeft (n : Nat) (cs : List Char) : List Char :=
  List.replicate (n - cs.length) ' ' ++ cs

def padRight (n : Nat) (cs : List Char) : List Char :=
  cs ++ List.replicate (n - cs.length) ' '

end MatrixLang.Text
