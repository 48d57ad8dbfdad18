import MatrixLang.Token.Piece
import MatrixLang.Tree.Grammar

/-! # A cursor in a list of tokens

A cursor reads programs from a list of tokens and stays where reading stopped: at the end of the
input after a program, and at the token found after a syntax error.
-/

namespace MatrixLang

structure Cursor where
  tokens : List Token
  position : Nat

namespace Cursor

/-- The tokens closed by the end of the input, which stands at the last token if it is missing. -/
def closeTokens (ts : List Token) : List Token :=
  match ts.getLast? with
  | none => [⟨.endOfInput, .nowhere⟩]
  | some t => if t.kind = .endOfInput then ts else ts ++ [⟨.endOfInput, t.location⟩]

def ofTokens (ts : List Token) : Cursor := ⟨closeTokens ts, 0⟩

def rest (c : Cursor) : List Token := c.tokens.drop c.position

/-- The cursor moved on to where `rest` is left. -/
def moveTo (c : Cursor) (rest : List Token) : Cursor :=
  { c with position := c.tokens.length - rest.length }

/-- Reads a program up to the end of the input. The depth is never exhausted; if it were, the token
in front would be reported. -/
def readProgram (c : Cursor) : Except SyntaxError Program × Cursor :=
  match Grammar.program (Grammar.depthFor c.rest.length) c.rest with
  | .ok p rest => (.ok p, c.moveTo rest)
  | .error e rest => (.error ⟨e, Token.head rest⟩, c.moveTo rest)
  | .exhausted => (.error ⟨.expression, Token.head c.rest⟩, c)

end Cursor

def Program.ofTokens (ts : List Token) : Except SyntaxError Program :=
  (Cursor.ofTokens ts).readProgram.1

/-- The program that a text spells, whatever characters had to be skipped. -/
def Program.ofText (cs : List Char) : Except SyntaxError Program :=
  Program.ofTokens (Scan.ofText cs).tokens

end MatrixLang
