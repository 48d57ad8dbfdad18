import MatrixLang.Token.Basic

/-! # The pieces of a text

A text is cut from the left into blanks, comments, lexemes and skipped characters. A lexeme is the
longest of its kind at its place and carries the token it spells; the other pieces spell none.
-/

namespace MatrixLang

inductive Piece where
  | blank (c : Char)
  | comment (text : List Char)
  | lexeme (kind : Kind) (text : List Char)
  | skipped (c : Char)
  deriving DecidableEq, Repr

namespace Piece

def text : Piece → List Char
  | .blank c => [c]
  | .comment text => text
  | .lexeme _ text => text
  | .skipped c => [c]

section Scanning

def isBlank (c : Char) : Bool :=
  c == ' ' || c == '\t' || c == '\r' || c == '\n'

def startsName (c : Char) : Bool :=
  c.isAlpha || c == '_'

def continuesName (c : Char) : Bool :=
  c.isAlphanum || c == '_'

/-- The greatest integer that a literal can denote. -/
def greatestInteger : Nat := Nat.pow 2 63 - 1

def startsWithDigit : List Char → Bool
  | c :: _ => c.isDigit
  | [] => false

def leadingSign : List Char → List Char
  | '+' :: _ => ['+']
  | '-' :: _ => ['-']
  | _ => []

/-- The exponent at the front of a text: a mark, an optional sign and at least one digit. -/
def leadingExponent : List Char → List Char
  | [] => []
  | c :: cs =>
    let sign := leadingSign cs
    let digits := (cs.drop sign.length).takeWhile Char.isDigit
    if (c = 'e' ∨ c = 'E') ∧ digits ≠ [] then c :: sign ++ digits else []

/-- The lexeme of a float whose digits before the point are `whole`; `rest` stands behind it. -/
def float (whole rest : List Char) : Piece :=
  let fraction := rest.takeWhile Char.isDigit
  let exponent := leadingExponent (rest.dropWhile Char.isDigit)
  let value := Binary64.ofDigits false whole fraction
    ((Binary64.exponentValue? (exponent.drop 1)).getD 0)
  .lexeme (.float value) (whole ++ '.' :: fraction ++ exponent)

/-- The lexeme of a number that starts with the digit `c`; a point makes it a float. -/
def number (c : Char) (rest : List Char) : Piece :=
  let whole := c :: rest.takeWhile Char.isDigit
  match rest.dropWhile Char.isDigit with
  | '.' :: more => float whole more
  | _ => .lexeme (.integer (min (Binary64.digitsValue whole) greatestInteger : Nat)) whole

/-- A name that starts with `c`, or the keyword that it spells. -/
def word (c : Char) (rest : List Char) : Piece :=
  let text := c :: rest.takeWhile continuesName
  let name := String.ofList text
  match Keyword.ofText? name with
  | some k => .lexeme (.keyword k) text
  | none => .lexeme (.name name) text

/-- A string closed on its own line, or else the quote alone. -/
def string (rest : List Char) : Piece :=
  let inside := rest.takeWhile (fun c => c != '"' && c != '\n')
  match rest.drop inside.length with
  | '"' :: _ => .lexeme (.string (String.ofList inside)) ('"' :: inside ++ ['"'])
  | _ => .skipped '"'

/-- The symbol of two characters that starts with `c`, if `d` completes one. -/
def pairSymbol? (c d : Char) : Option Symbol :=
  match c, d with
  | '+', '=' => some (.assign (.compound .add))
  | '-', '=' => some (.assign (.compound .sub))
  | '*', '=' => some (.assign (.compound .mul))
  | '/', '=' => some (.assign (.compound .div))
  | '=', '=' => some (.compare .equal)
  | '!', '=' => some (.compare .notEqual)
  | '<', '=' => some (.compare .lessEqual)
  | '>', '=' => some (.compare .greaterEqual)
  | '.', '+' => some (.binary (.elementwise .add))
  | '.', '-' => some (.binary (.elementwise .sub))
  | '.', '*' => some (.binary (.elementwise .mul))
  | '.', '/' => some (.binary (.elementwise .div))
  | _, _ => none

def singleSymbol? : Char → Option Symbol
  | '+' => some (.binary (.plain .add))
  | '-' => some (.binary (.plain .sub))
  | '*' => some (.binary (.plain .mul))
  | '/' => some (.binary (.plain .div))
  | '=' => some (.assign .plain)
  | '<' => some (.compare .less)
  | '>' => some (.compare .greater)
  | '\'' => some .transpose
  | ':' => some .colon
  | '(' => some .leftParen
  | ')' => some .rightParen
  | '{' => some .leftBrace
  | '}' => some .rightBrace
  | '[' => some .leftBracket
  | ']' => some .rightBracket
  | ',' => some .comma
  | ';' => some .semicolon
  | _ => none

/-- The longest symbol at the front, or the character alone, skipped. -/
def symbol (c : Char) (rest : List Char) : Piece :=
  match rest.head?.bind (pairSymbol? c) with
  | some s => .lexeme (.symbol s) (c :: rest.take 1)
  | none =>
    match singleSymbol? c with
    | some s => .lexeme (.symbol s) [c]
    | none => .skipped c

def first (c : Char) (rest : List Char) : Piece :=
  if isBlank c then .blank c
  else if c = '#' then .comment (c :: rest.takeWhile (· != '\n'))
  else if c = '"' then string rest
  else if c.isDigit then number c rest
  else if c = '.' ∧ startsWithDigit rest then float [] rest
  else if startsName c then word c rest
  else symbol c rest

def restAfterFirst (c : Char) (rest : List Char) : List Char :=
  rest.drop ((first c rest).text.length - 1)

theorem length_restAfterFirst_le (c : Char) (rest : List Char) :
    (restAfterFirst c rest).length ≤ rest.length := by
  simp [restAfterFirst]

end Scanning

def ofText : List Char → List Piece
  | [] => []
  | c :: rest => first c rest :: ofText (restAfterFirst c rest)
termination_by cs => cs.length
decreasing_by
  have := length_restAfterFirst_le c rest
  simp only [List.length_cons]
  omega

def kind? : Piece → Option Kind
  | .lexeme kind _ => some kind
  | .blank _ | .comment _ | .skipped _ => none

end Piece

/-- What is wrong with a piece. -/
inductive LexicalFault where
  | illegalCharacter (c : Char)
  | unterminatedString
  | integerOutOfRange (digits : String)
  deriving DecidableEq, Repr

namespace LexicalFault

def message : LexicalFault → String
  | .illegalCharacter c => "Illegal character '" ++ c.toString ++ "'"
  | .unterminatedString => "Unterminated string literal"
  | .integerOutOfRange digits => "Integer literal out of range: " ++ digits

/-- The fault of a piece: it is skipped, or its digits exceed the greatest integer. -/
def ofPiece? : Piece → Option LexicalFault
  | .skipped c => some (if c = '"' then .unterminatedString else .illegalCharacter c)
  | .lexeme (.integer _) text =>
    if Piece.greatestInteger < Binary64.digitsValue text then
      some (.integerOutOfRange (String.ofList text))
    else none
  | _ => none

end LexicalFault

structure LexicalError where
  fault : LexicalFault
  location : Location
  deriving DecidableEq, Repr

def LexicalError.text (e : LexicalError) : String :=
  e.fault.message ++ " at " ++ e.location.text

/-- A piece and the place of its first character. -/
structure PlacedPiece where
  piece : Piece
  location : Location

namespace PlacedPiece

/-- The pieces of a text that starts at the place `l`, each at its own. -/
def place (l : Location) : List Piece → List PlacedPiece
  | [] => []
  | p :: ps => ⟨p, l⟩ :: place (l.after p.text) ps

def token? (p : PlacedPiece) : Option Token :=
  p.piece.kind?.map fun kind => ⟨kind, p.location⟩

def error? (p : PlacedPiece) : Option LexicalError :=
  (LexicalFault.ofPiece? p.piece).map fun fault => ⟨fault, p.location⟩

end PlacedPiece

/-- The tokens of a text, closed by the end of the input, and the errors found between them. -/
structure Scan where
  tokens : List Token
  errors : List LexicalError

def Scan.ofText (cs : List Char) : Scan :=
  let pieces := PlacedPiece.place .start (Piece.ofText cs)
  { tokens := pieces.filterMap (·.token?) ++ [⟨.endOfInput, Location.start.after cs⟩]
    errors := pieces.filterMap (·.error?) }

end MatrixLang
