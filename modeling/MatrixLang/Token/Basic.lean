import MatrixLang.Binary64.Text
import MatrixLang.Location
import MatrixLang.Operator

/-! # Tokens

A token is a literal, a name, a keyword, a symbol or the end of the input, at a place. Each kind has
a name for messages and a spelling, and the spelling of a keyword or symbol identifies it.
-/

namespace MatrixLang

inductive Keyword where
  | ifWord
  | elseWord
  | forWord
  | whileWord
  | instruction (i : Instruction)
  | builtin (b : Builtin)
  deriving DecidableEq, Repr

inductive Symbol where
  | binary (op : BinaryOperator)
  | assign (op : AssignOperator)
  | compare (c : Comparison)
  | transpose
  | colon
  | leftParen
  | rightParen
  | leftBrace
  | rightBrace
  | leftBracket
  | rightBracket
  | comma
  | semicolon
  deriving DecidableEq, Repr

namespace Keyword

def text : Keyword → String
  | .ifWord => "if"
  | .elseWord => "else"
  | .forWord => "for"
  | .whileWord => "while"
  | .instruction i => i.text
  | .builtin b => b.text

def name : Keyword → String
  | .ifWord => "IF"
  | .elseWord => "ELSE"
  | .forWord => "FOR"
  | .whileWord => "WHILE"
  | .instruction i => i.name
  | .builtin .zeros => "ZEROS"
  | .builtin .ones => "ONES"
  | .builtin .eye => "EYE"

def all : List Keyword :=
  [.ifWord, .elseWord, .forWord, .whileWord, .instruction .breakLoop, .instruction .continueLoop,
    .instruction .returnValues, .instruction .printValues, .builtin .zeros, .builtin .ones,
    .builtin .eye]

theorem mem_all : ∀ k : Keyword, k ∈ all
  | .instruction i => by cases i <;> decide
  | .builtin b => by cases b <;> decide
  | .ifWord | .elseWord | .forWord | .whileWord => by decide

def ofText? (s : String) : Option Keyword :=
  all.find? (·.text == s)

end Keyword

namespace Symbol

def text : Symbol → String
  | .binary op => op.text
  | .assign op => op.text
  | .compare c => c.text
  | .transpose => "'"
  | .colon => ":"
  | .leftParen => "("
  | .rightParen => ")"
  | .leftBrace => "\x7b"
  | .rightBrace => "\x7d"
  | .leftBracket => "["
  | .rightBracket => "]"
  | .comma => ","
  | .semicolon => ";"

def name : Symbol → String
  | .binary (.plain .add) => "PLUS"
  | .binary (.plain .sub) => "MINUS"
  | .binary (.plain .mul) => "TIMES"
  | .binary (.plain .div) => "DIVIDE"
  | .binary (.elementwise .add) => "DOTADD"
  | .binary (.elementwise .sub) => "DOTSUB"
  | .binary (.elementwise .mul) => "DOTMUL"
  | .binary (.elementwise .div) => "DOTDIV"
  | .assign .plain => "ASSIGN"
  | .assign (.compound .add) => "ADDASSIGN"
  | .assign (.compound .sub) => "SUBASSIGN"
  | .assign (.compound .mul) => "MULASSIGN"
  | .assign (.compound .div) => "DIVASSIGN"
  | .compare .equal => "EQ"
  | .compare .notEqual => "NEQ"
  | .compare .less => "LT"
  | .compare .lessEqual => "LEQ"
  | .compare .greater => "GT"
  | .compare .greaterEqual => "GEQ"
  | .transpose => "TRANSPOSE"
  | .colon => "COLON"
  | .leftParen => "LPAREN"
  | .rightParen => "RPAREN"
  | .leftBrace => "LBRACE"
  | .rightBrace => "RBRACE"
  | .leftBracket => "LBRACKET"
  | .rightBracket => "RBRACKET"
  | .comma => "COMMA"
  | .semicolon => "SEMICOLON"

def allArithmetic : List Arithmetic := [.add, .sub, .mul, .div]

def all : List Symbol :=
  allArithmetic.map (.binary <| .plain ·) ++ allArithmetic.map (.binary <| .elementwise ·) ++
    .assign .plain :: allArithmetic.map (.assign <| .compound ·) ++
    [.equal, .notEqual, .less, .lessEqual, .greater, .greaterEqual].map .compare ++
    [.transpose, .colon, .leftParen, .rightParen, .leftBrace, .rightBrace, .leftBracket,
      .rightBracket, .comma, .semicolon]

theorem mem_all : ∀ s : Symbol, s ∈ all
  | .binary (.plain op) | .binary (.elementwise op) | .assign (.compound op) => by
    cases op <;> decide
  | .compare c => by cases c <;> decide
  | .assign .plain | .transpose | .colon | .leftParen | .rightParen | .leftBrace | .rightBrace
  | .leftBracket | .rightBracket | .comma | .semicolon => by decide

end Symbol

/-- What a token is, without its place. -/
inductive Kind where
  | integer (value : Int)
  | float (value : Binary64)
  | string (text : String)
  | name (text : String)
  | keyword (word : Keyword)
  | symbol (mark : Symbol)
  | endOfInput
  deriving DecidableEq, Repr

namespace Kind

/-- The name of a kind in messages. -/
def label : Kind → String
  | .integer _ => "INTNUM"
  | .float _ => "FLOAT"
  | .string _ => "STRING"
  | .name _ => "ID"
  | .keyword word => word.name
  | .symbol mark => mark.name
  | .endOfInput => "EOF"

def spelling : Kind → String
  | .integer value => toString value
  | .float value => value.text
  | .string text => "\"" ++ text ++ "\""
  | .name text => text
  | .keyword word => word.text
  | .symbol mark => mark.text
  | .endOfInput => ""

def description : Kind → String
  | .endOfInput => "end of input"
  | kind => kind.label ++ " '" ++ kind.spelling ++ "'"

end Kind

structure Token where
  kind : Kind
  location : Location
  deriving DecidableEq, Repr

/-- The place of a token and what it is, as a line of a listing. -/
def Token.listing (t : Token) : String :=
  t.location.text ++ "\t" ++ t.kind.description

end MatrixLang
