import MatrixLang.Token.Basic

/-! # Syntax errors

A syntax error names the token where reading stopped and what the grammar expected there. At the end
of the input it says that the program is incomplete.
-/

namespace MatrixLang

inductive Terminated where
  | assignment
  | expression
  | instruction (i : Instruction)
  deriving DecidableEq, Repr

def Terminated.text : Terminated → String
  | .assignment => "assignment"
  | .expression => "expression"
  | .instruction i => "'" ++ i.text ++ "'"

inductive Expectation where
  | expression
  | openParen (word : Keyword)
  | closeCondition (word : Keyword)
  | closeExpression
  | closeDimensions (b : Builtin)
  | closeIndices
  | closeRows
  | closeBlock
  | loopVariable
  | loopAssignment
  | rangeColon
  | terminator (after : Terminated)
  deriving DecidableEq, Repr

def Expectation.text : Expectation → String
  | .expression => "expected an expression"
  | .openParen word => "expected '(' after '" ++ word.text ++ "'"
  | .closeCondition word => "expected ')' after " ++ word.text ++ " condition"
  | .closeExpression => "expected ')' after expression"
  | .closeDimensions b => "expected ')' after '" ++ b.text ++ "' dimensions"
  | .closeIndices => "expected ']' after indices"
  | .closeRows => "expected ']' after matrix rows"
  | .closeBlock => "expected '\x7d' after block"
  | .loopVariable => "expected identifier after 'for'"
  | .loopAssignment => "expected '=' after loop variable"
  | .rangeColon => "expected ':' in range"
  | .terminator after => "expected ';' or ',' after " ++ after.text

structure SyntaxError where
  expected : Expectation
  found : Token
  deriving DecidableEq, Repr

namespace SyntaxError

def isIncomplete (e : SyntaxError) : Bool :=
  e.found.kind = .endOfInput

def message (e : SyntaxError) : String :=
  if e.isIncomplete then "Unexpected end of input (" ++ e.expected.text ++ ")"
  else
    "Syntax error at " ++ e.found.location.text ++ ": unexpected " ++ e.found.kind.label ++ " '" ++
      e.found.kind.spelling ++ "' (" ++ e.expected.text ++ ")"

end SyntaxError

end MatrixLang
