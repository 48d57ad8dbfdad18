import MatrixLang.Tree.Cursor
import MatrixLang.Typing.Check

/-! # The analysis of a text

A text is cut into tokens, read as a program and checked. Skipped characters do not stop the
analysis, the first syntax error does, and violations of the typing rules are collected.
-/

namespace MatrixLang

/-- What checking a program finds: its diagnostics in the order of the walk, and its bindings. -/
structure Findings where
  diagnostics : List Diagnostic
  bindings : Table

/-- What a used checker holds for its program. -/
def Checker.findings (c : Checker Scopes) : Findings :=
  ⟨c.diagnostics, c.environment.toTable⟩

def Program.findings (p : Program) : Findings :=
  (Checker.initial.program p).findings

/-- A program that could be read, with what checking it found. -/
structure CheckedProgram where
  program : Program
  findings : Findings

structure Analysis where
  lexicalErrors : List LexicalError
  outcome : Except SyntaxError CheckedProgram

namespace Analysis

def ofText (cs : List Char) : Analysis :=
  { lexicalErrors := (Scan.ofText cs).errors
    outcome := (Program.ofText cs).map fun p => ⟨p, p.findings⟩ }

/-- The diagnostics, none after a syntax error. -/
def diagnostics (a : Analysis) : List Diagnostic :=
  match a.outcome with
  | .ok checked => checked.findings.diagnostics
  | .error _ => []

def isClean (a : Analysis) : Bool :=
  match a.outcome with
  | .ok checked => a.lexicalErrors.isEmpty && checked.findings.diagnostics.isEmpty
  | .error _ => false

end Analysis

end MatrixLang
