import MatrixLang.Viewer.Pane

/-! # Viewing sessions

A session shows the analysis of a text in four panes over a status bar. Keys move the focus, step
through the problems and scroll the focused pane, and drawing settles the offsets.
-/

namespace MatrixLang.Viewer

/-- The panes in the order in which the focus passes them. -/
inductive Pane where
  | source
  | problems
  | tree
  | bindings
  deriving DecidableEq, Repr

namespace Pane

def next : Pane → Pane
  | .source => .problems
  | .problems => .tree
  | .tree => .bindings
  | .bindings => .source

def previous : Pane → Pane
  | .source => .bindings
  | .problems => .source
  | .tree => .problems
  | .bindings => .tree

@[simp] theorem previous_next (p : Pane) : p.next.previous = p := by cases p <;> rfl

@[simp] theorem next_previous (p : Pane) : p.previous.next = p := by cases p <;> rfl

end Pane

inductive Key where
  | tab
  | backTab
  | up
  | down
  | left
  | right
  | enter
  | escape
  | char (c : Char)
  | other (name : String)
  deriving DecidableEq, Repr

/-- Lexical errors, then the syntax error or the diagnostics, in the order of their lines. -/
def Problem.ofAnalysis (a : Analysis) : List Problem :=
  let lexical := a.lexicalErrors.map fun e => ⟨.lexical, e.location.line, e.text⟩
  let others := match a.outcome with
    | .ok checked => checked.findings.diagnostics.map fun d => ⟨.semantic, d.line, d.text⟩
    | .error e => [⟨.syntactic, e.found.location.line, e.message⟩]
  (lexical ++ others).mergeSort fun p q => p.line ≤ q.line

structure Offsets where
  source : SourceScroll
  problems : Nat
  tree : Nat
  bindings : Nat
  deriving DecidableEq, Repr

structure Session where
  source : List Char
  analysis : Analysis
  problems : List Problem
  focus : Pane
  selected? : Option Nat
  offsets : Offsets
  quit : Bool
  status : String

namespace Session

def initialStatus (count : Nat) : String :=
  if count = 0 then "No problems found"
  else toString count ++ " problem(s), press n to step through them"

def ofText (cs : List Char) : Session :=
  let a := Analysis.ofText cs
  let problems := Problem.ofAnalysis a
  { source := cs
    analysis := a
    problems
    focus := .source
    selected? := none
    offsets := ⟨⟨0, none⟩, 0, 0, 0⟩
    quit := false
    status := initialStatus problems.length }

def outline? (s : Session) : Option String :=
  s.analysis.outcome.toOption.map (·.program.outlineText)

def verdict (s : Session) : Verdict :=
  match s.analysis.outcome with
  | .error _ => .syntaxError
  | .ok _ => if s.problems.isEmpty then .clean else .problems s.problems.length

section Keys

def scroll (f : Nat → Nat) (s : Session) : Session :=
  let o := s.offsets
  { s with
    offsets := match s.focus with
      | .source => { o with source := { o.source with offset := f o.source.offset } }
      | .problems => { o with problems := f o.problems }
      | .tree => { o with tree := f o.tree }
      | .bindings => { o with bindings := f o.bindings } }

/-- The index after or before the selected one, around the ends of `count` entries. -/
def step (forward : Bool) (count : Nat) : Option Nat → Nat
  | none => if forward then 0 else count - 1
  | some i => if forward then (i + 1) % count else (i + count - 1) % count

def select (forward : Bool) (s : Session) : Session :=
  let count := s.problems.length
  let i := step forward count s.selected?
  match s.problems[i]? with
  | none => { s with status := "No problems to show" }
  | some p =>
    { s with
      selected? := some i
      status := toString (i + 1) ++ "/" ++ toString count ++ ": line " ++ toString p.line }

def press (s : Session) : Key → Session
  | .tab => { s with focus := s.focus.next }
  | .backTab => { s with focus := s.focus.previous }
  | .up => s.scroll (· - 1)
  | .down => s.scroll (· + 1)
  | .escape => { s with quit := true }
  | .char c =>
    if c = 'q' ∨ c = 'Q' then { s with quit := true }
    else if c = 'n' then s.select true
    else if c = 'p' then s.select false
    else s
  | .left | .right | .enter | .other _ => s

end Keys

section Drawing

/-- The areas of a frame. -/
structure Layout where
  source : Area
  problems : Area
  tree : Area
  bindings : Area
  status : Area

/-- Two columns of two panes each, over one row for the status bar. -/
def Layout.ofSize (t : Terminal) (width height : Nat) : Layout :=
  let (panes, status) := t.split .vertical (.atLeast 0) (.length 1) ⟨0, 0, width, height⟩
  let (left, right) := t.split .horizontal (.percentage 55) (.percentage 45) panes
  let (source, problems) := t.split .vertical (.percentage 70) (.percentage 30) left
  let (tree, bindings) := t.split .vertical (.percentage 65) (.percentage 35) right
  { source, problems, tree, bindings, status }

def selectedLine? (s : Session) : Option Nat :=
  (s.selected?.bind (s.problems[·]?)).map (·.line)

/-- One frame, and the session with its offsets settled for it. -/
def drawOn (t : Terminal) (s : Session) (width height : Nat) : Drawing × Session :=
  let l := Layout.ofSize t width height
  let (source, sourceScroll) := SourcePane.draw l.source s.source s.selectedLine?
    (s.problems.map (·.line)) (s.focus = .source) s.offsets.source
  let (problems, problemOffset) := ProblemPane.draw l.problems s.problems s.selected?
    (s.focus = .problems) s.offsets.problems
  let (tree, treeOffset) := TreePane.draw l.tree (s.outline?.map (·.toList))
    "(no syntax tree: parsing failed)" (s.focus = .tree) s.offsets.tree
  let (bindings, bindingOffset) := BindingPane.draw l.bindings
    (s.analysis.outcome.toOption.map (·.findings.bindings)) (s.focus = .bindings)
    s.offsets.bindings
  (source ++ problems ++ tree ++ bindings ++ StatusBar.drawOn t l.status s.status s.verdict,
    { s with offsets := ⟨sourceScroll, problemOffset, treeOffset, bindingOffset⟩ })

def draw (s : Session) (width height : Nat) : Drawing × Session := s.drawOn .standard width height

end Drawing

end Session

end MatrixLang.Viewer
