import MatrixLang.Analysis
import MatrixLang.Text.Line
import MatrixLang.Viewer.Highlight
import MatrixLang.Viewer.Standard
import MatrixLang.Viewer.Window

/-! # Panes

Each pane settles its offset for the area that it gets and then draws its part of the content in a
border. A pane without content shows a notice and leaves its offset alone.
-/

namespace MatrixLang.Viewer

/-- The stage that a problem was found in. -/
inductive Stage where
  | lexical
  | syntactic
  | semantic
  deriving DecidableEq, Repr

structure Problem where
  stage : Stage
  line : Nat
  text : String
  deriving DecidableEq, Repr

def borderStyle (focused : Bool) : Style :=
  if focused then (Style.ofForeground Palette.focusedBorder).inBold
  else .ofForeground Palette.plainBorder

def frame (title : String) (focused : Bool) (padding : Nat) : Block :=
  ⟨title, borderStyle focused, padding⟩

def linesPane (a : Area) (title : String) (focused : Bool) (ls : List Line) : Drawing :=
  [⟨.paragraph ls (some (frame title focused 0)) .transparent .left, a⟩]

def noticePane (a : Area) (title : String) (focused : Bool) (notice : String) (c : Color) :
    Drawing :=
  let ls := (Text.lines notice.toList).map fun l => [⟨l, .transparent⟩]
  [⟨.paragraph ls (some (frame title focused 0)) (.ofForeground c) .left, a⟩]

/-- The offset of the source pane, and the selected line that it was last moved for. -/
structure SourceScroll where
  offset : Nat
  followed : Option Nat
  deriving DecidableEq, Repr

namespace SourcePane

def numberStyle (hasProblem : Bool) : Style :=
  if hasProblem then (Style.ofForeground Palette.failure).inBold
  else .ofForeground Palette.comment

def spanStyle (selected hasProblem : Bool) (s : Style) : Style :=
  if selected && hasProblem then ⟨some .white, some Palette.failure, true⟩
  else if selected then s.withBackground Palette.currentLine
  else s

/-- The line number `n` with its marker, its number and its text. -/
def line (selected? : Option Nat) (problemLines : List Nat) (n : Nat) (text : List Char) : Line :=
  let hasProblem := problemLines.contains n
  let marker := if hasProblem then '●' else ' '
  let style := spanStyle (selected? = some n) hasProblem
  ⟨marker :: Text.padLeft 4 (toString n).toList ++ [' '], numberStyle hasProblem⟩ ::
    (Highlight.source text).map fun s => { s with style := style s.style }

/-- The scroll state for a pane with room for `capacity` of `total` lines. A newly selected line is
brought near the middle. -/
def settle (s : SourceScroll) (selected? : Option Nat) (total capacity : Nat) : SourceScroll :=
  let offset :=
    if selected? = s.followed then s.offset
    else match selected? with
      | some (i + 1) => Window.centre s.offset i capacity
      | _ => s.offset
  ⟨Window.settle offset total capacity, selected?⟩

def draw (a : Area) (source : List Char) (selected? : Option Nat) (problemLines : List Nat)
    (focused : Bool) (s : SourceScroll) : Drawing × SourceScroll :=
  let ls := Text.lines source
  let capacity := Window.capacity a.height
  let s := settle s selected? ls.length capacity
  let numbered := ls.mapIdx fun i l => (i + 1, l)
  let shown := (Window.shown s.offset capacity numbered).map fun (n, l) =>
    line selected? problemLines n l
  (linesPane a " Source Code " focused shown, s)

end SourcePane

namespace ProblemPane

def tag : Stage → String
  | .lexical => "lex"
  | .syntactic => "syntax"
  | .semantic => "type"

def tagStyle : Stage → Style
  | .lexical | .syntactic => (Style.ofForeground Palette.accent).inBold
  | .semantic => (Style.ofForeground Palette.failure).inBold

def entry (p : Problem) : Line :=
  [⟨Text.padLeft 6 (tag p.stage).toList ++ [' '], tagStyle p.stage⟩,
    ⟨p.text.toList, .ofForeground Palette.text⟩]

def selectedStyle : Style := ⟨some .white, some Palette.currentLine, false⟩

/-- The offset for room for `capacity` of `total` entries, with the selected one in the window. -/
def settle (offset : Nat) (selected? : Option Nat) (total capacity : Nat) : Nat :=
  let offset := match selected? with
    | some i => Window.reveal offset i capacity
    | none => offset
  Window.settle offset total capacity

def item (selected? : Option Nat) (p : Nat × Problem) : Item :=
  ⟨entry p.2, if selected? = some p.1 then selectedStyle else .transparent⟩

def draw (a : Area) (problems : List Problem) (selected? : Option Nat) (focused : Bool)
    (offset : Nat) : Drawing × Nat :=
  let title := " Diagnostics (" ++ toString problems.length ++ ") "
  if problems.isEmpty then
    (noticePane a title focused "No problems found" Palette.success, offset)
  else
    let capacity := Window.capacity a.height
    let offset := settle offset selected? problems.length capacity
    let shown := Window.shown offset capacity (problems.mapIdx fun i p => (i, p))
    ([⟨.list (shown.map (item selected?)) (frame title focused 1), a⟩], offset)

end ProblemPane

namespace TreePane

def draw (a : Area) (outline? : Option (List Char)) (notice : String) (focused : Bool)
    (offset : Nat) : Drawing × Nat :=
  let title := " Syntax Tree "
  match outline?.filter (!·.isEmpty) with
  | none => (noticePane a title focused notice Palette.comment, offset)
  | some text =>
    let ls := Text.lines text
    let capacity := Window.capacity a.height
    let offset := Window.settle offset ls.length capacity
    let shown := (Window.shown offset capacity ls).map Highlight.outline
    (linesPane a title focused shown, offset)

end TreePane

namespace BindingPane

def typeSpan : Option Ty → Span
  | some t => ⟨t.text.toList, .ofForeground Palette.typeName⟩
  | none => ⟨['?'], .ofForeground Palette.failure⟩

/-- The width of the column of names, which counts the bytes of the longest one. -/
def nameWidth (t : Table) : Nat :=
  (t.bindings.map (·.name.utf8ByteSize)).foldl max 0

def line (width : Nat) (b : Binding) : Line :=
  [⟨' ' :: Text.padRight width b.name.toList ++ [' ', ':', ' '], .ofForeground Palette.text⟩,
    typeSpan b.type?]

def draw (a : Area) (table? : Option Table) (focused : Bool) (offset : Nat) : Drawing × Nat :=
  let title := " Variables "
  match table?.filter (!·.isEmpty) with
  | none => (noticePane a title focused "(no variables)" Palette.comment, offset)
  | some t =>
    let capacity := Window.capacity a.height
    let offset := Window.settle offset t.size capacity
    let shown := (Window.shown offset capacity t.bindings).map (line (nameWidth t))
    (linesPane a title focused shown, offset)

end BindingPane

inductive Verdict where
  | clean
  | problems (count : Nat)
  | syntaxError
  deriving DecidableEq, Repr

namespace StatusBar

def verdictText : Verdict → String
  | .clean => " OK "
  | .problems count => " " ++ toString count ++ " PROBLEM(S) "
  | .syntaxError => " SYNTAX ERROR "

def verdictColor : Verdict → Color
  | .clean => Palette.success
  | .problems _ | .syntaxError => Palette.failure

def barStyle : Style := Style.transparent.withBackground Palette.currentLine

def textStyle : Style := (Style.ofForeground Palette.text).withBackground Palette.currentLine

def separatorStyle : Style :=
  (Style.ofForeground Palette.comment).withBackground Palette.currentLine

def keyStyle : Style := (Style.ofForeground .black).withBackground Palette.comment

def messageLine (message : String) (v : Verdict) : Line :=
  [⟨(verdictText v).toList, ⟨some .black, some (verdictColor v), true⟩⟩,
    ⟨" | ".toList, separatorStyle⟩,
    ⟨(" " ++ message ++ " ").toList, textStyle⟩]

/-- A key, what it does, and a separator. -/
def help (key action : String) : Line :=
  [⟨key.toList, keyStyle⟩, ⟨action.toList, textStyle⟩, ⟨"│".toList, separatorStyle⟩,
    ⟨" ".toList, textStyle⟩]

def helpLine : Line :=
  help " ⇥ " " focus " ++ help " ↑/↓ " " scroll " ++ help " n/p " " next/prev problem " ++
    [⟨"q".toList, keyStyle⟩, ⟨" quit ".toList, textStyle⟩]

def drawOn (t : Terminal) (a : Area) (message : String) (v : Verdict) : Drawing :=
  let (left, right) := t.split .horizontal (.percentage 50) (.percentage 50) a
  [⟨.paragraph [messageLine message v] none barStyle .left, left⟩,
    ⟨.paragraph [helpLine] none barStyle .right, right⟩]

def draw : Area → String → Verdict → Drawing := drawOn .standard

end StatusBar

end MatrixLang.Viewer
