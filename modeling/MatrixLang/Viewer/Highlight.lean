import MatrixLang.Text.Letter
import MatrixLang.Token.Basic
import MatrixLang.Tree.Outline
import MatrixLang.Viewer.Screen

/-! # Highlighting

A line of source text is cut into spans by a scan of its own, which knows comments, strings, numbers
and words. A line of an outline is cut into its guides and its label. Neither loses a character.
-/

namespace MatrixLang.Viewer.Highlight

section Source

def wordStyle (word : String) : Style :=
  match Keyword.ofText? word with
  | some (.builtin _) => .ofForeground Palette.builtin
  | some _ => (Style.ofForeground Palette.keyword).inBold
  | none => .ofForeground Palette.text

def symbolStyle (c : Char) : Style :=
  if c ∈ ['{', '}', '(', ')', '[', ']'] then .ofForeground Palette.bracket
  else if c = '\'' then .ofForeground Palette.accent
  else .ofForeground Palette.text

def startsWord (c : Char) : Bool := Text.isAlphabetic c || c == '_'

def continuesWord (c : Char) : Bool := Text.isAlphanumeric c || c == '_'

def continuesNumber (c : Char) : Bool := c.isAlphanum || c == '.'

/-- The first span of the line `c :: cs`. A string without a closing quote takes the whole line. -/
def firstSpan (c : Char) (cs : List Char) : Span :=
  if c = '#' then ⟨c :: cs, .ofForeground Palette.comment⟩
  else if c = '"' then
    let inside := cs.takeWhile (· != '"')
    ⟨c :: inside ++ (cs.drop inside.length).take 1, .ofForeground Palette.string⟩
  else if c.isDigit then ⟨c :: cs.takeWhile continuesNumber, .ofForeground Palette.number⟩
  else if startsWord c then
    let word := c :: cs.takeWhile continuesWord
    ⟨word, wordStyle (String.ofList word)⟩
  else ⟨[c], symbolStyle c⟩

def source : List Char → Line
  | [] => []
  | c :: cs =>
    let span := firstSpan c cs
    span :: source (cs.drop (span.text.length - 1))
termination_by cs => cs.length
decreasing_by
  simp only [List.length_drop, List.length_cons]
  omega

end Source

section Outline

def keywordLabels : List String :=
  ["IF", "THEN", "ELSE", "FOR", "WHILE", "RANGE", "BREAK", "CONTINUE", "RETURN", "PRINT"]

def structureLabels : List String := ["MATRIX", "VECTOR", "REF", "TRANSPOSE"]

def labelStyle (label : List Char) : Style :=
  let text := String.ofList label
  if text ∈ keywordLabels then (Style.ofForeground Palette.keyword).inBold
  else if text ∈ structureLabels then .ofForeground Palette.typeName
  else if text ∈ [Builtin.zeros, .ones, .eye].map (·.text) then .ofForeground Palette.builtin
  else match label with
    | [] => .ofForeground Palette.accent
    | c :: _ =>
      if c = '"' then .ofForeground Palette.string
      else if c.isDigit then .ofForeground Palette.number
      else if startsWord c then .ofForeground Palette.text
      else .ofForeground Palette.accent

def guideCount : List Char → Nat
  | '|' :: ' ' :: ' ' :: cs => guideCount cs + 1
  | _ => 0

/-- The guides of a line of an outline, and its label. -/
def outline (cs : List Char) : Line :=
  let width := Entry.guide.length * guideCount cs
  let label := cs.drop width
  [⟨cs.take width, .ofForeground Palette.plainBorder⟩, ⟨label, labelStyle label⟩]

end Outline

end MatrixLang.Viewer.Highlight
