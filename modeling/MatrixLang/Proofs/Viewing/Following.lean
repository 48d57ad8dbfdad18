import Mathlib.Data.List.DropRight
import MatrixLang.Proofs.Report.Problem
import MatrixLang.Proofs.Viewing.Selection
import MatrixLang.Proofs.Viewing.Window

/-! # Following the selected line

The source pane is moved for a selected line only if another line was selected when it was last
drawn. A step that stays on the line, such as one around a single problem, leaves the window where
it was scrolled to.
-/

namespace MatrixLang.Viewer

/-- A newly selected line gets into the window, and one that was followed before is only kept. -/
theorem SourcePane.shows_settle_iff (s : SourceScroll) {i total n : Nat} (hn : 0 < n)
    (hi : i < total) :
    Window.Shows (settle s (some (i + 1)) total n).offset n i ↔
      s.followed ≠ some (i + 1) ∨ Window.Shows (Window.settle s.offset total n) n i := by
  by_cases h : s.followed = some (i + 1)
  · simp [settle, h]
  · have hshows : Window.Shows (Window.settle (Window.centre s.offset i n) total n) n i :=
      (Window.shows_centre hn).settle hi
    simp [settle, h, Ne.symm h, hshows]

namespace Session

/-- The selected line when a run last drew. -/
def drawnLine? (t : Terminal) (cs : List Char) (es : List Event) : Option Nat :=
  (run t cs (es.rdropWhile (!·.isDraw))).selectedLine?

theorem followed_press (t : Terminal) (s : Session) (k : Key) :
    (s.next t (.press k)).offsets.source.followed = s.offsets.source.followed := by
  rcases s.next_cases t (.press k) with
    ⟨forward, -, -, hs⟩ | ⟨-, focus, offsets, quit, hs, -, hoffsets, -⟩
  · rcases s.select_cases forward with ⟨-, hselect⟩ | ⟨i, p, -, -, hselect⟩ <;> rw [hs, hselect]
  · rw [hs]
    exact hoffsets rfl

/-- The line that the source pane was last moved for is the one selected at the last draw. -/
theorem followed_run (t : Terminal) (cs : List Char) (es : List Event) :
    (run t cs es).offsets.source.followed = drawnLine? t cs es := by
  induction es using List.reverseRecOn with
  | nil => rfl
  | append_singleton es e ih =>
    cases e with
    | press k =>
      have hdrop : (es ++ [Event.press k]).rdropWhile (!·.isDraw) = es.rdropWhile (!·.isDraw) :=
        List.rdropWhile_concat_pos _ _ _ rfl
      rw [run_append_singleton, drawnLine?, hdrop, ← drawnLine?, ← ih]
      exact followed_press t _ k
    | draw width height =>
      have hdrop : (es ++ [Event.draw width height]).rdropWhile (!·.isDraw) =
          es ++ [Event.draw width height] :=
        List.rdropWhile_concat_neg _ _ _ (by simp [Event.isDraw])
      rw [drawnLine?, hdrop, run_append_singleton]
      rfl

/-- A draw of the source pane with room for lines shows the selected line exactly if another one, or
none, was selected at the last draw before, or the offset, settled for the new size, shows it. -/
theorem shows_selectedLine_iff (t : Terminal) (cs : List Char) (es : List Event)
    (width height line : Nat)
    (hroom : 3 ≤ (Layout.ofSize t width height).source.height)
    (hline : (run t cs es).selectedLine? = some line)
    (hpos : 0 < line) (hle : line ≤ (Text.lines cs).length) :
    let rows := (Layout.ofSize t width height).source.height - 2
    let before := Window.settle ((run t cs es).offset .source) (Text.lines cs).length rows
    let offset := (run t cs (es ++ [Event.draw width height])).offset .source
    (offset < line ∧ line ≤ offset + rows) ↔
      drawnLine? t cs es ≠ some line ∨ before < line ∧ line ≤ before + rows := by
  intro rows before offset
  obtain ⟨i, rfl⟩ : ∃ i, line = i + 1 := ⟨line - 1, by omega⟩
  have hcapacity : Window.capacity (Layout.ofSize t width height).source.height = rows :=
    Nat.max_eq_right (by omega)
  have hoffset : offset = (SourcePane.settle (run t cs es).offsets.source (some (i + 1))
      (Text.lines cs).length rows).offset := by
    rw [← hline, ← hcapacity, ← congrArg Text.lines (reflects_run t cs es).source]
    exact congrArg (Session.offset · .source) (run_append_singleton t cs es _)
  have hshows (o : Nat) : (o < i + 1 ∧ i + 1 ≤ o + rows) ↔ Window.Shows o rows i := by
    unfold Window.Shows
    omega
  rw [hshows, hshows, hoffset,
    SourcePane.shows_settle_iff _ (by omega : 0 < rows) (by omega), followed_run]
  rfl

section Scrolled

/-- A text of five lines with a problem in the first one only. -/
def longText : List Char := "$\n\n\n\n\n".toList

theorem problems_longText :
    (ofText longText).problems = [⟨.lexical, 1, "Illegal character '$' at line 1, column 1"⟩] := by
  have ht : (Scan.ofText longText).tokens = [⟨.endOfInput, ⟨6, 1⟩⟩] := by decide +kernel
  have he : (Scan.ofText longText).errors = [⟨.illegalCharacter '$', .start⟩] := by decide +kernel
  have hfound : Problem.found (Analysis.ofText longText) =
      [⟨.lexical, 1, "Illegal character '$' at line 1, column 1"⟩] := by
    rw [Problem.found, Analysis.ofText, he, Program.ofText, ht]
    rfl
  have hsorted : (Problem.found (Analysis.ofText longText)).Pairwise (Problem.ordered · ·) := by
    rw [hfound]
    exact List.pairwise_singleton _ _
  exact (Problem.ofAnalysis_eq_found hsorted).trans hfound

theorem ofText_longText :
    ofText longText =
      { source := longText
        analysis := Analysis.ofText longText
        problems := [⟨.lexical, 1, "Illegal character '$' at line 1, column 1"⟩]
        focus := .source
        selected? := none
        offsets := ⟨⟨0, none⟩, 0, 0, 0⟩
        quit := false
        status := initialStatus 1 } := by
  have h : Problem.ofAnalysis (Analysis.ofText longText) = _ := problems_longText
  simp only [ofText, h]
  rfl

def scrolledDown : List Event := [.press .down, .press .down]

theorem shows_selectedLine_longText :
    (run .standard longText (scrolledDown ++ [.press (.char 'n')])).selectedLine? = some 1 ∧
      let offset :=
        (run .standard longText
          (scrolledDown ++ [.press (.char 'n')] ++ [.draw 10 6])).offset .source
      offset < 1 ∧ 1 ≤ offset + 2 := by
  have hline :
      (run .standard longText (scrolledDown ++ [.press (.char 'n')])).selectedLine? = some 1 := by
    rw [run, ofText_longText]
    rfl
  have hdrawn : drawnLine? .standard longText (scrolledDown ++ [.press (.char 'n')]) ≠ some 1 := by
    rw [drawnLine?, run, ofText_longText]
    decide
  have hiff := shows_selectedLine_iff .standard longText _ 10 6 1 (by decide) hline (by decide)
    (by decide)
  exact ⟨hline, hiff.mpr (.inl hdrawn)⟩

/-- A second step to the only problem does not bring its line back into the window. -/
theorem hidden_longText :
    let es := [.press (.char 'n'), .draw 10 6] ++ scrolledDown ++ [.press (.char 'n')]
    let s := run .standard longText (es ++ [.draw 10 6])
    (Layout.ofSize .standard 10 6).source.height = 4 ∧ (Text.lines longText).length = 5 ∧
      s.selectedLine? = some 1 ∧ ¬ (s.offset .source < 1 ∧ 1 ≤ s.offset .source + (4 - 2)) := by
  intro es s
  have hs : s.offset .source = 2 ∧ s.selectedLine? = some 1 := by
    show (run _ _ _).offset .source = 2 ∧ (run _ _ _).selectedLine? = some 1
    rw [run, ofText_longText]
    constructor <;> rfl
  rw [hs.1, hs.2]
  decide

end Scrolled

end Session

end MatrixLang.Viewer
