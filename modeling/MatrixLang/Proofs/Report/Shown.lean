import MatrixLang.Proofs.Layout.Analysis
import MatrixLang.Proofs.Lexing.Origin
import MatrixLang.Proofs.Report.Line
import MatrixLang.Proofs.Report.Problem

/-! # Where problems are shown

Tokens, skipped characters and the nodes of a tree lie on the lines of the text, so the source pane
has a row for what is wrong with them. The end of a text lies behind all lines if the text ends with
a line break, and there the syntax error of an incomplete text has no row.
-/

namespace MatrixLang

section Lines

variable {cs : List Char}

theorem Piece.LiesAt.line_mem {p : Piece} {l : Location} (h : p.LiesAt cs l) :
    1 ≤ l.line ∧ l.line ≤ (Text.lines cs).length := by
  obtain ⟨ds, es, rfl, rfl⟩ := h.splits
  have hne : p.text ++ es ≠ [] := List.append_ne_nil_of_left_ne_nil h.text_ne_nil es
  exact ⟨Nat.le_add_right _ _, Text.line_behind_le_length ds hne⟩

theorem Scan.line_mem_of_token {t : Token} (h : t ∈ (ofText cs).tokens)
    (hk : t.kind ≠ .endOfInput) :
    1 ≤ t.location.line ∧ t.location.line ≤ (Text.lines cs).length := by
  rcases mem_tokens h with rfl | ⟨us, _, hlies⟩
  · exact absurd rfl hk
  · exact hlies.line_mem

end Lines

namespace Program

variable {ts : List Token} {p : Program}

/-- Checking a program does not look at where its block lies. -/
theorem findings_congr {q : Program} (h : p.statements = q.statements) :
    p.findings = q.findings := by
  obtain ⟨ss, l⟩ := p
  obtain ⟨_, m⟩ := q
  obtain rfl : ss = _ := h
  simp only [findings, Checker.program, Node.checkBlock]

/-- What a program says does not depend on where the end of input lies. -/
theorem statements_moved_of_fixed {f : Location → Location} (hts : Closed ts)
    (hf : ∀ t ∈ ts, t.kind ≠ .endOfInput → f t.location = t.location)
    (hp : ofTokens ts = .ok p) : (Program.moved f p).statements = p.statements := by
  have hs := (Phrase.ofTokens_eq_ok_iff.mp hp).1
  have htokens : (ts.map (.moved f)).takeWhile (·.kind ≠ .endOfInput) =
      ts.takeWhile (·.kind ≠ .endOfInput) := by
    rw [List.takeWhile_map]
    refine (List.map_congr_left fun t ht => ?_).trans (List.map_id _)
    have hfix := hf t ((List.takeWhile_prefix _).subset ht) (hs.inner t ht)
    obtain ⟨k, l⟩ := t
    exact congrArg (Token.mk k) hfix
  have hmoved : ofTokens (ts.map (.moved f)) = .ok (Program.moved f p) := by
    rw [ofTokens_map_moved f hts, hp]
    rfl
  have hspells : Phrase.Spells true (ts.map (.moved f))
      ⟨p.statements, (Token.head (ts.map (.moved f))).location⟩ :=
    ⟨htokens ▸ hs, rfl⟩
  have hsame := hmoved.symm.trans (Phrase.ofTokens_eq_ok_iff.mpr hspells)
  rw [Except.ok.inj hsame]

/-- Every diagnostic is on the line of a token that is not the end of input, since moving the end of
input alone moves no diagnostic. -/
theorem exists_token_of_mem_diagnostics {cs : List Char} {d : Diagnostic} (hp : ofText cs = .ok p)
    (hd : d ∈ p.findings.diagnostics) :
    ∃ t ∈ (Scan.ofText cs).tokens, t.kind ≠ .endOfInput ∧ d.line = t.location.line := by
  let f : Location → Location := fun l => if l = .behind cs then l.below 1 else l
  have hend : ⟨.endOfInput, .behind cs⟩ ∈ (Scan.ofText cs).tokens := by
    simp [Scan.ofText, Location.after_start]
  have hne : ∀ t ∈ (Scan.ofText cs).tokens, t.kind ≠ .endOfInput → t.location ≠ .behind cs := by
    intro t ht hk hl
    have hsame := List.inj_on_of_nodup_map (nodup_locations cs) ht hend hl
    exact hk (congrArg Token.kind hsame)
  have hfixed := statements_moved_of_fixed (closed_tokens cs)
    (fun t ht hk => if_neg (hne t ht hk) : ∀ t ∈ _, _ → f t.location = t.location) hp
  have hsame := (Analysis.findings_sameReport (f := f) (closed_tokens cs) hp).1
  rw [findings_congr hfixed] at hsame
  obtain ⟨t, ht, hline, hmoved⟩ := (List.forall₂_same.mp hsame d hd).line
  refine ⟨t, ht, fun hk => ?_, hline⟩
  rcases Scan.mem_tokens ht with rfl | ⟨us, hus, _⟩
  · have hbelow : f (.behind cs) = Location.below 1 (.behind cs) := if_pos rfl
    rw [hbelow] at hmoved
    exact absurd (hline.symm.trans hmoved) (Nat.ne_of_lt (Nat.lt_succ_self _))
  · rw [hk] at hus
    cases hus

end Program

theorem Program.ofText_nil : Program.ofText [] = .ok ⟨[], .start⟩ := by
  have ht : (Scan.ofText []).tokens = [⟨.endOfInput, .start⟩] := by
    rw [Scan.ofText, Piece.ofText]
    rfl
  rw [Program.ofText, ht]
  rfl

/-- The syntax error of an incomplete text is at its end, and the empty text has none. -/
theorem SyntaxError.location_of_endOfInput {cs : List Char} {e : SyntaxError}
    (he : Program.ofText cs = .error e) (hk : e.found.kind = .endOfInput) :
    cs ≠ [] ∧ e.found.location = .behind cs := by
  refine ⟨?_, ?_⟩
  · rintro rfl
    rw [Program.ofText_nil] at he
    cases he
  · rcases Scan.mem_tokens (found_mem (closed_tokens cs) he) with hend | ⟨us, hus, _⟩
    · rw [hend]
    · rw [hk] at hus
      cases hus

namespace Viewer

/-- The row of a selected line that has a problem, with a marker in front and all of it in the style
of failures. -/
def SourcePane.highlightedLine (n : Nat) (text : List Char) : Line :=
  ⟨'●' :: Text.padLeft 4 (toString n).toList ++ [' '],
      (Style.ofForeground Palette.failure).inBold⟩ ::
    (Highlight.source text).map fun s => ⟨s.text, ⟨some .white, some Palette.failure, true⟩⟩

namespace Problem

variable {cs : List Char} {p : Problem}

/-- The problem is the syntax error of an incomplete text that ends with a line break. -/
def IsBehindLines (cs : List Char) (p : Problem) : Prop :=
  p.stage = .syntactic ∧ cs.getLast? = some '\n' ∧
    ∃ e, Program.ofText cs = .error e ∧ e.isIncomplete = true

theorem line_cases (h : p ∈ ofAnalysis (Analysis.ofText cs)) :
    1 ≤ p.line ∧ (p.line ≤ (Text.lines cs).length ∧ ¬ IsBehindLines cs p ∨
      p.line = (Text.lines cs).length + 1 ∧ IsBehindLines cs p) := by
  rcases mem_found_iff.mp (mem_ofAnalysis_iff.mp h) with ⟨e, he, rfl⟩ | ⟨d, hd, rfl⟩ | ⟨e, he, rfl⟩
  · obtain ⟨q, _, hlies⟩ := Scan.mem_errors he
    exact ⟨hlies.line_mem.1, .inl ⟨hlies.line_mem.2, fun h => nomatch h.1⟩⟩
  · obtain ⟨q, hq, hd⟩ := Analysis.mem_diagnostics_ofText hd
    obtain ⟨t, ht, hk, hline⟩ := Program.exists_token_of_mem_diagnostics hq hd
    have hmem := Scan.line_mem_of_token ht hk
    rw [← hline] at hmem
    exact ⟨hmem.1, .inl ⟨hmem.2, fun h => nomatch h.1⟩⟩
  · rw [Analysis.outcome_ofText_eq_error_iff] at he
    by_cases hk : e.found.kind = .endOfInput
    · obtain ⟨hcs, hlocation⟩ := SyntaxError.location_of_endOfInput he hk
      dsimp only
      rw [hlocation]
      refine ⟨Nat.le_add_right _ _, ?_⟩
      rw [Text.line_behind_eq hcs]
      split
      next hlast => exact .inr ⟨rfl, rfl, hlast, e, he, decide_eq_true hk⟩
      next hlast => exact .inl ⟨Nat.le_refl _, fun h => hlast h.2.1⟩
    · have hmem := Scan.line_mem_of_token (SyntaxError.found_mem (closed_tokens cs) he) hk
      refine ⟨hmem.1, .inl ⟨hmem.2, ?_⟩⟩
      rintro ⟨_, _, e', he', hincomplete⟩
      obtain rfl : e = e' := Except.error.inj (he.symm.trans he')
      exact hk (of_decide_eq_true hincomplete)

/-- The source pane has a row for the line of every problem, highlighted when the problem is
selected, but for the syntax error of an incomplete text that ends with a line break: its line is
the one behind the last row. -/
theorem row_iff (h : p ∈ (Session.ofText cs).problems) :
    (1 ≤ p.line ∧ p.line ≤ (Text.lines cs).length ↔ ¬ IsBehindLines cs p) ∧
      (IsBehindLines cs p → p.line = (Text.lines cs).length + 1) ∧
      (¬ IsBehindLines cs p → ∃ text, (Text.lines cs)[p.line - 1]? = some text ∧
        SourcePane.line (some p.line) ((Session.ofText cs).problems.map (·.line)) p.line text =
          SourcePane.highlightedLine p.line text) := by
  obtain ⟨hpos, hcases⟩ := line_cases h
  refine ⟨⟨?_, ?_⟩, ?_, ?_⟩
  · rintro ⟨_, hle⟩ hbehind
    rcases hcases with ⟨_, hnot⟩ | ⟨heq, _⟩
    · exact hnot hbehind
    · omega
  · intro hnot
    exact ⟨hpos, (hcases.resolve_right fun h => hnot h.2).1⟩
  · intro hbehind
    exact (hcases.resolve_left fun h => h.2 hbehind).1
  · intro hnot
    have hle := (hcases.resolve_right fun h => hnot h.2).1
    have hlt : p.line - 1 < (Text.lines cs).length := by omega
    refine ⟨_, List.getElem?_eq_getElem hlt, ?_⟩
    have hmarked : ((Session.ofText cs).problems.map (·.line)).contains p.line = true :=
      List.contains_iff_mem.mpr (List.mem_map_of_mem h)
    simp only [SourcePane.line, SourcePane.highlightedLine, SourcePane.numberStyle,
      SourcePane.spanStyle, hmarked, decide_true, Bool.and_self, if_true]

section Texts

/-- An incomplete text without a line break at its end, in which a character is skipped. -/
def openText : List Char := "$\na = (1".toList

def openProblems : List Problem :=
  [⟨.lexical, 1, "Illegal character '$' at line 1, column 1"⟩,
    ⟨.syntactic, 2, "Unexpected end of input (expected ')' after expression)"⟩]

theorem problems_openText : (Session.ofText openText).problems = openProblems := by
  have ht : (Scan.ofText openText).tokens =
      [⟨.name "a", ⟨2, 1⟩⟩, ⟨.symbol (.assign .plain), ⟨2, 3⟩⟩, ⟨.symbol .leftParen, ⟨2, 5⟩⟩,
        ⟨.integer 1, ⟨2, 6⟩⟩, ⟨.endOfInput, ⟨2, 7⟩⟩] := by decide +kernel
  have he : (Scan.ofText openText).errors = [⟨.illegalCharacter '$', .start⟩] := by decide +kernel
  have hp : Program.ofText openText = .error ⟨.closeExpression, ⟨.endOfInput, ⟨2, 7⟩⟩⟩ := by
    rw [Program.ofText, ht]
    rfl
  have hfound : found (Analysis.ofText openText) = openProblems := by
    rw [found, Analysis.ofText, he, hp]
    rfl
  have hsorted : (found (Analysis.ofText openText)).Pairwise (ordered · ·) := by
    rw [hfound]
    decide
  exact (ofAnalysis_eq_found hsorted).trans hfound

theorem row_openText :
    openProblems[1] ∈ (Session.ofText openText).problems ∧
      ¬ IsBehindLines openText openProblems[1] ∧
      ∃ text, (Text.lines openText)[1]? = some text ∧
        SourcePane.line (some 2) ((Session.ofText openText).problems.map (·.line)) 2 text =
          SourcePane.highlightedLine 2 text := by
  have hmem : openProblems[1] ∈ (Session.ofText openText).problems := by
    rw [problems_openText]
    exact List.getElem_mem _
  have hlast : ¬ IsBehindLines openText openProblems[1] := fun h => by
    have hbreak := h.2.1
    revert hbreak
    decide
  exact ⟨hmem, hlast, (row_iff hmem).2.2 hlast⟩

/-- An incomplete text that ends with a line break. -/
def brokenText : List Char := "a = (1\n".toList

/-- A text of one line can have a problem on a second one. -/
theorem problems_brokenText :
    (Text.lines brokenText).length = 1 ∧ (Session.ofText brokenText).problems =
      [⟨.syntactic, 2, "Unexpected end of input (expected ')' after expression)"⟩] := by
  have ht : (Scan.ofText brokenText).tokens =
      [⟨.name "a", ⟨1, 1⟩⟩, ⟨.symbol (.assign .plain), ⟨1, 3⟩⟩, ⟨.symbol .leftParen, ⟨1, 5⟩⟩,
        ⟨.integer 1, ⟨1, 6⟩⟩, ⟨.endOfInput, ⟨2, 1⟩⟩] := by decide +kernel
  have he : (Scan.ofText brokenText).errors = [] := by decide +kernel
  have hp : Program.ofText brokenText = .error ⟨.closeExpression, ⟨.endOfInput, ⟨2, 1⟩⟩⟩ := by
    rw [Program.ofText, ht]
    rfl
  have hfound : found (Analysis.ofText brokenText) =
      [⟨.syntactic, 2, "Unexpected end of input (expected ')' after expression)"⟩] := by
    rw [found, Analysis.ofText, he, hp]
    rfl
  have hsorted : (found (Analysis.ofText brokenText)).Pairwise (ordered · ·) := by
    rw [hfound]
    exact List.pairwise_singleton _ _
  exact ⟨by decide, (ofAnalysis_eq_found hsorted).trans hfound⟩

end Texts

end Problem

end Viewer

end MatrixLang
