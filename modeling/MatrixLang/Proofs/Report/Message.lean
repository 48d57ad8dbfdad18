import MatrixLang.Proofs.Layout.Analysis
import MatrixLang.Proofs.Lexing.Spelled
import MatrixLang.Proofs.Report.Problem
import MatrixLang.Proofs.Scope.Reported
import MatrixLang.Proofs.Syntax.Part

/-! # Messages are lines

A message shows names, numbers, types and characters of the text, but never a line break: a string
that is shown in a message has none, and a line break itself is never skipped. So every problem is
reported on a line of its own.
-/

namespace MatrixLang

open Text

@[simp] theorem unbroken_toString (n : Nat) : Unbroken (toString n).toList := by
  refine unbroken_of_isAlphanum fun c hc => .inl ?_
  rw [Char.isAlphanum, isDigit_of_mem_toString hc, Bool.or_true]

section Texts

theorem Location.unbroken_text (l : Location) : Unbroken l.text.toList := by
  have htext : l.text = "line " ++ toString l.line ++ ", column " ++ toString l.column := rfl
  rw [htext]
  simp only [String.toList_append, unbroken_append_iff, unbroken_toString, and_true]
  decide

theorem Extent.unbroken_text (e : Extent) : Unbroken e.text.toList := by
  cases e with
  | known n => exact unbroken_toString n
  | unknown => decide

theorem Shape.unbroken_text (s : Shape) : Unbroken s.text.toList := by
  rw [Shape.text]
  simp only [String.toList_append, unbroken_append_iff, Extent.unbroken_text, true_and, and_true]
  decide

theorem Ty.unbroken_text (t : Ty) : Unbroken t.text.toList := by
  cases t with
  | matrix s =>
    rw [Ty.text]
    simp only [String.toList_append, unbroken_append_iff, Shape.unbroken_text, and_true]
    decide +kernel
  | _ => decide +kernel

theorem BinaryOperator.unbroken_text (op : BinaryOperator) : Unbroken op.text.toList := by
  rcases op with op | op <;> cases op <;> decide

theorem CombinationFault.unbroken_message (f : CombinationFault) :
    Unbroken f.message.toList := by
  cases f with
  | shapes left right =>
    have htext : (shapes left right).message =
      "Invalid dimensions for matrices (" ++ left.text ++ ") and (" ++ right.text ++ ")" := rfl
    rw [htext]
    simp only [String.toList_append, unbroken_append_iff, Shape.unbroken_text, and_true]
    decide +kernel
  | operands op left right =>
    have htext : (operands op left right).message =
      "Invalid operation: " ++ left.text ++ " " ++ op.text ++ " " ++ right.text := rfl
    rw [htext]
    simp only [String.toList_append, unbroken_append_iff, Ty.unbroken_text,
      BinaryOperator.unbroken_text, and_true]
    decide +kernel
  | _ => decide +kernel

theorem Violation.unbroken_message (v : Violation)
    (hundefined : ∀ x, v = .undefinedVariable x → Unbroken x.toList)
    (hundeclared : ∀ x, v = .undeclaredTarget x → Unbroken x.toList) :
    Unbroken v.message.toList := by
  cases v with
  | undefinedVariable x =>
    have htext : (undefinedVariable x).message = "Not existing variable: " ++ x := rfl
    rw [htext, String.toList_append, unbroken_append_iff]
    exact ⟨by decide +kernel, hundefined x rfl⟩
  | undeclaredTarget x =>
    have htext : (undeclaredTarget x).message = "Variable does not exist: " ++ x := rfl
    rw [htext, String.toList_append, unbroken_append_iff]
    exact ⟨by decide +kernel, hundeclared x rfl⟩
  | combination f => exact f.unbroken_message
  | outsideLoop i | unknownPayload i => cases i <;> decide +kernel
  | _ => decide +kernel

theorem Diagnostic.unbroken_text {d : Diagnostic} (h : Unbroken d.violation.message.toList) :
    Unbroken d.text.toList := by
  rw [text]
  simp only [String.toList_append, unbroken_append_iff, unbroken_toString, h, and_true]
  decide

end Texts

section Tokens

variable {k : Kind} {us cs : List Char}

theorem Kind.lineBreak_notMem_label (k : Kind) : '\n' ∉ k.label.toList := by
  have hkeywords : ∀ w ∈ Keyword.all, '\n' ∉ w.name.toList := by decide
  have hsymbols : ∀ m ∈ Symbol.all, '\n' ∉ m.name.toList := by decide
  cases k with
  | keyword w => exact hkeywords w (Keyword.mem_all w)
  | symbol m => exact hsymbols m (Symbol.mem_all m)
  | integer | float | string | name | endOfInput => rw [label]; decide

theorem Expectation.lineBreak_notMem_text (e : Expectation) : '\n' ∉ e.text.toList := by
  cases e with
  | openParen w =>
    have htext : (openParen w).text = "expected '(' after '" ++ w.text ++ "'" := rfl
    rw [htext]
    simpa using w.lineBreak_notMem_text
  | closeCondition w =>
    have htext : (closeCondition w).text = "expected ')' after " ++ w.text ++ " condition" := rfl
    rw [htext]
    simpa using w.lineBreak_notMem_text
  | closeDimensions b => cases b <;> decide +kernel
  | terminator t =>
    cases t with
    | instruction i => cases i <;> decide +kernel
    | _ => decide +kernel
  | _ => decide +kernel

theorem SyntaxError.isLine_message {e : SyntaxError}
    (h : '\n' ∉ e.found.kind.spelling.toList) : IsLine e.message.toList := by
  have htext : ∃ cs, e.message.toList = cs ++ [')'] ∧ '\n' ∉ cs := by
    rw [message]
    split
    · refine ⟨("Unexpected end of input (" ++ e.expected.text).toList, by simp, ?_⟩
      rw [String.toList_append, List.mem_append, not_or]
      exact ⟨by decide +kernel, e.expected.lineBreak_notMem_text⟩
    · refine ⟨("Syntax error at " ++ e.found.location.text ++ ": unexpected " ++
        e.found.kind.label ++ " '" ++ e.found.kind.spelling ++ "' (" ++ e.expected.text).toList,
        by simp, ?_⟩
      simp only [String.toList_append, List.mem_append, not_or]
      exact ⟨⟨⟨⟨⟨⟨⟨by decide +kernel, e.found.location.unbroken_text.isLine.1⟩, by decide +kernel⟩,
        e.found.kind.lineBreak_notMem_label⟩, by decide⟩, h⟩, by decide⟩,
        e.expected.lineBreak_notMem_text⟩
  obtain ⟨cs, htext, hcs⟩ := htext
  rw [htext]
  exact .append_singleton hcs (by decide) (by decide)

end Tokens

section Names

variable {cs : List Char} {p : Program}

theorem Occurrence.violation_of_undefined? {o : Occurrence} {d : Diagnostic}
    (h : o.undefined? = some d) : d.violation = .undefinedVariable o.name := by
  cases o with
  | use x line => rw [← Option.some.inj h, name]
  | _ => cases h

theorem Occurrence.violation_of_undeclared? {o : Occurrence} {d : Diagnostic}
    (h : o.undeclared? = some d) : d.violation = .undeclaredTarget o.name := by
  cases o with
  | update x line => rw [← Option.some.inj h, name]
  | _ => cases h

theorem Program.unbroken_of_mem_walk {o : Occurrence} (h : ofText cs = .ok p) (ho : o ∈ walk p) :
    Unbroken o.name.toList := by
  obtain ⟨statements, l⟩ := p
  obtain ⟨us, hus⟩ := Node.name_of_mem_walkBlock _ (isSpelled_of_ofText h) ho
  revert hus
  generalize o.name = x
  intro hus
  cases hus with
  | name hword _ =>
    rw [String.toList_ofList]
    exact hword.unbroken

theorem Program.unbroken_message {d : Diagnostic} (h : ofText cs = .ok p)
    (hd : d ∈ p.findings.diagnostics) : Unbroken d.violation.message.toList := by
  have haccounts := accounts_ofText h
  obtain ⟨ds, hds, hundeclared, hundefined⟩ := haccounts.reports
  obtain rfl : p.findings.diagnostics = ds := hds
  refine d.violation.unbroken_message (fun x hx => ?_) (fun x hx => ?_)
  · have hmem : d ∈ p.findings.diagnostics.filter (·.isUndefined) :=
      List.mem_filter.mpr ⟨hd, by simp [Diagnostic.isUndefined, hx]⟩
    rw [hundefined] at hmem
    obtain ⟨o, ho, hod⟩ := List.mem_filterMap.mp hmem
    obtain rfl : x = o.name :=
      Violation.undefinedVariable.inj (hx.symm.trans (Occurrence.violation_of_undefined? hod))
    exact unbroken_of_mem_walk h (haccounts.visits.subset ((unbound_sublist _ _).subset ho))
  · have hmem : d ∈ p.findings.diagnostics.filter (·.isUndeclared) :=
      List.mem_filter.mpr ⟨hd, by simp [Diagnostic.isUndeclared, hx]⟩
    rw [hundeclared] at hmem
    obtain ⟨o, ho, hod⟩ := List.mem_filterMap.mp hmem
    obtain rfl : x = o.name :=
      Violation.undeclaredTarget.inj (hx.symm.trans (Occurrence.violation_of_undeclared? hod))
    exact unbroken_of_mem_walk h ((unbound_sublist _ _).subset ho)

end Names

section Skipped

variable {cs : List Char} {q : Piece} {f : LexicalFault}

theorem LexicalFault.unbroken_message (h : Faulty q f) (hcut : Cut cs q) :
    Unbroken f.message.toList := by
  cases h with
  | quote => decide +kernel
  | @character c =>
    have hc : c ≠ '\n' ∧ c ≠ '\r' := by
      cases hcut with
      | skipped hblank _ => constructor <;> (rintro rfl; exact hblank (by decide))
    have htext : (illegalCharacter c).message = "Illegal character '" ++ c.toString ++ "'" := rfl
    rw [htext]
    simp only [String.toList_append, unbroken_append_iff]
    exact ⟨⟨by decide +kernel, by simpa [Unbroken] using hc⟩, by decide⟩
  | @integer n ds =>
    have hds : IsNumeral ds := by
      cases hcut with
      | lexeme hlongest =>
        cases hlongest.lexeme with
        | integer hds _ => exact hds
    have htext : (integerOutOfRange (String.ofList ds)).message =
      "Integer literal out of range: " ++ String.ofList ds := rfl
    rw [htext, String.toList_append, @String.toList_ofList ds, unbroken_append_iff]
    refine ⟨by decide +kernel, unbroken_of_isAlphanum fun c hc => .inl ?_⟩
    rw [Char.isAlphanum, hds.2 c hc, Bool.or_true]

end Skipped

namespace Viewer.Problem

variable {cs : List Char}

/-- Nothing that goes into a message has a line break. -/
theorem isLine_text {p : Problem} (h : p ∈ found (Analysis.ofText cs)) : IsLine p.text.toList := by
  rcases mem_found_iff.mp h with ⟨e, he, rfl⟩ | ⟨d, hd, rfl⟩ | ⟨e, he, rfl⟩
  · obtain ⟨q, hfaulty, hlies⟩ := Scan.mem_errors he
    obtain ⟨ds, hcut⟩ := hlies.isCut
    refine Unbroken.isLine ?_
    rw [LexicalError.text, String.toList_append, String.toList_append, unbroken_append_iff,
      unbroken_append_iff]
    exact ⟨⟨e.fault.unbroken_message hfaulty hcut, by decide⟩, e.location.unbroken_text⟩
  · obtain ⟨q, hq, hd⟩ := Analysis.mem_diagnostics_ofText hd
    exact (Diagnostic.unbroken_text (Program.unbroken_message hq hd)).isLine
  · rw [Analysis.outcome_ofText_eq_error_iff] at he
    refine SyntaxError.isLine_message ?_
    rcases Scan.mem_tokens (SyntaxError.found_mem (closed_tokens cs) he) with hend | ⟨us, hus, _⟩
    · rw [hend]
      exact List.not_mem_nil
    · exact hus.lineBreak_notMem_spelling

end Viewer.Problem

end MatrixLang
