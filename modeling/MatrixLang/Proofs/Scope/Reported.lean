import MatrixLang.Analysis
import MatrixLang.Proofs.Scope.Bound

/-! # Reports about names

The names that a program binds, and the reports about names that it does not bind, are told by its
tree, up to one point: an instruction checks its values only up to the first one without a type.
-/

namespace MatrixLang

namespace Program

open Node Checker

variable {p : Program} {cs : List Char}

theorem accounts_program (h : ofText cs = .ok p) {s : Checker Scopes} (hs : s.names.Nodup) :
    Accounts (visitedBlock p s) (walk p) s (s.program p) := by
  obtain ⟨statements, l⟩ := p
  rw [visitedBlock, walk, walkBlock, program, checkBlock]
  exact accounts_statements (isStatement_of_ofText h) hs

theorem accounts_ofText (h : ofText cs = .ok p) :
    Accounts (visited p) (walk p) initial (initial.program p) :=
  accounts_program h List.nodup_nil

theorem bindings_findings_eq (h : ofText cs = .ok p) :
    p.findings.bindings = (initial.program p).environment.innermost := by
  have henclosing : (initial.program p).environment.enclosing = [] := (accounts_ofText h).enclosing
  rw [findings, Checker.findings, Scopes.toTable, henclosing, Scopes.closeAll]

/-- Which names are bound is told by the tree. Wherever a check comes to, the binders on the walk up
to there are bound and nothing else, and expressions bind nothing; in the end all binders are, each
once in the order of their first occurrences. An update is reported exactly if no binder of its name
is in front of it, and a use only if none is. -/
theorem bound_iff_binder (h : ofText cs = .ok p) :
    (∀ w n c, Comes p.statements initial w n c →
      ∀ x, (Environment.find? c.environment x).isSome ↔ x ∈ binders w) ∧
    (∀ e : Node, e.IsExpression → ∀ s : Checker Scopes, (e.check s).2.environment = s.environment) ∧
    p.findings.bindings.names = (binders (walk p)).eraseDups ∧
    p.findings.diagnostics.filter (·.isUndeclared) =
      (unbound [] (walk p)).filterMap (·.undeclared?) ∧
    (p.findings.diagnostics.filter (·.isUndefined)).Sublist
      ((unbound [] (walk p)).filterMap (·.undefined?)) := by
  have haccounts := accounts_ofText h
  obtain ⟨ds, hd, hundeclared, hundefined⟩ := haccounts.reports
  have hds : p.findings.diagnostics = ds := hd
  refine ⟨fun w n c hc x => ?_, fun e he s => (he.consults s).environment, ?_, ?_, ?_⟩
  · have hnames := hc.names_eq (isStatement_of_ofText h) List.nodup_nil
    have hx : x ∈ c.names ↔ x ∈ binders w := by
      rw [hnames, mem_addNames]
      exact ⟨fun h => h.resolve_left List.not_mem_nil, .inr⟩
    exact Table.find?_isSome_iff.trans hx
  · rw [bindings_findings_eq h]
    exact haccounts.names.trans (addNames_nil _)
  · rw [hds]
    exact hundeclared
  · rw [hds, hundefined]
    exact (unbound_sublist_unbound haccounts.visits haccounts.sameBinders).filterMap _

section Trace

/-- A program that updates and reads names that it never binds. -/
def traceText : List Char := "x += 1;\nfor i = 1:2 \x7b y = x; \x7d\nz[1] = 2;".toList

def traceTokens : List Token :=
  [⟨.name "x", ⟨1, 1⟩⟩, ⟨.symbol (.assign (.compound .add)), ⟨1, 3⟩⟩, ⟨.integer 1, ⟨1, 6⟩⟩,
    ⟨.symbol .semicolon, ⟨1, 7⟩⟩, ⟨.keyword .forWord, ⟨2, 1⟩⟩, ⟨.name "i", ⟨2, 5⟩⟩,
    ⟨.symbol (.assign .plain), ⟨2, 7⟩⟩, ⟨.integer 1, ⟨2, 9⟩⟩, ⟨.symbol .colon, ⟨2, 10⟩⟩,
    ⟨.integer 2, ⟨2, 11⟩⟩, ⟨.symbol .leftBrace, ⟨2, 13⟩⟩, ⟨.name "y", ⟨2, 15⟩⟩,
    ⟨.symbol (.assign .plain), ⟨2, 17⟩⟩, ⟨.name "x", ⟨2, 19⟩⟩, ⟨.symbol .semicolon, ⟨2, 20⟩⟩,
    ⟨.symbol .rightBrace, ⟨2, 22⟩⟩, ⟨.name "z", ⟨3, 1⟩⟩, ⟨.symbol .leftBracket, ⟨3, 2⟩⟩,
    ⟨.integer 1, ⟨3, 3⟩⟩, ⟨.symbol .rightBracket, ⟨3, 4⟩⟩, ⟨.symbol (.assign .plain), ⟨3, 6⟩⟩,
    ⟨.integer 2, ⟨3, 8⟩⟩, ⟨.symbol .semicolon, ⟨3, 9⟩⟩, ⟨.endOfInput, ⟨3, 10⟩⟩]

def traceProgram : Program :=
  ⟨[.assignment ⟨"x", [], ⟨1, 1⟩⟩ (.compound .add) (.integer 1 ⟨1, 6⟩) ⟨1, 3⟩,
    .forLoop ⟨"i", [], ⟨2, 5⟩⟩ ⟨.integer 1 ⟨2, 9⟩, .integer 2 ⟨2, 11⟩, ⟨2, 10⟩⟩
      ⟨[.assignment ⟨"y", [], ⟨2, 15⟩⟩ .plain (.reference ⟨"x", [], ⟨2, 19⟩⟩) ⟨2, 17⟩], ⟨2, 13⟩⟩
      ⟨2, 1⟩,
    .assignment ⟨"z", [.integer 1 ⟨3, 3⟩], ⟨3, 1⟩⟩ .plain (.integer 2 ⟨3, 8⟩) ⟨3, 6⟩], ⟨1, 1⟩⟩

theorem ofText_traceText : ofText traceText = .ok traceProgram := by
  have ht : (Scan.ofText traceText).tokens = traceTokens := by decide +kernel
  rw [ofText, ht]
  rfl

theorem bound_traceProgram :
    ofText traceText = .ok traceProgram ∧ traceProgram.findings.bindings.names = ["i", "y"] ∧
      traceProgram.findings.diagnostics.filter (·.isUndeclared) = [⟨1, .undeclaredTarget "x"⟩] ∧
      (traceProgram.findings.diagnostics.filter (·.isUndefined)).Sublist
        [⟨2, .undefinedVariable "x"⟩, ⟨3, .undefinedVariable "z"⟩] := by
  obtain ⟨_, _, hnames, hundeclared, hundefined⟩ := bound_iff_binder ofText_traceText
  exact ⟨ofText_traceText, hnames, hundeclared, hundefined⟩

end Trace

/-- Every use that the check comes to without a binder of its name in front is reported, once each
in the order of the walk. It misses uses at most, and if the values of instructions have types, up
to the last one of each, then it comes to all of them. -/
theorem undefined_eq (h : ofText cs = .ok p) :
    p.findings.diagnostics.filter (·.isUndefined) =
        (unbound [] (visited p)).filterMap (·.undefined?) ∧
      (visited p).Sublist (walk p) ∧ binders (visited p) = binders (walk p) ∧
      (PayloadsTyped p.statements initial → visited p = walk p) := by
  have haccounts := accounts_ofText h
  obtain ⟨ds, hd, _, hundefined⟩ := haccounts.reports
  have hds : p.findings.diagnostics = ds := hd
  refine ⟨?_, haccounts.visits, haccounts.sameBinders, fun ht => ?_⟩
  · rw [hds]
    exact hundefined
  · exact visitedBlock_eq (fun n hn => (isStatement_of_ofText h n hn).visited_eq) ht

section Payload

def printText (first : String) : List Char := ("print " ++ first ++ ", b;").toList

def printProgram (first : Location → Node) : Program :=
  ⟨[.instruction .printValues [first ⟨1, 7⟩, .reference ⟨"b", [], ⟨1, 10⟩⟩] ⟨1, 1⟩], ⟨1, 1⟩⟩

theorem ofText_printText_one :
    ofText (printText "1") = .ok (printProgram (.integer 1)) := by
  have ht : (Scan.ofText (printText "1")).tokens =
      [⟨.keyword (.instruction .printValues), ⟨1, 1⟩⟩, ⟨.integer 1, ⟨1, 7⟩⟩,
        ⟨.symbol .comma, ⟨1, 8⟩⟩, ⟨.name "b", ⟨1, 10⟩⟩, ⟨.symbol .semicolon, ⟨1, 11⟩⟩,
        ⟨.endOfInput, ⟨1, 12⟩⟩] := by decide +kernel
  rw [ofText, ht]
  rfl

theorem undefined_printProgram :
    ofText (printText "1") = .ok (printProgram (.integer 1)) ∧
      PayloadsTyped (printProgram (.integer 1)).statements initial ∧
      (printProgram (.integer 1)).findings.diagnostics.filter (·.isUndefined) =
        [⟨1, .undefinedVariable "b"⟩] := by
  have ht : PayloadsTyped (printProgram (.integer 1)).statements initial := by
    intro w i es l c hc
    cases hc with
    | here => rfl
    | later hc => cases hc
  obtain ⟨hundefined, _, _, hvisited⟩ := undefined_eq ofText_printText_one
  rw [hvisited ht] at hundefined
  exact ⟨ofText_printText_one, ht, hundefined⟩

/-- Behind a value without a type an unbound name is not reported. -/
theorem unreported_printProgram :
    ofText (printText "a") = .ok (printProgram fun l => .reference ⟨"a", [], l⟩) ∧
      (unbound [] (walk (printProgram fun l => .reference ⟨"a", [], l⟩))).filterMap
          (·.undefined?) =
        [⟨1, .undefinedVariable "a"⟩, ⟨1, .undefinedVariable "b"⟩] ∧
      (printProgram fun l => .reference ⟨"a", [], l⟩).findings.diagnostics =
        [⟨1, .undefinedVariable "a"⟩, ⟨1, .unknownPayload .printValues⟩] := by
  have ht : (Scan.ofText (printText "a")).tokens =
      [⟨.keyword (.instruction .printValues), ⟨1, 1⟩⟩, ⟨.name "a", ⟨1, 7⟩⟩,
        ⟨.symbol .comma, ⟨1, 8⟩⟩, ⟨.name "b", ⟨1, 10⟩⟩, ⟨.symbol .semicolon, ⟨1, 11⟩⟩,
        ⟨.endOfInput, ⟨1, 12⟩⟩] := by decide +kernel
  refine ⟨?_, rfl, rfl⟩
  rw [ofText, ht]
  rfl

end Payload

end Program

end MatrixLang
