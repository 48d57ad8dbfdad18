import MatrixLang.CommandLine
import MatrixLang.Proofs.Report.Message

/-! # The reports on a text agree

The command line, its status, the list of problems and the verdict of the viewer summarise one
analysis. They tell the same problems in different orders, and flags only add to what is printed.
-/

namespace MatrixLang

open Viewer

def Analysis.messages (a : Analysis) : List String :=
  match a.outcome with
  | .ok checked => checked.findings.diagnostics.map (·.text)
  | .error e => [e.message]

/-- The outline of the program, nothing after a syntax error. -/
def Analysis.outlineText (a : Analysis) : String :=
  match a.outcome with
  | .ok checked => checked.program.outlineText
  | .error _ => ""

namespace Viewer

/-- The problems `ps` are those of `qs` in the order of their lines, and on each line in the order
in which they are in `qs`. -/
structure Problem.StablySorts (ps qs : List Problem) : Prop where
  perm : ps.Perm qs
  ordered : ps.Pairwise (·.line ≤ ·.line)
  stable : ∀ n, ps.filter (·.line = n) = qs.filter (·.line = n)

/-- The verdict on a text with `n` problems, and the status that goes with it. -/
inductive Verdict.Tallies (n : Nat) : Verdict → Nat → Prop
  | clean : n = 0 → Tallies n .clean 0
  | problems : n ≠ 0 → Tallies n (.problems n) 1
  | syntaxError : Tallies n .syntaxError 2

namespace Problem

theorem stablySorts_found (a : Analysis) : StablySorts (ofAnalysis a) (found a) :=
  ⟨perm_found a, pairwise_ofAnalysis a, filter_ofAnalysis a⟩

theorem isClean_iff {a : Analysis} : a.isClean = true ↔ found a = [] := by
  rw [Analysis.isClean, found]
  cases a.outcome <;> simp [List.isEmpty_iff]

theorem tallies_verdict (cs : List Char) :
    Verdict.Tallies (found (Analysis.ofText cs)).length (Session.ofText cs).verdict
      (Report.statusOf (Analysis.ofText cs)) := by
  have hperm : (Session.ofText cs).problems.Perm (found (Analysis.ofText cs)) := perm_found _
  rw [Session.verdict, Report.statusOf]
  have hanalysis : (Session.ofText cs).analysis = Analysis.ofText cs := rfl
  rw [hanalysis]
  cases (Analysis.ofText cs).outcome with
  | error e => exact .syntaxError
  | ok checked =>
    dsimp only
    by_cases hfound : found (Analysis.ofText cs) = []
    · rw [if_pos (isClean_iff.mpr hfound), hperm.isEmpty_eq, if_pos (List.isEmpty_iff.mpr hfound)]
      exact .clean (List.length_eq_zero_iff.mpr hfound)
    · rw [if_neg (mt isClean_iff.mp hfound), hperm.isEmpty_eq,
        if_neg (mt List.isEmpty_iff.mp hfound), hperm.length_eq]
      exact .problems (mt List.length_eq_zero_iff.mp hfound)

end Problem

end Viewer

namespace Report

variable {ls : List String}

theorem toList_lines (ls : List String) :
    (lines ls).toList = (ls.map (·.toList)).flatMap (· ++ ['\n']) := by
  simp [lines, String.toList_join, List.flatMap_map]

theorem lines_append (ls ms : List String) : lines (ls ++ ms) = lines ls ++ lines ms := by
  rw [← String.toList_inj, String.toList_append, toList_lines, toList_lines, toList_lines,
    List.map_append, List.flatMap_append]

theorem lines_toList_lines (h : ∀ l ∈ ls, Text.IsLine l.toList) :
    Text.lines (lines ls).toList = ls.map (·.toList) := by
  rw [toList_lines, Text.lines_flatMap]
  exact List.forall_mem_map.mpr h

/-- The report that no flag adds anything to. -/
def plain (cs : List Char) : Report := ofText .default cs

variable {cs : List Char}

theorem output_ofText (o : Options) (cs : List Char) :
    (ofText o cs).output =
      (if o.tokens then lines ((Scan.ofText cs).tokens.map (·.listing)) else "") ++
        lines ((Analysis.ofText cs).lexicalErrors.map (·.text)) ++
        ((if o.tree then (Analysis.ofText cs).outlineText else "") ++
          lines (Analysis.ofText cs).messages) := by
  rw [ofText, Analysis.messages, Analysis.outlineText]
  dsimp only
  cases (Analysis.ofText cs).outcome with
  | ok checked => rfl
  | error e => rw [ite_self, String.empty_append]

theorem output_plain (cs : List Char) :
    (plain cs).output = lines ((Problem.found (Analysis.ofText cs)).map (·.text)) := by
  have hmessages : (Problem.found (Analysis.ofText cs)).map (·.text) =
      (Analysis.ofText cs).lexicalErrors.map (·.text) ++ (Analysis.ofText cs).messages := by
    rw [Problem.found, Analysis.messages, List.map_append, List.map_map]
    cases (Analysis.ofText cs).outcome with
    | ok checked => simp [Function.comp_def]
    | error e => rfl
  rw [plain, output_ofText, hmessages, lines_append]
  simp [Options.default]

/-- What is printed without flags is the problems, one on each line. -/
theorem lines_output_plain (cs : List Char) :
    Text.lines (plain cs).output.toList =
      (Problem.found (Analysis.ofText cs)).map (·.text.toList) := by
  rw [output_plain, lines_toList_lines, List.map_map]
  · rfl
  · exact List.forall_mem_map.mpr fun p hp => Problem.isLine_text hp

theorem statusOf_eq_zero_iff {a : Analysis} : statusOf a = 0 ↔ a.isClean = true := by
  rw [statusOf]
  cases h : a.outcome with
  | ok checked => simp
  | error e => simp [Analysis.isClean, h]

theorem output_plain_eq_empty_iff :
    (plain cs).output = "" ↔ Problem.found (Analysis.ofText cs) = [] := by
  rw [← String.toList_inj, output_plain, toList_lines]
  cases Problem.found (Analysis.ofText cs) <;> simp

/-- All reports on a text agree. The viewer lists the problems in the order of their lines, the
command line prints them in the order in which they were found, one on each line, and the status
goes with the verdict. The flags do not change the status, and add tokens in front of the problems
and the outline behind the lexical errors. -/
theorem agrees (cs : List Char) :
    Problem.StablySorts (Session.ofText cs).problems (Problem.found (Analysis.ofText cs)) ∧
    (Text.lines (plain cs).output.toList).Perm
      ((Session.ofText cs).problems.map (·.text.toList)) ∧
    Verdict.Tallies (Text.lines (plain cs).output.toList).length (Session.ofText cs).verdict
      (plain cs).status ∧
    ((plain cs).status = 0 ↔ (Analysis.ofText cs).isClean = true) ∧
    ((plain cs).status = 0 ↔ (plain cs).output = "") ∧
    ∀ o : Options, (ofText o cs).status = (plain cs).status ∧
      ∃ tokens errors outline others,
        tokens = (if o.tokens then lines ((Scan.ofText cs).tokens.map (·.listing)) else "") ∧
        errors = lines ((Analysis.ofText cs).lexicalErrors.map (·.text)) ∧
        outline = (if o.tree then (Analysis.ofText cs).outlineText else "") ∧
        (plain cs).output = errors ++ others ∧
        (ofText o cs).output = tokens ++ errors ++ (outline ++ others) := by
  have hperm : (Session.ofText cs).problems.Perm (Problem.found (Analysis.ofText cs)) :=
    Problem.perm_found _
  refine ⟨Problem.stablySorts_found _, ?_, ?_, statusOf_eq_zero_iff, ?_, fun o => ⟨rfl, ?_⟩⟩
  · rw [lines_output_plain]
    exact (hperm.map _).symm
  · rw [lines_output_plain, List.length_map]
    exact Problem.tallies_verdict cs
  · exact statusOf_eq_zero_iff.trans (Problem.isClean_iff.trans output_plain_eq_empty_iff.symm)
  · refine ⟨_, _, _, lines (Analysis.ofText cs).messages, rfl, rfl, rfl, ?_, output_ofText o cs⟩
    rw [plain, output_ofText]
    simp [Options.default]

end Report

end MatrixLang
