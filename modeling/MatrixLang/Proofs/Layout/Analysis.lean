import Mathlib.Data.List.Forall2
import Mathlib.Data.List.Nodup
import MatrixLang.Analysis
import MatrixLang.Proofs.Checking.Parallel
import MatrixLang.Proofs.Layout.Rule
import MatrixLang.Proofs.Lexing.Account
import MatrixLang.Proofs.Syntax.Earliest

/-! # Layout does not matter

Blanks, comments and line breaks tell where tokens stand and nothing else. Texts with the same
tokens at different places give the same program or the same error at the corresponding places, and
checking finds the same at the corresponding lines.
-/

namespace MatrixLang

/-- A program at two series of places has the same diagnostics at related lines, and the same
bindings. -/
theorem Program.findings_moved {L : Nat → Nat → Prop} {f g : Location → Location}
    (hL : ∀ l, L (f l).line (g l).line) (p : Program) :
    List.Forall₂ (fun d d' => L d.line d'.line ∧ d.violation = d'.violation)
      (findings (Program.moved f p)).diagnostics (findings (Program.moved g p)).diagnostics ∧
    (findings (Program.moved f p)).bindings = (findings (Program.moved g p)).bindings := by
  have hR := Check.lineCongruence_parallel (ε := Scopes) (L := L)
    (D := List.Forall₂ fun d d' => L d.line d'.line ∧ d.violation = d'.violation)
    fun v hline h => List.rel_append h (.cons ⟨hline, rfl⟩ .nil)
  have h := Node.checkBlock_moved hR.onNames hL p (s := Checker.initial) (t := Checker.initial)
    ⟨rfl, rfl, .nil⟩
  exact ⟨h.2.diagnostics, congrArg Scopes.toTable h.2.environment⟩

section Counterparts

variable {f : Location → Location} {ts us : List Token} {cs ds : List Char}

/-- The map sends the place of each of the tokens `ts` to that of the same one among `us`. -/
def Realigns (f : Location → Location) (ts us : List Token) : Prop :=
  us.map (·.location) = ts.map (f ·.location)

/-- Where the token of `us` stands that corresponds to the one of `ts` at a place. -/
def counterpart (ts us : List Token) (l : Location) : Location :=
  (us.map (·.location))[(ts.map (·.location)).idxOf l]?.getD l

/-- The place itself if a token stands there, and that of the first one otherwise. -/
def tokenPlace (ts : List Token) (l : Location) : Location :=
  if l ∈ ts.map (·.location) then l else (Token.head ts).location

theorem realigns_counterpart (h : ts.map (·.kind) = us.map (·.kind))
    (hn : (ts.map (·.location)).Nodup) : Realigns (counterpart ts us) ts us := by
  have hl : ts.length = us.length := by simpa using congrArg List.length h
  refine List.ext_getElem (by simp [hl]) fun i hi hi' => ?_
  have hts : i < (ts.map (·.location)).length := by simpa using hi'
  have hidx : (ts.map (·.location)).idxOf (ts.map (·.location))[i] = i := hn.idxOf_getElem i hts
  have hcounterpart : counterpart ts us (ts.map (·.location))[i] = (us.map (·.location))[i] := by
    rw [counterpart, hidx, List.getElem?_eq_getElem hi, Option.getD_some]
  simpa using hcounterpart.symm

theorem Realigns.eq_map_moved (hf : Realigns f ts us) (h : ts.map (·.kind) = us.map (·.kind)) :
    us = ts.map (.moved f) := by
  induction ts generalizing us with
  | nil => simpa using h.symm
  | cons t ts ih =>
    cases us with
    | nil => cases h
    | cons u us =>
      obtain ⟨hu, hus⟩ := List.cons.inj hf
      obtain ⟨hk, hks⟩ := List.cons.inj h
      have ht : u = t.moved f := by
        cases u
        simp only [Token.moved] at *
        rw [hk, hu]
      rw [List.map_cons, ← ih hus hks, ht]

theorem map_moved_tokenPlace (f : Location → Location) (ts : List Token) :
    ts.map (Token.moved (f ∘ tokenPlace ts)) = ts.map (Token.moved f) := by
  refine List.map_congr_left fun t ht => ?_
  have hmem : t.location ∈ ts.map (·.location) := List.mem_map_of_mem ht
  rw [Token.moved, Function.comp_apply, tokenPlace, if_pos hmem, Token.moved]

theorem exists_tokenPlace_eq (h : ts ≠ []) (l : Location) :
    ∃ t ∈ ts, tokenPlace ts l = t.location := by
  unfold tokenPlace
  split
  next hl =>
    obtain ⟨t, ht, rfl⟩ := List.mem_map.mp hl
    exact ⟨t, ht, rfl⟩
  next =>
    cases ts with
    | nil => exact absurd rfl h
    | cons t ts => exact ⟨t, List.mem_cons_self, rfl⟩

theorem closed_tokens (cs : List Char) : Closed (Scan.ofText cs).tokens :=
  ⟨⟨.endOfInput, Location.start.after cs⟩, by simp [Scan.ofText], rfl⟩

theorem nodup_locations (cs : List Char) : ((Scan.ofText cs).tokens.map (·.location)).Nodup := by
  refine List.pairwise_map.mpr ((Scan.pairwise_before_tokens cs).imp ?_)
  intro t u h heq
  exact Location.not_before_self u.location (heq ▸ h)

theorem SyntaxError.found_mem {e : SyntaxError} (hts : Closed ts)
    (h : Program.ofTokens ts = .error e) : e.found ∈ ts := by
  obtain ⟨c, hc⟩ := Phrase.exists_cursor_of_ofTokens h
  obtain ⟨us, t, rest, heq, _, rfl, _⟩ := Phrase.exists_runs_of_readProgram hc
  rw [closeTokens_of_closed hts] at heq
  rw [heq]
  simp

end Counterparts

/-- Two diagnostics of the same rule, on the line of a token and on that of its counterpart. -/
structure SameReport (f : Location → Location) (ts : List Token) (d d' : Diagnostic) : Prop where
  violation : d.violation = d'.violation
  line : ∃ t ∈ ts, d.line = t.location.line ∧ d'.line = (f t.location).line

/-- The outcomes of two analyses are the same error at a token and at its counterpart, or the same
program, outline, reports and bindings. -/
inductive Corresponds (f : Location → Location) (ts : List Token) :
    Except SyntaxError CheckedProgram → Except SyntaxError CheckedProgram → Prop
  | error {x t} : t ∈ ts → Corresponds f ts (.error ⟨x, t⟩) (.error ⟨x, t.moved f⟩)
  | program {p fs fs'} : Program.outlineText p = Program.outlineText (Program.moved f p) →
      List.Forall₂ (SameReport f ts) fs.diagnostics fs'.diagnostics → fs.bindings = fs'.bindings →
      Corresponds f ts (.ok ⟨p, fs⟩) (.ok ⟨Program.moved f p, fs'⟩)

namespace Analysis

variable {f : Location → Location} {ts : List Token} {cs ds : List Char}

/-- Every place in the tree of a program is that of a token, since the tree stays as it is when all
other places are moved. So the lines of the diagnostics are lines of tokens. -/
theorem findings_sameReport {p : Program} (hts : Closed ts) (hp : Program.ofTokens ts = .ok p) :
    List.Forall₂ (SameReport f ts) (Program.findings p).diagnostics
        (Program.findings (Program.moved f p)).diagnostics ∧
      (Program.findings p).bindings = (Program.findings (Program.moved f p)).bindings := by
  have hmoved (g : Location → Location) :
      Program.ofTokens (ts.map (.moved g)) = .ok (Program.moved g p) := by
    rw [Program.ofTokens_map_moved g hts, hp]
    rfl
  have hself : Program.moved (tokenPlace ts) p = p := by
    have hid : ts.map (.moved (tokenPlace ts)) = ts := by
      have h := map_moved_tokenPlace id ts
      rw [Function.id_comp] at h
      rw [h]
      exact List.map_id ts
    have h := hmoved (tokenPlace ts)
    rw [hid, hp] at h
    exact (Except.ok.inj h).symm
  have hother : Program.moved (f ∘ tokenPlace ts) p = Program.moved f p := by
    have h := hmoved (f ∘ tokenPlace ts)
    rw [map_moved_tokenPlace, hmoved f] at h
    exact (Except.ok.inj h).symm
  have hL (l : Location) : ∃ t ∈ ts, (tokenPlace ts l).line = t.location.line ∧
      ((f ∘ tokenPlace ts) l).line = (f t.location).line := by
    obtain ⟨t, ht, hl⟩ := exists_tokenPlace_eq hts.ne_nil l
    exact ⟨t, ht, by rw [hl], by rw [Function.comp_apply, hl]⟩
  obtain ⟨hd, hb⟩ := Program.findings_moved (L := fun m n => ∃ t ∈ ts,
    m = t.location.line ∧ n = (f t.location).line) hL p
  rw [hself, hother] at hd hb
  exact ⟨hd.imp fun _ _ h => ⟨h.2, h.1⟩, hb⟩

/-- Texts with the same kinds of tokens have outcomes that correspond under every map that sends the
place of each token of the one to that of its counterpart in the other, and there is such a map. -/
theorem ofText_corresponds
    (h : (Scan.ofText cs).tokens.map (·.kind) = (Scan.ofText ds).tokens.map (·.kind)) :
    Realigns (counterpart (Scan.ofText cs).tokens (Scan.ofText ds).tokens)
        (Scan.ofText cs).tokens (Scan.ofText ds).tokens ∧
      ∀ f, Realigns f (Scan.ofText cs).tokens (Scan.ofText ds).tokens →
        Corresponds f (Scan.ofText cs).tokens (ofText cs).outcome (ofText ds).outcome := by
  refine ⟨realigns_counterpart h (nodup_locations cs), fun f hf => ?_⟩
  have hts := closed_tokens cs
  have hds : Program.ofText ds =
      ((Program.ofText cs).map (Program.moved f)).mapError (SyntaxError.moved f) := by
    rw [Program.ofText, hf.eq_map_moved h, Program.ofTokens_map_moved f hts, Program.ofText]
  simp only [ofText, hds]
  cases hp : Program.ofText cs with
  | error e => exact .error (SyntaxError.found_mem hts hp)
  | ok p =>
    obtain ⟨hd, hb⟩ := findings_sameReport (f := f) hts hp
    exact .program (Program.outlineText_moved p).symm hd hb

def narrowText : List Char := "print x;print y;".toList

def wideText : List Char := "print\n  x; # first\nprint y\n;".toList

theorem corresponds_wideText :
    (Scan.ofText narrowText).tokens.map (·.kind) = (Scan.ofText wideText).tokens.map (·.kind) ∧
      ∃ f, Realigns f (Scan.ofText narrowText).tokens (Scan.ofText wideText).tokens ∧
        Corresponds f (Scan.ofText narrowText).tokens (ofText narrowText).outcome
          (ofText wideText).outcome := by
  have h : (Scan.ofText narrowText).tokens.map (·.kind) =
      (Scan.ofText wideText).tokens.map (·.kind) := by decide +kernel
  obtain ⟨hf, hcorresponds⟩ := ofText_corresponds h
  exact ⟨h, _, hf, hcorresponds _ hf⟩

end Analysis

end MatrixLang
