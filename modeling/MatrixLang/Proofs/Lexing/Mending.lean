import Mathlib.Data.List.Forall2
import MatrixLang.Analysis
import MatrixLang.Proofs.Lexing.Account
import MatrixLang.Proofs.Lexing.Unique

/-! # Skipped characters

A character that is skipped is worth a space. With spaces in place of all of them a text is cut at
the same places into the same lexemes, so nothing is lost but the errors for these characters.
-/

namespace MatrixLang

/-- The fault is that a character was skipped. -/
def LexicalFault.isSkip : LexicalFault → Bool
  | .illegalCharacter _ | .unterminatedString => true
  | .integerOutOfRange _ => false

/-- The places where characters were skipped. -/
def Scan.skips (s : Scan) : List Location :=
  (s.errors.filter (·.fault.isSkip)).map (·.location)

/-- The text `cs` from the place `l` on, with a space at each of the places `ls`. -/
def blankAt (ls : List Location) : Location → List Char → List Char
  | _, [] => []
  | l, c :: cs => (if l ∈ ls then ' ' else c) :: blankAt ls (l.next c) cs

/-- A text with a space in place of each character that is skipped in it. -/
def mended (cs : List Char) : List Char := blankAt (Scan.ofText cs).skips .start cs

def Piece.mended : Piece → Piece
  | .skipped _ => .blank ' '
  | p => p

section Cutting

open Piece PlacedPiece

variable {c : Char} {us vs cs ds : List Char} {k : Kind} {p : Piece} {ps : List Piece}

/-- A character, or a space in its place unless it breaks the line. -/
def Blanked (c d : Char) : Prop := d = c ∨ d = ' ' ∧ c ≠ '\n'

theorem Blanked.refl_list (cs : List Char) : List.Forall₂ Blanked cs cs :=
  List.forall₂_same.mpr fun _ _ => .inl rfl

theorem prefix_or_mem_of_blanked (h : List.Forall₂ Blanked cs ds) (hv : vs <+: ds) :
    vs <+: cs ∨ ' ' ∈ vs := by
  induction h generalizing vs with
  | nil => exact .inl hv
  | @cons c d cs ds hd _ ih =>
    cases vs with
    | nil => exact .inl List.nil_prefix
    | cons v vs =>
      obtain ⟨rfl, hvs⟩ := List.cons_prefix_cons.mp hv
      rcases hd with rfl | ⟨rfl, _⟩
      · rcases ih hvs with h | h
        · exact .inl (List.cons_prefix_cons.mpr ⟨rfl, h⟩)
        · exact .inr (List.mem_cons_of_mem v h)
      · exact .inr List.mem_cons_self

theorem Location.after_blanked (l : Location) (h : List.Forall₂ Blanked cs ds) :
    l.after ds = l.after cs := by
  induction h generalizing l with
  | nil => rfl
  | @cons c d cs ds hd _ ih =>
    have hn : l.next d = l.next c := by
      rcases hd with rfl | ⟨rfl, hc⟩
      · rfl
      · simp [next, hc]
    rw [after_cons, after_cons, hn, ih]

theorem Exponent.space_not_mem {es : List Char} {x : Int} (h : Exponent es x) : ' ' ∉ es := by
  have hd {us : List Char} (h : IsNumeral us) : ' ' ∉ us := fun hm => by simpa using h.2 ' ' hm
  cases h with
  | missing => exact List.not_mem_nil
  | unsigned he h => rcases he with rfl | rfl <;> simp [hd h]
  | positive he h => rcases he with rfl | rfl <;> simp [hd h]
  | negative he h => rcases he with rfl | rfl <;> simp [hd h]

theorem Opening.eq_quote_of_mem (h : Opening c us) (hs : ' ' ∈ us) : c = '"' := by
  have hdigits {us : List Char} (h : ∀ u ∈ us, u.isDigit = true) : ' ' ∉ us := fun hm => by
    simpa using h ' ' hm
  cases h with
  | numeral _ h => exact absurd hs fun hm => hdigits h.2 (List.mem_cons_of_mem c hm)
  | @float _ _ ds fs es _ _ heq hd hf he =>
    have hm : ' ' ∈ ds ++ '.' :: (fs ++ es) := heq ▸ List.mem_cons_of_mem c hs
    simp [hdigits hd, hdigits hf, he.space_not_mem] at hm
  | fraction hf he => simp [hdigits hf.2, he.space_not_mem] at hs
  | string => rfl
  | word _ h => exact absurd (h ' ' hs) (by decide)
  | single => simp at hs
  | pair hm =>
    obtain rfl := List.mem_singleton.mp hs
    unfold pairSymbol? at hm
    split at hm <;> simp_all

/-- Whatever a lexeme could go on with has no space in it. -/
theorem Lexeme.space_not_mem_of_append {k' : Kind} {ws : List Char} (h : Lexeme k us)
    (h' : Lexeme k' (us ++ ws)) : ' ' ∉ ws := by
  intro hw
  obtain ⟨c, us, rfl, ho⟩ := h.opening
  obtain ⟨d, vs, hdv, ho'⟩ := h'.opening
  obtain ⟨rfl, rfl⟩ := List.cons.inj hdv
  obtain rfl := ho'.eq_quote_of_mem (List.mem_append_right us hw)
  have hus := (ho.eq_of_quoted (List.prefix_append us ws)).1
  have hvs := (ho'.eq_of_quoted List.prefix_rfl).1
  obtain rfl := List.append_right_eq_self.mp (hvs.trans hus.symm)
  cases hw

/-- With spaces behind it a lexeme is as long as before. -/
theorem LongestLexeme.blanked (h : LongestLexeme k us (us ++ cs))
    (hd : List.Forall₂ Blanked cs ds) : LongestLexeme k us (us ++ ds) := by
  refine ⟨h.lexeme, List.prefix_append us ds, fun k' vs hv hp => ?_⟩
  by_contra hlt
  rw [Nat.not_le] at hlt
  obtain ⟨ws, rfl⟩ := List.prefix_of_prefix_length_le (List.prefix_append us ds) hp hlt.le
  rcases prefix_or_mem_of_blanked hd ((List.prefix_append_right_inj us).mp hp) with hw | hw
  · exact Nat.not_le.mpr hlt (h.longest k' _ hv ((List.prefix_append_right_inj us).mpr hw))
  · exact h.lexeme.space_not_mem_of_append hv hw

theorem Cut.blanked_text (h : Cut cs p) : List.Forall₂ Blanked p.text p.mended.text := by
  cases h with
  | blank | comment | lexeme => exact Blanked.refl_list _
  | skipped hc => exact .cons (.inr ⟨rfl, fun h => hc (by simp [h])⟩) .nil

/-- A piece is cut off in front of spaces as before, and a space in place of a skipped character. -/
theorem Cut.blanked (h : Cut (p.text ++ cs) p) (hd : List.Forall₂ Blanked cs ds) :
    Cut (p.mended.text ++ ds) p.mended := by
  generalize ht : p.text ++ cs = ts at h
  cases h with
  | blank hc => exact .blank hc
  | @comment us vs hn hvs =>
    obtain rfl : cs = vs := List.append_cancel_left ht
    refine .comment hn fun d hdm => ?_
    cases hd with
    | nil => cases hdm
    | @cons c e cs ds he =>
      obtain rfl : e = d := Option.some.inj hdm
      obtain rfl := hvs c rfl
      rcases he with rfl | ⟨_, hc⟩
      · rfl
      · exact absurd rfl hc
  | lexeme hl => exact .lexeme ((ht ▸ hl).blanked hd)
  | skipped => exact .blank (by decide)

theorem Cuts.mended (h : Cuts cs ps) :
    Cuts ((ps.map Piece.mended).flatMap text) (ps.map Piece.mended) ∧
      List.Forall₂ Blanked cs ((ps.map Piece.mended).flatMap text) := by
  induction h with
  | nil => exact ⟨.nil, .nil⟩
  | cons hp _ ih =>
    rw [List.map_cons, List.flatMap_cons]
    exact ⟨.cons (hp.blanked ih.2) ih.1, List.rel_append hp.blanked_text ih.2⟩

theorem Cuts.place_mended (h : Cuts cs ps) (l : Location) :
    place l (ps.map Piece.mended) =
      (place l ps).map fun q => ⟨q.piece.mended, q.location⟩ := by
  induction h generalizing l with
  | nil => rfl
  | @cons p cs ps hp _ ih =>
    rw [List.map_cons, place, place, List.map_cons, l.after_blanked hp.blanked_text, ih]

end Cutting

section Places

open Piece PlacedPiece

variable {cs ds : List Char} {ls : List Location} {l m : Location} {p : Piece} {ps : List Piece}

theorem blankAt_append (l : Location) (cs ds : List Char) :
    blankAt ls l (cs ++ ds) = blankAt ls l cs ++ blankAt ls (l.after cs) ds := by
  induction cs generalizing l with
  | nil => rfl
  | cons c cs ih =>
    rw [List.cons_append, blankAt, blankAt, ih, Location.after_cons, List.cons_append]

theorem blankAt_eq_self (h : ∀ us, us <+: cs → us ≠ cs → l.after us ∉ ls) :
    blankAt ls l cs = cs := by
  induction cs generalizing l with
  | nil => rfl
  | cons c cs ih =>
    have hl : l ∉ ls := h [] List.nil_prefix nofun
    have hcs : ∀ us, us <+: cs → us ≠ cs → (l.next c).after us ∉ ls := fun us hp hn =>
      h (c :: us) (List.cons_prefix_cons.mpr ⟨rfl, hp⟩) fun h => hn (List.cons.inj h).2
    rw [blankAt, if_neg hl, ih hcs]

/-- From the place `l` on, where the pieces `ps` lie, the places `ls` are those of skipped
pieces. -/
structure SkipsAt (ls : List Location) (l : Location) (ps : List Piece) : Prop where
  of_mem : ∀ m ∈ ls, m.Before l ∨
    ∃ q ∈ place l ps, (∃ c, q.piece = .skipped c) ∧ q.location = m
  mem : ∀ q ∈ place l ps, ∀ c, q.piece = .skipped c → q.location ∈ ls

theorem SkipsAt.tail (h : SkipsAt ls l (p :: ps)) (hp : p.text ≠ []) :
    SkipsAt ls (l.after p.text) ps where
  of_mem m hm := by
    have hl := l.before_after hp
    rcases h.of_mem m hm with h | ⟨q, hq, hc, rfl⟩
    · exact .inl (h.trans hl)
    · rcases List.mem_cons.mp hq with rfl | hq
      · exact .inl hl
      · exact .inr ⟨q, hq, hc, rfl⟩
  mem q hq := h.mem q (List.mem_cons_of_mem _ hq)

/-- Inside of a piece that is not skipped there is none of the places. -/
theorem SkipsAt.not_mem {us : List Char} (h : SkipsAt ls l (p :: ps)) (hp : ∀ q ∈ ps, q.text ≠ [])
    (hskip : ¬ ∃ c, p = .skipped c) (hus : us <+: p.text) (hne : us ≠ p.text) :
    l.after us ∉ ls := by
  intro hmem
  obtain ⟨vs, hvs⟩ := hus
  have hend : (l.after us).Before (l.after p.text) := by
    rw [← hvs, Location.after_append]
    refine Location.before_after _ ?_
    rintro rfl
    exact hne (by simpa using hvs)
  rcases h.of_mem _ hmem with h | ⟨q, hq, hc, hloc⟩
  · by_cases hus : us = []
    · rw [hus] at h
      exact Location.not_before_self l h
    · exact Location.not_before_self l ((l.before_after hus).trans h)
  · rcases List.mem_cons.mp hq with rfl | hq
    · exact hskip hc
    · rw [← hloc] at hend
      rcases before_of_mem_place hp hq with h | h
      · exact Location.not_before_self _ (h ▸ hend)
      · exact Location.not_before_self _ (h.trans hend)

/-- Spaces at the places of the skipped pieces mend the text that the pieces make up. -/
theorem blankAt_flatMap_text (hp : ∀ p ∈ ps, p.text ≠ []) (h : SkipsAt ls l ps) :
    blankAt ls l (ps.flatMap text) = (ps.map Piece.mended).flatMap text := by
  induction ps generalizing l with
  | nil => rfl
  | cons p ps ih =>
    rw [List.forall_mem_cons] at hp
    have hhead : blankAt ls l p.text = p.mended.text := by
      by_cases hskip : ∃ c, p = .skipped c
      · obtain ⟨c, rfl⟩ := hskip
        have hmem : l ∈ ls := h.mem _ List.mem_cons_self c rfl
        simp only [text, blankAt, if_pos hmem, Piece.mended]
      · have hself : p.mended = p := by
          cases p with
          | skipped c => exact absurd ⟨c, rfl⟩ hskip
          | _ => rfl
        rw [hself]
        exact blankAt_eq_self fun us hus hne => h.not_mem hp.2 hskip hus hne
    rw [List.flatMap_cons, blankAt_append, hhead, ih hp.2 (h.tail hp.1), List.map_cons,
      List.flatMap_cons]

theorem LexicalFault.isSkip_iff {f : LexicalFault} (h : Faulty p f) :
    f.isSkip = true ↔ ∃ c, p = .skipped c := by
  cases h <;> simp [isSkip]

theorem Scan.mem_skips_iff :
    m ∈ (Scan.ofText cs).skips ↔
      ∃ q ∈ place .start (Piece.ofText cs), (∃ c, q.piece = .skipped c) ∧ q.location = m := by
  simp only [skips, ofText, List.mem_map, List.mem_filter, List.mem_filterMap]
  constructor
  · rintro ⟨e, ⟨⟨q, hq, he⟩, hs⟩, rfl⟩
    obtain ⟨f, hf, rfl⟩ := Option.map_eq_some_iff.mp he
    have hf := LexicalFault.ofPiece?_eq_some_iff.mp hf
    exact ⟨q, hq, (LexicalFault.isSkip_iff hf).mp hs, rfl⟩
  · rintro ⟨q, hq, ⟨c, hc⟩, rfl⟩
    obtain ⟨f, hf⟩ : ∃ f, LexicalFault.ofPiece? q.piece = some f := by
      rw [hc]
      exact ⟨_, rfl⟩
    have hs := (LexicalFault.isSkip_iff (LexicalFault.ofPiece?_eq_some_iff.mp hf)).mpr ⟨c, hc⟩
    exact ⟨⟨f, q.location⟩, ⟨⟨q, hq, by rw [error?, hf]; rfl⟩, hs⟩, rfl⟩

theorem mended_eq (cs : List Char) :
    mended cs = ((Piece.ofText cs).map Piece.mended).flatMap text := by
  have hskips : SkipsAt (Scan.ofText cs).skips .start (Piece.ofText cs) :=
    { of_mem := fun m hm => .inr (Scan.mem_skips_iff.mp hm)
      mem := fun q hq c hc => Scan.mem_skips_iff.mpr ⟨q, hq, ⟨c, hc⟩, rfl⟩ }
  have h := blankAt_flatMap_text (fun p => text_ne_nil_of_mem) hskips
  rwa [flatMap_text_ofText] at h

end Places

section Mended

open Piece PlacedPiece

theorem Piece.ofText_mended (cs : List Char) :
    ofText (MatrixLang.mended cs) = (ofText cs).map mended := by
  rw [mended_eq]
  exact (cuts_iff.mp (cuts_ofText cs).mended.1).symm

theorem Piece.kind?_mended (p : Piece) : p.mended.kind? = p.kind? := by
  cases p <;> rfl

theorem LexicalFault.ofPiece?_mended (p : Piece) :
    ofPiece? p.mended = (ofPiece? p).filter (! ·.isSkip) := by
  cases h : ofPiece? p with
  | none =>
    cases p with
    | skipped c => simp [ofPiece?] at h
    | _ => exact h
  | some f =>
    cases ofPiece?_eq_some_iff.mp h with
    | quote | character => rfl
    | integer => exact h

theorem PlacedPiece.error?_mended (q : PlacedPiece) :
    error? ⟨q.piece.mended, q.location⟩ = q.error?.filter (! ·.fault.isSkip) := by
  simp only [error?, LexicalFault.ofPiece?_mended]
  cases LexicalFault.ofPiece? q.piece with
  | none => rfl
  | some f => cases hf : f.isSkip <;> simp [Option.filter, hf]

theorem Scan.tokens_mended (cs : List Char) :
    (ofText (mended cs)).tokens = (ofText cs).tokens := by
  have hplace := (cuts_ofText cs).place_mended .start
  have hend : Location.start.after (mended cs) = Location.start.after cs := by
    rw [mended_eq]
    exact Location.start.after_blanked (cuts_ofText cs).mended.2
  simp only [ofText, Piece.ofText_mended, hplace, hend, List.filterMap_map, Function.comp_def,
    token?, Piece.kind?_mended]

theorem Scan.errors_mended (cs : List Char) :
    (ofText (mended cs)).errors = (ofText cs).errors.filter (! ·.fault.isSkip) := by
  have hplace := (cuts_ofText cs).place_mended .start
  simp only [ofText, Piece.ofText_mended, hplace, List.filterMap_map, Function.comp_def,
    error?_mended, List.filter_filterMap]

/-- A skipped character is worth a space. With spaces in their places a text has the tokens that it
had, at the same places, only the errors for integers out of range remain, and the outcome of the
analysis is the same. -/
theorem Analysis.mended_agrees (cs : List Char) :
    (Scan.ofText (mended cs)).tokens = (Scan.ofText cs).tokens ∧
      (ofText (mended cs)).lexicalErrors =
        (ofText cs).lexicalErrors.filter (! ·.fault.isSkip) ∧
      (∀ e ∈ (ofText (mended cs)).lexicalErrors, ∃ digits, e.fault = .integerOutOfRange digits) ∧
      (ofText (mended cs)).outcome = (ofText cs).outcome := by
  have htokens := Scan.tokens_mended cs
  have herrors : (ofText (mended cs)).lexicalErrors = _ := Scan.errors_mended cs
  refine ⟨htokens, herrors, fun e he => ?_, ?_⟩
  · have hs := (List.mem_filter.mp (herrors ▸ he)).2
    cases hf : e.fault with
    | integerOutOfRange digits => exact ⟨digits, rfl⟩
    | illegalCharacter | unterminatedString => simp [hf, LexicalFault.isSkip] at hs
  · simp only [ofText, Program.ofText, htokens]

end Mended

end MatrixLang
