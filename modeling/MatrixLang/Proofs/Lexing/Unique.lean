import Mathlib.Data.List.TakeWhile
import MatrixLang.Proofs.Lexing.Munch

/-! # The only cut

The characters of a lexeme tell which token they spell. So the first piece of a text is the only one
that can be cut off it, and there is one way to cut the whole text.
-/

namespace MatrixLang

open Piece

section Openings

variable {c d : Char} {us : List Char} {m : Symbol}

theorem Opening.not_mem (h : Opening c us) : c ∉ [' ', '\t', '\r', '\n', '#'] := by
  intro hc
  have hnone : c.isDigit = false ∧ startsName c = false ∧ singleSymbol? c = none ∧
      (∀ d, pairSymbol? c d = none) ∧ c ≠ '.' ∧ c ≠ '"' := by
    simp only [List.mem_cons, List.not_mem_nil, or_false] at hc
    rcases hc with rfl | rfl | rfl | rfl | rfl
    all_goals
      refine ⟨rfl, rfl, rfl, fun d => ?_, by decide, by decide⟩
      unfold pairSymbol?
      split <;> simp_all
  cases h <;> simp_all

theorem not_isBlank_of_not_mem (h : c ∉ [' ', '\t', '\r', '\n', '#']) :
    ¬ isBlank c = true ∧ c ≠ '#' := by
  constructor
  · intro hb
    exact h (List.mem_append_left ['#'] (isBlank_eq_true_iff.mp hb))
  · rintro rfl
    exact h (by simp)

theorem Opening.first_eq (h : Opening c us) (rest : List Char) :
    first c rest =
      if c = '"' then Piece.string rest
      else if c.isDigit then Piece.number c rest
      else if c = '.' ∧ startsWithDigit rest then Piece.float [] rest
      else if startsName c then Piece.word c rest
      else Piece.symbol c rest := by
  obtain ⟨hb, hc⟩ := not_isBlank_of_not_mem h.not_mem
  rw [first, if_neg hb, if_neg hc]

theorem first_of_isDigit (hc : c.isDigit = true) (rest : List Char) :
    first c rest = number c rest := by
  have ho : Opening c [] := .numeral hc ⟨List.cons_ne_nil c [], by simpa using hc⟩
  have hq : c ≠ '"' := by
    rintro rfl
    simp at hc
  rw [ho.first_eq, if_neg hq, if_pos hc]

theorem first_of_startsName (hc : startsName c = true) (rest : List Char) :
    first c rest = word c rest := by
  have ho : Opening c [] := .word hc nofun
  have hd : ¬ c.isDigit = true := fun hd => by
    simp [startsName_eq_false_of_isDigit hd] at hc
  have hq : c ≠ '"' := by
    rintro rfl
    simp [startsName] at hc
  have hp : ¬ (c = '.' ∧ startsWithDigit rest = true) := by
    rintro ⟨rfl, _⟩
    simp [startsName] at hc
  rw [ho.first_eq, if_neg hq, if_neg hd, if_neg hp, if_pos hc]

theorem first_of_singleSymbol? (h : singleSymbol? c = some m) :
    first c [] = .lexeme (.symbol m) [c] := by
  unfold singleSymbol? at h
  split at h <;> cases h <;> rfl

theorem first_of_pairSymbol? (h : pairSymbol? c d = some m) :
    first c [d] = .lexeme (.symbol m) [c, d] := by
  unfold pairSymbol? at h
  split at h <;> cases h <;> rfl

end Openings

section Exponents

variable {es fs : List Char} {x : Int}

theorem Exponent.leadingExponent_eq (h : Exponent es x) : leadingExponent es = es :=
  (prefix_leadingExponent es).eq_of_length_le (length_le_leadingExponent h List.prefix_rfl)

theorem Exponent.exponentValue?_eq (h : Exponent es x) :
    (Binary64.exponentValue? (es.drop 1)).getD 0 = x := by
  cases h with
  | missing => rfl
  | unsigned _ hd => simp [(exponentValue?_of_isNumeral hd).1]
  | positive _ hd => simp [(exponentValue?_of_isNumeral hd).2.1]
  | negative _ hd => simp [(exponentValue?_of_isNumeral hd).2.2]

theorem Exponent.digits_eq_nil (h : Exponent es x) :
    es.takeWhile Char.isDigit = [] ∧ es.dropWhile Char.isDigit = es := by
  cases h with
  | missing => exact ⟨rfl, rfl⟩
  | unsigned he | positive he | negative he => rcases he with rfl | rfl <;> exact ⟨rfl, rfl⟩

theorem float_eq (hf : ∀ f ∈ fs, f.isDigit = true) (he : Exponent es x) (whole : List Char) :
    float whole (fs ++ es) =
      .lexeme (.float (Binary64.ofDigits false whole fs x)) (whole ++ '.' :: fs ++ es) := by
  obtain ⟨ht, hd⟩ := he.digits_eq_nil
  simp only [float, List.takeWhile_append_of_pos hf, List.dropWhile_append_of_pos hf, ht, hd,
    List.append_nil, he.leadingExponent_eq, he.exponentValue?_eq]

end Exponents

section Alone

variable {k k' : Kind} {us : List Char}

theorem number_of_isNumeral {c : Char} (h : IsNumeral (c :: us)) :
    number c us =
      .lexeme (.integer (min (Binary64.digitsValue (c :: us)) greatestInteger : Nat))
        (c :: us) := by
  have hd : ∀ u ∈ us, u.isDigit = true := fun u hu => h.2 u (List.mem_cons_of_mem c hu)
  have ht : us.takeWhile Char.isDigit = us := List.takeWhile_eq_self_iff.mpr hd
  have hn : us.dropWhile Char.isDigit = [] := List.dropWhile_eq_nil_iff.mpr hd
  simp only [number, ht, hn]

theorem number_of_point {c : Char} {ds fs es : List Char} {x : Int}
    (hd : ∀ d ∈ ds, d.isDigit = true) (hf : ∀ f ∈ fs, f.isDigit = true) (he : Exponent es x) :
    number c (ds ++ '.' :: (fs ++ es)) =
      .lexeme (.float (Binary64.ofDigits false (c :: ds) fs x)) (c :: ds ++ '.' :: fs ++ es) := by
  have ht : (ds ++ '.' :: (fs ++ es)).takeWhile Char.isDigit = ds := by
    simp [List.takeWhile_append_of_pos hd]
  have hn : (ds ++ '.' :: (fs ++ es)).dropWhile Char.isDigit = '.' :: (fs ++ es) := by
    simp [List.dropWhile_append_of_pos hd]
  simp only [number, ht, hn]
  exact float_eq hf he (c :: ds)

theorem string_of_closed (hq : '"' ∉ us) (hn : '\n' ∉ us) :
    string (us ++ ['"']) = .lexeme (.string (String.ofList us)) ('"' :: us ++ ['"']) := by
  have hus : ∀ u ∈ us, (u != '"' && u != '\n') = true := by
    intro u hu
    simp only [Bool.and_eq_true, bne_iff_ne]
    exact ⟨fun h => hq (h ▸ hu), fun h => hn (h ▸ hu)⟩
  have ht : (us ++ ['"']).takeWhile (fun c => c != '"' && c != '\n') = us := by
    simp [List.takeWhile_append_of_pos hus]
  simp only [string, ht, List.drop_left]

theorem Keyword.ofText?_text (w : Keyword) : Keyword.ofText? w.text = some w := by
  cases w with
  | instruction i => cases i <;> decide
  | builtin b => cases b <;> decide
  | _ => decide

theorem IsWord.exists_word_eq (h : IsWord us) :
    ∃ c vs, us = c :: vs ∧ first c vs = word c vs ∧ vs.takeWhile continuesName = vs := by
  cases h with
  | @mk c cs hc hcs =>
    refine ⟨c, cs, rfl, first_of_startsName (startsName_eq_true_iff.mpr hc) cs, ?_⟩
    exact List.takeWhile_eq_self_iff.mpr fun d hd => continuesName_eq_true_iff.mpr (hcs d hd)

/-- A text that spells a token is its own first piece. -/
theorem Lexeme.exists_first_eq (h : Lexeme k us) :
    ∃ c vs, us = c :: vs ∧ first c vs = .lexeme k us := by
  cases h with
  | integer hd hn =>
    obtain ⟨c, vs, rfl, hc⟩ := hd.exists_cons
    refine ⟨c, vs, rfl, ?_⟩
    rw [first_of_isDigit hc, number_of_isNumeral hd, hn]
  | @float ds fs es x hd hf he =>
    obtain ⟨c, ds, rfl, hc⟩ := hd.exists_cons
    refine ⟨c, ds ++ '.' :: (fs ++ es), by simp, ?_⟩
    rw [first_of_isDigit hc]
    exact number_of_point (fun d hm => hd.2 d (List.mem_cons_of_mem c hm)) hf he
  | @fraction fs es x hf he =>
    refine ⟨'.', fs ++ es, rfl, ?_⟩
    have ho : Opening '.' (fs ++ es) := .fraction hf he
    have hr : startsWithDigit (fs ++ es) = true := by
      obtain ⟨f, gs, rfl, hd⟩ := hf.exists_cons
      exact hd
    rw [ho.first_eq, if_neg (by decide), if_neg (by decide), if_pos ⟨rfl, hr⟩]
    exact float_eq hf.2 he []
  | string hq hn =>
    refine ⟨'"', _, rfl, ?_⟩
    rw [(Opening.string hq hn).first_eq, if_pos rfl]
    exact string_of_closed hq hn
  | name hw hk =>
    have hn : Keyword.ofText? (String.ofList us) = none := by
      refine List.find?_eq_none.mpr fun w _ ht => hk w ?_
      rw [beq_iff_eq] at ht
      simp [ht]
    obtain ⟨c, vs, rfl, hf, ht⟩ := hw.exists_word_eq
    exact ⟨c, vs, rfl, by rw [hf, word, ht, hn]⟩
  | @keyword w =>
    have hw : Keyword.ofText? (String.ofList w.text.toList) = some w := by
      rw [String.ofList_toList, w.ofText?_text]
    obtain ⟨c, vs, hus, hf, ht⟩ := w.isWord_text.exists_word_eq
    rw [hus] at hw ⊢
    exact ⟨c, vs, rfl, by rw [hf, word, ht, hw]⟩
  | @symbol m =>
    rcases m.text_cases with ⟨c, h, hm⟩ | ⟨c, d, h, hm⟩
    · rw [h]
      exact ⟨c, [], rfl, first_of_singleSymbol? hm⟩
    · rw [h]
      exact ⟨c, [d], rfl, first_of_pairSymbol? hm⟩

theorem Lexeme.kind_eq (h : Lexeme k us) (h' : Lexeme k' us) : k = k' := by
  obtain ⟨c, vs, rfl, hf⟩ := h.exists_first_eq
  obtain ⟨c', vs', hus, hf'⟩ := h'.exists_first_eq
  obtain ⟨rfl, rfl⟩ := List.cons.inj hus
  rw [hf] at hf'
  exact (Piece.lexeme.inj hf').1

end Alone

section Cuts

variable {k : Kind} {us vs cs : List Char} {c : Char} {p : Piece}

theorem LongestLexeme.text_eq {k' : Kind} (h : LongestLexeme k us cs)
    (h' : LongestLexeme k' vs cs) : us = vs := by
  have hl := h.longest k' vs h'.lexeme h'.prefix_text
  have hl' := h'.longest k us h.lexeme h.prefix_text
  exact (List.prefix_of_prefix_length_le h.prefix_text h'.prefix_text hl').eq_of_length_le hl

/-- What can be cut off a text is its first piece. -/
theorem Cut.eq_first (h : Cut (c :: cs) p) : p = first c cs := by
  cases h with
  | blank hc => rw [first, if_pos (isBlank_eq_true_iff.mpr hc)]
  | @comment us cs hn hcs =>
    have hus : ∀ u ∈ us, (u != '\n') = true := by
      intro u hu
      rw [bne_iff_ne]
      rintro rfl
      exact hn hu
    have ht : (us ++ cs).takeWhile (· != '\n') = us := by
      rw [List.takeWhile_append_of_pos hus]
      cases cs with
      | nil => simp
      | cons d cs => simp [hcs d rfl]
    rw [first, if_neg (by decide), if_pos rfl]
    exact congrArg (fun us => Piece.comment ('#' :: us)) ht.symm
  | @lexeme k us _ hl =>
    obtain ⟨vs, rfl, -, ho⟩ := hl.lexeme.opening_of_prefix hl.prefix_text
    obtain ⟨hb, hc⟩ := not_isBlank_of_not_mem ho.not_mem
    have hm : Munches (c :: cs) (first c cs) := munches_first hb hc
    have hp := text_first_prefix c cs
    generalize first c cs = q at hm hp
    cases hm with
    | @lexeme k' ws hk hlong =>
      obtain rfl := hl.text_eq ⟨hk, hp, hlong⟩
      rw [hl.lexeme.kind_eq hk]
    | skipped hn => exact absurd hl.prefix_text (hn k _ hl.lexeme)
  | skipped hc hn =>
    obtain ⟨hb, hc⟩ := not_isBlank_of_not_mem hc
    have hm : Munches (c :: cs) (first c cs) := munches_first hb hc
    have hp := text_first_prefix c cs
    obtain ⟨ds, ht, -⟩ := text_first c cs
    generalize first c cs = q at hm hp ht
    cases hm with
    | lexeme hk _ => exact absurd hp (hn _ _ hk)
    | skipped _ => rw [(List.cons.inj ht).1]

theorem Cut.exists_cons (h : Cut cs p) : ∃ c rest, cs = c :: rest ∧ p = first c rest := by
  cases cs with
  | nil =>
    cases h with
    | lexeme hl =>
      obtain ⟨c, vs, rfl, _⟩ := hl.lexeme.opening
      simpa using hl.prefix_text
  | cons c rest => exact ⟨c, rest, rfl, h.eq_first⟩

/-- The pieces of a text are the only ones that it can be cut into. -/
theorem cuts_iff {ps : List Piece} : Cuts cs ps ↔ ps = ofText cs := by
  constructor
  · intro h
    induction h with
    | nil => rw [ofText]
    | @cons p cs ps hp _ ih =>
      obtain ⟨c, rest, hcs, rfl⟩ := hp.exists_cons
      have hr : cs = restAfterFirst c rest :=
        List.append_cancel_left (hcs.trans (text_first_append c rest).symm)
      rw [hcs, ofText, ih, hr]
  · rintro rfl
    exact cuts_ofText cs

end Cuts

end MatrixLang
