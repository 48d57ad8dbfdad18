import MatrixLang.Proofs.Lexing.Placement

/-! # Line breaks

No lexeme and no comment goes past a line break, and each scanner stops at one as it stops at the
end of the text. So a text is cut line by line: what stands on the lines in front of a line break
does not change how the lines behind it are cut.
-/

namespace MatrixLang

namespace Piece

section Scanning

variable {p : Char → Bool} {c : Char} {cs : List Char}

theorem takeWhile_append_lineBreak (h : p '\n' = false) (cs t : List Char) :
    (cs ++ '\n' :: t).takeWhile p = cs.takeWhile p := by
  induction cs with
  | nil => simp [h]
  | cons c cs ih => by_cases hc : p c <;> simp [hc, ih]

theorem dropWhile_append_lineBreak (h : p '\n' = false) (cs t : List Char) :
    (cs ++ '\n' :: t).dropWhile p = cs.dropWhile p ++ '\n' :: t := by
  induction cs with
  | nil => simp [h]
  | cons c cs ih => by_cases hc : p c <;> simp [hc, ih]

theorem leadingSign_append_lineBreak (cs t : List Char) :
    leadingSign (cs ++ '\n' :: t) = leadingSign cs := by
  cases cs with
  | nil => rfl
  | cons c cs =>
    rw [List.cons_append]
    unfold leadingSign
    split <;> simp_all

theorem leadingExponent_append_lineBreak (cs t : List Char) :
    leadingExponent (cs ++ '\n' :: t) = leadingExponent cs := by
  cases cs with
  | nil => simp [leadingExponent]
  | cons c cs =>
    simp only [List.cons_append, leadingExponent, leadingSign_append_lineBreak]
    rw [List.drop_append_of_le_length (prefix_leadingSign cs).length_le,
      takeWhile_append_lineBreak rfl]

theorem float_append_lineBreak (whole rest t : List Char) :
    float whole (rest ++ '\n' :: t) = float whole rest := by
  simp only [float, takeWhile_append_lineBreak (p := Char.isDigit) rfl,
    dropWhile_append_lineBreak (p := Char.isDigit) rfl,
    leadingExponent_append_lineBreak]

theorem number_append_lineBreak (c : Char) (rest t : List Char) :
    number c (rest ++ '\n' :: t) = number c rest := by
  simp only [number, takeWhile_append_lineBreak (p := Char.isDigit) rfl,
    dropWhile_append_lineBreak (p := Char.isDigit) rfl]
  cases rest.dropWhile Char.isDigit with
  | nil => rfl
  | cons d more =>
    by_cases hd : d = '.'
    · subst hd
      exact float_append_lineBreak _ more t
    · simp [hd]

theorem word_append_lineBreak (c : Char) (rest t : List Char) :
    word c (rest ++ '\n' :: t) = word c rest := by
  simp only [word, takeWhile_append_lineBreak (p := continuesName) rfl]

theorem string_append_lineBreak (rest t : List Char) :
    string (rest ++ '\n' :: t) = string rest := by
  have hi := takeWhile_append_lineBreak (p := fun c => c != '"' && c != '\n') rfl rest t
  simp only [string, hi]
  rw [List.drop_append_of_le_length (List.takeWhile_prefix _).length_le]
  cases rest.drop _ with
  | nil => rfl
  | cons d more =>
    by_cases hd : d = '"'
    · subst hd
      rfl
    · simp [hd]

theorem pairSymbol?_lineBreak (c : Char) : pairSymbol? c '\n' = none := by
  unfold pairSymbol?
  split <;> simp_all

theorem symbol_append_lineBreak (c : Char) (rest t : List Char) :
    symbol c (rest ++ '\n' :: t) = symbol c rest := by
  cases rest with
  | nil => simp [symbol, pairSymbol?_lineBreak]
  | cons d rest => simp [symbol]

theorem startsWithDigit_append_lineBreak (rest t : List Char) :
    startsWithDigit (rest ++ '\n' :: t) = startsWithDigit rest := by
  cases rest with
  | nil => rfl
  | cons d rest => rfl

/-- What stands behind a line break has no part in the first piece in front of it. -/
theorem first_append_lineBreak (c : Char) (rest t : List Char) :
    first c (rest ++ '\n' :: t) = first c rest := by
  have hc := takeWhile_append_lineBreak (p := (· != '\n')) rfl rest t
  simp only [first, string_append_lineBreak, number_append_lineBreak, float_append_lineBreak,
    word_append_lineBreak, symbol_append_lineBreak, startsWithDigit_append_lineBreak, hc]

theorem restAfterFirst_append_lineBreak (c : Char) (rest t : List Char) :
    restAfterFirst c (rest ++ '\n' :: t) = restAfterFirst c rest ++ '\n' :: t := by
  obtain ⟨ds, h, hd⟩ := text_first c rest
  rw [restAfterFirst, restAfterFirst, first_append_lineBreak, h]
  exact List.drop_append_of_le_length (by simpa using hd.length_le)

end Scanning

theorem ofText_append_lineBreak (s t : List Char) :
    ofText (s ++ '\n' :: t) = ofText s ++ .blank '\n' :: ofText t := by
  fun_induction ofText s with
  | case1 => rw [List.nil_append, ofText]; rfl
  | case2 c rest ih =>
    rw [List.cons_append, ofText, first_append_lineBreak, restAfterFirst_append_lineBreak, ih,
      List.cons_append]

end Piece

def Token.below (n : Nat) (t : Token) : Token := ⟨t.kind, t.location.below n⟩

def LexicalError.below (n : Nat) (e : LexicalError) : LexicalError := ⟨e.fault, e.location.below n⟩

namespace Scan

open PlacedPiece

theorem token?_below (n : Nat) (q : PlacedPiece) :
    (q.below n).token? = q.token?.map (Token.below n) := by
  simp only [token?, below, Option.map_map]
  rfl

theorem error?_below (n : Nat) (q : PlacedPiece) :
    (q.below n).error? = q.error?.map (LexicalError.below n) := by
  simp only [error?, below, Option.map_map]
  rfl

theorem place_append_lineBreak (s t : List Char) :
    place .start (Piece.ofText (s ++ '\n' :: t)) = place .start (Piece.ofText s) ++
      ⟨.blank '\n', .behind s⟩ ::
        (place .start (Piece.ofText t)).map (below (1 + s.count '\n')) := by
  rw [Piece.ofText_append_lineBreak, place_append, Piece.flatMap_text_ofText,
    Location.after_start, place]
  simp only [Piece.text, Location.after_behind, Location.behind_lineBreak, place_below]

/-- What is read off the pieces one by one, and off a line break not at all. -/
theorem filterMap_place_append_lineBreak {α : Type} {f : PlacedPiece → Option α}
    {g : Nat → α → α} (hb : ∀ l, f ⟨.blank '\n', l⟩ = none)
    (hg : ∀ n q, f (q.below n) = (f q).map (g n)) (s t : List Char) :
    (place .start (Piece.ofText (s ++ '\n' :: t))).filterMap f =
      (place .start (Piece.ofText s)).filterMap f ++
        ((place .start (Piece.ofText t)).filterMap f).map (g (1 + s.count '\n')) := by
  have hf : f ∘ below (1 + s.count '\n') = fun q => (f q).map (g (1 + s.count '\n')) :=
    funext (hg _)
  rw [place_append_lineBreak, List.filterMap_append, List.filterMap_cons, hb, List.filterMap_map,
    hf, List.map_filterMap]

theorem after_start_append_lineBreak (s t : List Char) :
    Location.start.after (s ++ '\n' :: t) =
      (Location.start.after t).below (1 + s.count '\n') := by
  rw [Location.after_append, Location.after_cons, Location.after_start, Location.next_behind,
    Location.behind_lineBreak, Location.after_below]

/-- The tokens of two texts with a line break between them are those of the first without its end of
input and those of the second, so many lines further down, and the errors likewise. -/
theorem tokens_append_lineBreak (s t : List Char) :
    ∃ ts l, (ofText s).tokens = ts ++ [⟨.endOfInput, l⟩] ∧
      (ofText (s ++ '\n' :: t)).tokens =
        ts ++ (ofText t).tokens.map (Token.below (1 + s.count '\n')) ∧
      (ofText (s ++ '\n' :: t)).errors =
        (ofText s).errors ++ (ofText t).errors.map (LexicalError.below (1 + s.count '\n')) := by
  have htokens := filterMap_place_append_lineBreak (fun _ => rfl) token?_below s t
  have herrors := filterMap_place_append_lineBreak (fun _ => rfl) error?_below s t
  refine ⟨_, _, rfl, ?_, herrors⟩
  simp only [ofText, htokens, after_start_append_lineBreak, List.map_append, List.append_assoc]
  rfl

end Scan

end MatrixLang
