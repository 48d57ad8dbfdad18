import MatrixLang.Token.Piece

/-! # The pieces cover the text

Each piece is a prefix of what it was cut from, and starts with its first character. So the pieces
of a text, put together again, are the text.
-/

namespace MatrixLang.Piece

theorem prefix_leadingSign (cs : List Char) : leadingSign cs <+: cs := by
  unfold leadingSign
  split <;> simp

theorem append_prefix_of_drop {as bs cs : List Char} (h : as <+: cs)
    (h' : bs <+: cs.drop as.length) : as ++ bs <+: cs := by
  obtain ⟨ds, rfl⟩ := h
  simpa using h'

theorem prefix_leadingExponent (cs : List Char) : leadingExponent cs <+: cs := by
  cases cs with
  | nil => simp [leadingExponent]
  | cons c cs =>
    simp only [leadingExponent]
    split
    · exact List.cons_prefix_cons.2
        ⟨rfl, append_prefix_of_drop (prefix_leadingSign cs) (List.takeWhile_prefix _)⟩
    · simp

theorem drop_takeWhile (p : Char → Bool) (cs : List Char) :
    cs.drop (cs.takeWhile p).length = cs.dropWhile p := by
  induction cs with
  | nil => rfl
  | cons c cs ih => by_cases h : p c <;> simp [h, ih]

theorem prefix_fraction (rest : List Char) :
    rest.takeWhile Char.isDigit ++ leadingExponent (rest.dropWhile Char.isDigit) <+: rest := by
  refine append_prefix_of_drop (List.takeWhile_prefix _) ?_
  rw [drop_takeWhile]
  exact prefix_leadingExponent _

theorem text_first (c : Char) (rest : List Char) :
    ∃ ds, (first c rest).text = c :: ds ∧ ds <+: rest := by
  unfold first
  split
  · exact ⟨[], rfl, List.nil_prefix⟩
  split
  · exact ⟨_, rfl, List.takeWhile_prefix _⟩
  split
  next h =>
    subst h
    simp only [string]
    split
    next tail h =>
      exact ⟨_, rfl, append_prefix_of_drop (List.takeWhile_prefix _) (by simp [h])⟩
    · exact ⟨[], rfl, List.nil_prefix⟩
  split
  · simp only [number]
    split
    next more h =>
      refine ⟨_, by simp [float, text]; rfl, append_prefix_of_drop (List.takeWhile_prefix _) ?_⟩
      rw [drop_takeWhile, h]
      exact List.cons_prefix_cons.2 ⟨rfl, prefix_fraction more⟩
    · exact ⟨_, rfl, List.takeWhile_prefix _⟩
  split
  next h =>
    rw [h.1]
    exact ⟨_, by simp [float, text], prefix_fraction rest⟩
  split
  · simp only [word]
    split <;> exact ⟨_, rfl, List.takeWhile_prefix _⟩
  · simp only [symbol]
    split
    · exact ⟨_, rfl, List.take_prefix 1 rest⟩
    · split <;> exact ⟨[], rfl, List.nil_prefix⟩

theorem text_first_append (c : Char) (rest : List Char) :
    (first c rest).text ++ restAfterFirst c rest = c :: rest := by
  obtain ⟨ds, h, es, rfl⟩ := text_first c rest
  simp [restAfterFirst, h]

/-- Put together again, the pieces of a text are the text. -/
theorem flatMap_text_ofText (cs : List Char) : (ofText cs).flatMap text = cs := by
  fun_induction ofText cs with
  | case1 => rfl
  | case2 c rest ih => rw [List.flatMap_cons, ih, text_first_append]

end MatrixLang.Piece
