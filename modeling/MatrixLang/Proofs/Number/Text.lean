import Mathlib.Data.List.DropRight
import MatrixLang.Binary64.Text

/-! # What the text of a number looks like

The text of a finite number that is not negative starts with a digit and has a point or an exponent.
The text of an integer has neither. A number with an exponent has a point exactly if it has more
than one digit.
-/

namespace MatrixLang

theorem isDigit_of_mem_toString {n : Nat} {c : Char} (h : c ∈ (toString n).toList) :
    c.isDigit = true := by
  rw [Nat.toString_eq_repr, Nat.toList_repr] at h
  exact Nat.isDigit_of_mem_toDigits (by decide) (by decide) h

theorem toString_nat_inj {m n : Nat} (h : toString m = toString n) : m = n := by
  rw [Nat.toString_eq_repr, Nat.toString_eq_repr, ← String.toList_inj, Nat.toList_repr,
    Nat.toList_repr] at h
  calc m = Nat.ofDigitChars 10 (Nat.toDigits 10 m) 0 := Nat.ofDigitChars_ten_toDigits.symm
    _ = Nat.ofDigitChars 10 (Nat.toDigits 10 n) 0 := by rw [h]
    _ = n := Nat.ofDigitChars_ten_toDigits

theorem toString_negSucc (n : Nat) :
    (toString (Int.negSucc n)).toList = '-' :: (toString (n + 1)).toList := by
  simp [toString, Int.repr]

theorem eq_or_isDigit_of_mem_toString {n : Int} {c : Char} (h : c ∈ (toString n).toList) :
    c = '-' ∨ c.isDigit = true := by
  cases n with
  | ofNat n => exact .inr (isDigit_of_mem_toString h)
  | negSucc n =>
    rw [toString_negSucc, List.mem_cons] at h
    exact h.imp_right isDigit_of_mem_toString

theorem lineBreak_notMem_toString (n : Int) : '\n' ∉ (toString n).toList := fun h =>
  absurd (eq_or_isDigit_of_mem_toString h) (by decide)

theorem point_notMem_toString (n : Int) : '.' ∉ (toString n).toList := fun h =>
  absurd (eq_or_isDigit_of_mem_toString h) (by decide)

namespace Binary64

variable {ds : List Char} {n s : Nat} {e q : Int}

section Digits

theorem mem_of_mem_dropTrailingZeros {c : Char} (h : c ∈ dropTrailingZeros ds) : c ∈ ds :=
  (List.rdropWhile_prefix _ ds).subset h

theorem ofDigitChars_eq_zero (h : ∀ d ∈ ds, d = '0') : Nat.ofDigitChars 10 ds 0 = 0 := by
  induction ds with
  | nil => rfl
  | cons d ds ih =>
    rw [List.forall_mem_cons] at h
    obtain ⟨rfl, h⟩ := h
    rw [Nat.ofDigitChars_cons]
    exact ih h

/-- Only zero is written with zeros alone. -/
theorem dropTrailingZeros_toDigits_ne_nil (h : n ≠ 0) :
    dropTrailingZeros (Nat.toDigits 10 n) ≠ [] := by
  intro hnil
  have hzeros : ∀ d ∈ Nat.toDigits 10 n, d = '0' := fun d hd =>
    eq_of_beq (List.rdropWhile_eq_nil_iff.mp hnil d hd)
  have hvalue := Nat.ofDigitChars_toDigits (n := n) (b := 10) (by decide) (by decide)
  exact h (hvalue.symm.trans (ofDigitChars_eq_zero hzeros))

end Digits

section Grid

theorem Interval.gridPoint?_ne_zero {i : Interval} (hi : 0 < i.low) (h : i.gridPoint? = some n) :
    n ≠ 0 := by
  have hzero : i.contains 0 = false := by
    rw [contains]
    split <;> simp [Nat.pos_iff_ne_zero.mp hi]
  rintro rfl
  rw [gridPoint?] at h
  split at h
  next hd _ =>
    split at h
    · rw [Option.some.inj h, hzero] at hd
      cases hd
    · cases h
  next hd _ =>
    rw [Option.some.inj h, hzero] at hd
    cases hd
  next => cases h
  next => cases h

theorem firstGrid_digits {i : Interval} {top : Int} (hi : 0 < i.low) (count tries : Nat) :
    (firstGrid i top count tries).digits ≠ 0 ∨ (firstGrid i top count tries).exponent = 0 := by
  induction tries generalizing count with
  | zero => exact .inr rfl
  | succ tries ih =>
    rw [firstGrid]
    split
    next d hd =>
      refine .inl (Interval.gridPoint?_ne_zero ?_ hd)
      exact Nat.mul_pos hi (Nat.pow_pos (by decide))
    next => exact ih _

theorem shortest_digits (hs : s ≠ 0) (q : Int) :
    (shortest s q).digits ≠ 0 ∨ (shortest s q).exponent = 0 := by
  refine firstGrid_digits ?_ 1 enoughDigits
  rw [Interval.ofFinite]
  refine Nat.mul_pos ?_ (Nat.pow_pos (by decide))
  split <;> omega

end Grid

structure IsFloatText (cs : List Char) : Prop where
  head : ∃ d ∈ cs.head?, d.isDigit = true
  mark : '.' ∈ cs ∨ 'e' ∈ cs
  line : '\n' ∉ cs

section Form

theorem lineBreak_notMem_digits (h : ∀ d ∈ ds, d.isDigit = true) : '\n' ∉ ds := fun hmem =>
  absurd (h _ hmem) (by decide)

theorem isFloatText_append {cs : List Char} (h : ∀ d ∈ ds, d.isDigit = true) (hds : ds ≠ [])
    (hmark : '.' ∈ cs ∨ 'e' ∈ cs) (hline : '\n' ∉ cs) : IsFloatText (ds ++ cs) := by
  refine ⟨?_, ?_, ?_⟩
  · obtain ⟨d, ds, rfl⟩ := List.exists_cons_of_ne_nil hds
    exact ⟨d, rfl, h d List.mem_cons_self⟩
  · exact hmark.imp (List.mem_append_right ds) (List.mem_append_right ds)
  · rw [List.mem_append, not_or]
    exact ⟨lineBreak_notMem_digits h, hline⟩

theorem isDigit_zeros (n : Nat) : ∀ d ∈ List.replicate n '0', d.isDigit = true := by
  intro d hd
  rw [List.eq_of_mem_replicate hd]
  decide

/-- A positional text has a point with digits around it. -/
theorem exists_positional_eq (h : ∀ d ∈ ds, d.isDigit = true) (e : Int) :
    ∃ whole fraction, (positional literalForm ds e).toList = whole ++ '.' :: fraction ∧
      whole ≠ [] ∧ (∀ d ∈ whole, d.isDigit = true) ∧ ∀ d ∈ fraction, d.isDigit = true := by
  rw [positional]
  split
  · have htext (cs : List Char) : ("0." ++ String.ofList cs).toList = ['0'] ++ '.' :: cs := by simp
    refine ⟨['0'], _, htext _, List.cons_ne_nil _ _, List.forall_mem_singleton.mpr rfl, ?_⟩
    exact List.forall_mem_append.mpr ⟨isDigit_zeros _, h⟩
  · dsimp only
    split
    next hle =>
      have htext (cs : List Char) :
          (String.ofList cs ++ literalForm.wholeSuffix).toList = cs ++ '.' :: ['0'] := by
        simp [literalForm]
      refine ⟨_, ['0'], htext _, ?_, ?_, List.forall_mem_singleton.mpr rfl⟩
      · refine List.ne_nil_of_length_pos ?_
        rw [List.length_append, List.length_replicate]
        omega
      · exact List.forall_mem_append.mpr ⟨h, isDigit_zeros _⟩
    next hlt =>
      have htext (cs cs' : List Char) :
          (String.ofList cs ++ "." ++ String.ofList cs').toList = cs ++ '.' :: cs' := by simp
      refine ⟨_, _, htext _ _, ?_, fun d hd => h d (List.mem_of_mem_take hd),
        fun d hd => h d (List.mem_of_mem_drop hd)⟩
      refine List.ne_nil_of_length_pos ?_
      rw [List.length_take]
      omega

theorem scientific_singleton (d : Char) (e : Int) :
    (scientific literalForm [d] e).toList = [d] ++ 'e' :: (toString e).toList := by
  simp [scientific, literalForm]

theorem scientific_cons_cons (d d' : Char) (ds : List Char) (e : Int) :
    (scientific literalForm (d :: d' :: ds) e).toList =
      [d] ++ '.' :: (d' :: ds) ++ 'e' :: (toString e).toList := by
  simp [scientific, literalForm]

theorem isFloatText_positional (h : ∀ d ∈ ds, d.isDigit = true) (e : Int) :
    IsFloatText (positional literalForm ds e).toList := by
  obtain ⟨whole, fraction, htext, hne, hwhole, hfraction⟩ := exists_positional_eq h e
  rw [htext]
  refine isFloatText_append hwhole hne (.inl List.mem_cons_self) ?_
  rw [List.mem_cons, not_or]
  exact ⟨by decide, lineBreak_notMem_digits hfraction⟩

theorem isFloatText_scientific (h : ∀ d ∈ ds, d.isDigit = true) (hds : ds ≠ []) (e : Int) :
    IsFloatText (scientific literalForm ds e).toList := by
  obtain ⟨d, ds, rfl⟩ := List.exists_cons_of_ne_nil hds
  rw [List.forall_mem_cons] at h
  have hd : ∀ c ∈ [d], c.isDigit = true := List.forall_mem_singleton.mpr h.1
  have hline : '\n' ∉ 'e' :: (toString e).toList := by
    rw [List.mem_cons, not_or]
    exact ⟨by decide, lineBreak_notMem_toString e⟩
  cases ds with
  | nil =>
    rw [scientific_singleton]
    exact isFloatText_append hd (List.cons_ne_nil _ _) (.inr List.mem_cons_self) hline
  | cons d' ds =>
    rw [scientific_cons_cons, List.append_assoc]
    refine isFloatText_append hd (List.cons_ne_nil _ _) (.inl List.mem_cons_self) ?_
    rw [List.mem_append, List.mem_cons, not_or, not_or]
    exact ⟨⟨by decide, lineBreak_notMem_digits h.2⟩, hline⟩

end Form

section Shortest

/-- The digits of the shortest decimal, without the zeros at their end. -/
def significantDigits (s : Nat) (q : Int) : List Char :=
  dropTrailingZeros (Nat.toDigits 10 (shortest s q).digits)

/-- The power of ten of the first digit of the shortest decimal. -/
def decimalExponent (s : Nat) (q : Int) : Int :=
  (shortest s q).exponent + (Nat.toDigits 10 (shortest s q).digits).length - 1

/-- The number is written without an exponent. -/
def IsPositional (s : Nat) (q : Int) : Prop := -4 ≤ decimalExponent s q ∧ decimalExponent s q ≤ 15

instance (s : Nat) (q : Int) : Decidable (IsPositional s q) :=
  inferInstanceAs (Decidable (_ ∧ _))

theorem magnitudeText_of_isPositional (h : IsPositional s q) :
    magnitudeText literalForm s q =
      positional literalForm (significantDigits s q) (decimalExponent s q) :=
  if_pos h

theorem magnitudeText_of_not_isPositional (h : ¬ IsPositional s q) :
    magnitudeText literalForm s q =
      scientific literalForm (significantDigits s q) (decimalExponent s q) :=
  if_neg h

theorem isDigit_significantDigits (s : Nat) (q : Int) :
    ∀ d ∈ significantDigits s q, d.isDigit = true := fun _ hd =>
  Nat.isDigit_of_mem_toDigits (by decide) (by decide) (mem_of_mem_dropTrailingZeros hd)

theorem significantDigits_ne_nil (hs : s ≠ 0) (h : ¬ IsPositional s q) :
    significantDigits s q ≠ [] := by
  refine dropTrailingZeros_toDigits_ne_nil fun hzero => h ?_
  have hexponent := (shortest_digits hs q).resolve_left (not_not_intro hzero)
  rw [IsPositional, decimalExponent, hzero, hexponent]
  decide

end Shortest

theorem isFloatText_magnitudeText (hs : s ≠ 0) (q : Int) :
    IsFloatText (magnitudeText literalForm s q).toList := by
  by_cases h : IsPositional s q
  · rw [magnitudeText_of_isPositional h]
    exact isFloatText_positional (isDigit_significantDigits s q) _
  · rw [magnitudeText_of_not_isPositional h]
    exact isFloatText_scientific (isDigit_significantDigits s q) (significantDigits_ne_nil hs h) _

theorem text_of_ne_zero (hs : s ≠ 0) (q : Int) :
    (finite false s q).text = magnitudeText literalForm s q := by
  obtain ⟨s, rfl⟩ := Nat.exists_eq_succ_of_ne_zero hs
  exact String.empty_append

theorem isFloatText_text (s : Nat) (q : Int) : IsFloatText (finite false s q).text.toList := by
  cases s with
  | zero =>
    have htext : (finite false 0 q).text = "0.0" := rfl
    rw [htext]
    exact ⟨⟨'0', rfl, rfl⟩, by decide, by decide⟩
  | succ s =>
    rw [text_of_ne_zero (Nat.succ_ne_zero s)]
    exact isFloatText_magnitudeText (Nat.succ_ne_zero s) q

/-- A text of letters, digits, points and minus signs. -/
def IsTextual (cs : List Char) : Prop := ∀ c ∈ cs, c.isAlphanum = true ∨ c = '.' ∨ c = '-'

instance (cs : List Char) : Decidable (IsTextual cs) :=
  List.decidableBAll (fun c : Char => c.isAlphanum = true ∨ c = '.' ∨ c = '-') cs

section Textual

variable {cs : List Char}

theorem isTextual_append_iff : IsTextual (cs ++ ds) ↔ IsTextual cs ∧ IsTextual ds :=
  List.forall_mem_append

theorem isTextual_digits (h : ∀ d ∈ ds, d.isDigit = true) : IsTextual ds := fun d hd =>
  .inl (by rw [Char.isAlphanum, h d hd, Bool.or_true])

theorem isTextual_toString (n : Int) : IsTextual (toString n).toList := by
  intro c hc
  rcases eq_or_isDigit_of_mem_toString hc with rfl | hc
  · exact .inr (.inr rfl)
  · exact .inl (by rw [Char.isAlphanum, hc, Bool.or_true])

theorem IsTextual.point (h : IsTextual cs) : IsTextual ('.' :: cs) :=
  List.forall_mem_cons.mpr ⟨.inr (.inl rfl), h⟩

theorem IsTextual.mark (h : IsTextual cs) : IsTextual ('e' :: cs) :=
  List.forall_mem_cons.mpr ⟨.inl rfl, h⟩

theorem isTextual_magnitudeText (hs : s ≠ 0) (q : Int) :
    IsTextual (magnitudeText literalForm s q).toList := by
  by_cases h : IsPositional s q
  · rw [magnitudeText_of_isPositional h]
    obtain ⟨whole, fraction, htext, _, hwhole, hfraction⟩ :=
      exists_positional_eq (isDigit_significantDigits s q) (decimalExponent s q)
    rw [htext, isTextual_append_iff]
    exact ⟨isTextual_digits hwhole, (isTextual_digits hfraction).point⟩
  · rw [magnitudeText_of_not_isPositional h]
    have hdigits := isDigit_significantDigits s q
    obtain ⟨d, ds, hds⟩ := List.exists_cons_of_ne_nil (significantDigits_ne_nil hs h)
    rw [hds, List.forall_mem_cons] at hdigits
    have hd : IsTextual [d] := isTextual_digits (List.forall_mem_singleton.mpr hdigits.1)
    have hexponent := (isTextual_toString (decimalExponent s q)).mark
    rw [hds]
    cases ds with
    | nil =>
      rw [scientific_singleton, isTextual_append_iff]
      exact ⟨hd, hexponent⟩
    | cons d' ds =>
      rw [scientific_cons_cons, isTextual_append_iff, isTextual_append_iff]
      exact ⟨⟨hd, (isTextual_digits hdigits.2).point⟩, hexponent⟩

theorem isTextual_text (x : Binary64) : IsTextual x.text.toList := by
  cases x with
  | nan => decide
  | infinity negative => cases negative <;> decide
  | finite negative s q =>
    have htext : ((finite negative s q).text).toList =
        (if negative then "-" else "").toList ++ (finite false s q).text.toList := by
      cases s <;> simp [text]
    rw [htext, isTextual_append_iff]
    constructor
    · cases negative <;> decide
    · cases s with
      | zero =>
        have hzero : (finite false 0 q).text = "0.0" := rfl
        rw [hzero]
        decide
      | succ s =>
        rw [text_of_ne_zero (Nat.succ_ne_zero s)]
        exact isTextual_magnitudeText (Nat.succ_ne_zero s) q

end Textual

theorem lineBreak_notMem_text (x : Binary64) : '\n' ∉ x.text.toList := fun h =>
  absurd (isTextual_text x _ h) (by decide)

def isFinite : Binary64 → Bool
  | .finite _ _ _ => true
  | .nan | .infinity _ => false

section Reading

variable {negative : Bool} {num den : Nat}

theorem ofRatio_cases (negative : Bool) (num den : Nat) :
    ofRatio negative num den = .infinity negative ∨
      ∃ s q, ofRatio negative num den = .finite negative s q := by
  unfold ofRatio
  split
  · exact .inr ⟨0, leastExponent, rfl⟩
  · dsimp only
    split <;> split
    · exact .inl rfl
    · exact .inr ⟨_, _, rfl⟩
    · exact .inl rfl
    · exact .inr ⟨_, _, rfl⟩

theorem ofDecimal_cases (negative : Bool) (n : Nat) (e : Int) :
    ofDecimal negative n e = .infinity negative ∨
      ∃ s q, ofDecimal negative n e = .finite negative s q := by
  unfold ofDecimal
  split
  · exact .inr ⟨0, leastExponent, rfl⟩
  · dsimp only
    split
    · exact .inl rfl
    · split
      · exact .inr ⟨0, leastExponent, rfl⟩
      · split <;> exact ofRatio_cases ..

theorem isFloatText_ofDigits {whole fraction : List Char}
    (h : (ofDigits false whole fraction e).isFinite = true) :
    IsFloatText (ofDigits false whole fraction e).text.toList := by
  rcases ofDecimal_cases false (digitsValue (whole ++ fraction)) (e - fraction.length) with
    hx | ⟨s, q, hx⟩
  · rw [ofDigits, hx] at h
    cases h
  · rw [ofDigits, hx]
    exact isFloatText_text s q

end Reading

end Binary64

end MatrixLang
