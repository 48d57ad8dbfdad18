import MatrixLang.Proofs.Lexing.Origin
import MatrixLang.Proofs.Lexing.Spelled

/-! # Floats that are read back

A float of a text has a point, but the text of a number need not have one: a number of one digit
with an exponent is written without, and so is infinity. Every other float is read back from its
own text.
-/

namespace MatrixLang

open Piece PlacedPiece

section Alone

variable {k : Kind} {us cs : List Char}

theorem Lexeme.ofText_eq (h : Lexeme k us) : Piece.ofText us = [.lexeme k us] := by
  have hcuts : Cuts (us ++ []) [.lexeme k us] :=
    .cons (p := .lexeme k us) (.lexeme (h.longest_of_space (by simp))) .nil
  rw [List.append_nil] at hcuts
  exact (cuts_iff.mp hcuts).symm

theorem Scan.ofText_of_lexeme (h : Lexeme k us) (hf : LexicalFault.ofPiece? (.lexeme k us) = none)
    (hn : '\n' ∉ us) :
    ofText us = ⟨[⟨k, .start⟩, ⟨.endOfInput, ⟨1, 1 + us.length⟩⟩], []⟩ := by
  have herror : error? ⟨.lexeme k us, .start⟩ = none := by rw [error?, hf, Option.map_none]
  rw [ofText, h.ofText_eq, Location.after_of_not_mem hn, place, place,
    List.filterMap_cons_some (token?_lexeme k us .start), List.filterMap_cons_none herror]
  rfl

theorem Lexeme.point_mem {x : Binary64} (h : Lexeme (.float x) us) : '.' ∈ us := by
  cases h <;> simp

theorem Scan.point_mem_of_float {t : Token} {x : Binary64} (h : t ∈ (ofText cs).tokens)
    (hx : t.kind = .float x) : '.' ∈ cs := by
  rcases mem_tokens h with rfl | ⟨us, hus, hlies⟩
  · cases hx
  · obtain ⟨ds, es, rfl, -⟩ := hlies.splits
    rw [hx] at hus
    exact List.mem_append_right ds (List.mem_append_left es hus.point_mem)

end Alone

namespace Binary64

/-- The numbers that are written with a point: they are zero, or within the positional range, or
have several digits. -/
def HasPoint : Binary64 → Prop
  | .nan | .infinity _ => False
  | .finite _ s q => s = 0 ∨ IsPositional s q ∨ 1 < (significantDigits s q).length

section Written

variable {s : Nat} {q : Int}

theorem exponent_toString (e : Int) : ∃ x, Exponent ('e' :: (toString e).toList) x := by
  cases e with
  | ofNat n => exact ⟨_, .unsigned (.inl rfl) (isNumeral_toString n)⟩
  | negSucc n =>
    rw [toString_negSucc]
    exact ⟨_, .negative (.inl rfl) (isNumeral_toString (n + 1))⟩

/-- With a point the text of a number is a float. -/
theorem HasPoint.lexeme (h : (finite false s q).HasPoint) :
    ∃ y, Lexeme (.float y) (finite false s q).text.toList := by
  by_cases hs : s = 0
  · subst hs
    have htext : (finite false 0 q).text = "0.0" := rfl
    have hchars : "0.0".toList = ['0'] ++ '.' :: ['0'] ++ [] := by decide
    have hdigit : ∀ d ∈ ['0'], d.isDigit = true := List.forall_mem_singleton.mpr rfl
    rw [htext, hchars]
    exact ⟨_, .float ⟨List.cons_ne_nil _ _, hdigit⟩ hdigit .missing⟩
  have hdigits := isDigit_significantDigits s q
  rw [text_of_ne_zero hs]
  by_cases hp : IsPositional s q
  · obtain ⟨whole, fraction, htext, hne, hwhole, hfraction⟩ :=
      exists_positional_eq hdigits (decimalExponent s q)
    have hfloat := Lexeme.float ⟨hne, hwhole⟩ hfraction .missing
    rw [magnitudeText_of_isPositional hp, htext]
    rw [List.append_nil] at hfloat
    exact ⟨_, hfloat⟩
  · obtain ⟨x, hx⟩ := exponent_toString (decimalExponent s q)
    have hlength := (h.resolve_left hs).resolve_left hp
    rw [magnitudeText_of_not_isPositional hp]
    rcases hds : significantDigits s q with _ | ⟨d, _ | ⟨d', ds⟩⟩
    · simp [hds] at hlength
    · simp [hds] at hlength
    · rw [hds, List.forall_mem_cons] at hdigits
      rw [scientific_cons_cons]
      exact ⟨_, .float ⟨List.cons_ne_nil d [], List.forall_mem_singleton.mpr hdigits.1⟩
        hdigits.2 hx⟩

theorem point_notMem_text (h : ¬ (finite false s q).HasPoint) :
    '.' ∉ (finite false s q).text.toList := by
  simp only [HasPoint, not_or] at h
  obtain ⟨hs, hp, hlength⟩ := h
  rw [text_of_ne_zero hs, magnitudeText_of_not_isPositional hp]
  obtain ⟨d, ds, hds⟩ := List.exists_cons_of_ne_nil (significantDigits_ne_nil hs hp)
  have hd := isDigit_significantDigits s q d (hds ▸ List.mem_cons_self)
  obtain rfl : ds = [] := by
    rw [hds, List.length_cons] at hlength
    exact List.eq_nil_of_length_eq_zero (by omega)
  rw [hds, scientific_singleton, List.mem_append, List.mem_singleton, List.mem_cons, not_or, not_or]
  refine ⟨?_, by decide, point_notMem_toString _⟩
  rintro rfl
  cases hd

end Written

end Binary64

namespace Scan

variable {cs : List Char} {t : Token} {x : Binary64}

theorem float_cases (h : t ∈ (ofText cs).tokens) (hx : t.kind = .float x) :
    x = .infinity false ∨ ∃ s q, x = .finite false s q := by
  rcases mem_tokens h with rfl | ⟨us, hus, -⟩
  · cases hx
  · rw [hx] at hus
    cases hus <;> exact Binary64.ofDecimal_cases ..

/-- The text of a float token is a single float again if it has a point, and has no float in it
otherwise. -/
theorem float_readsBack (h : t ∈ (ofText cs).tokens) (hx : t.kind = .float x) :
    (x.HasPoint → ∃ y, ofText t.kind.spelling.toList =
      ⟨[⟨.float y, .start⟩, ⟨.endOfInput, ⟨1, 1 + t.kind.spelling.length⟩⟩], []⟩) ∧
    (¬ x.HasPoint → ∀ u ∈ (ofText t.kind.spelling.toList).tokens, ∀ y, u.kind ≠ .float y) := by
  have hspelling : t.kind.spelling = x.text := by rw [hx, Kind.spelling]
  have hcases := float_cases h hx
  rw [hspelling]
  constructor
  · intro hpoint
    rcases hcases with rfl | ⟨s, q, rfl⟩
    · cases hpoint
    · obtain ⟨y, hy⟩ := hpoint.lexeme
      refine ⟨y, ?_⟩
      rw [← String.length_toList]
      exact ofText_of_lexeme hy rfl (Binary64.lineBreak_notMem_text _)
  · intro hpoint u hu y hy
    have hmem := point_mem_of_float hu hy
    rcases hcases with rfl | ⟨s, q, rfl⟩
    · exact absurd hmem (by decide)
    · exact Binary64.point_notMem_text hpoint hmem

theorem float_readsBack_scaled :
    let x : Binary64 := .finite false 6172839450617284 1
    let t : Token := ⟨.float x, ⟨1, 3⟩⟩
    t ∈ (ofText "a=12345678901234567.5".toList).tokens ∧ t.kind = .float x ∧ x.HasPoint ∧
      t.kind.spelling = "1.2345678901234568e16" ∧
      ∃ y, ofText t.kind.spelling.toList =
        ⟨[⟨.float y, .start⟩, ⟨.endOfInput, ⟨1, 1 + t.kind.spelling.length⟩⟩], []⟩ := by
  intro x t
  have ht : t ∈ (ofText "a=12345678901234567.5".toList).tokens := by
    rw [ofText, Piece.ofText_eq_firstOfText (Nat.le_refl _)]
    decide +kernel
  have hpoint : x.HasPoint := .inr (.inr (by decide +kernel))
  exact ⟨ht, rfl, hpoint, by decide +kernel, (float_readsBack ht rfl).1 hpoint⟩

/-- Ten quadrillions are written without a point. -/
theorem split_float :
    ∃ t ∈ (ofText "10000000000000000.0".toList).tokens, ∃ x, t.kind = .float x ∧
      t.kind.spelling = "1e16" ∧
      (ofText t.kind.spelling.toList).tokens =
        [⟨.integer 1, ⟨1, 1⟩⟩, ⟨.name "e16", ⟨1, 2⟩⟩, ⟨.endOfInput, ⟨1, 5⟩⟩] := by
  have ht : (⟨.float (.finite false 5000000000000000 1), ⟨1, 1⟩⟩ : Token) ∈
      (ofText "10000000000000000.0".toList).tokens := by
    rw [ofText, Piece.ofText_eq_firstOfText (Nat.le_refl _)]
    decide +kernel
  have hspelling : (Kind.float (.finite false 5000000000000000 1)).spelling = "1e16" := by
    decide +kernel
  refine ⟨_, ht, _, rfl, hspelling, ?_⟩
  rw [hspelling, ofText, Piece.ofText_eq_firstOfText (Nat.le_refl _)]
  decide +kernel

end Scan

end MatrixLang
