import MatrixLang.Proofs.Lexing.Munch

/-! # Every character is accounted for

The tokens of a text are its lexemes, the errors are its skipped characters and the integers that
are out of range, each at the place of its piece.
-/

namespace MatrixLang

/-- What is wrong with a piece, if anything. -/
inductive Faulty : Piece → LexicalFault → Prop
  | quote : Faulty (.skipped '"') .unterminatedString
  | character {c} : c ≠ '"' → Faulty (.skipped c) (.illegalCharacter c)
  | integer {n ds} : Piece.greatestInteger < Binary64.digitsValue ds →
      Faulty (.lexeme (.integer n) ds) (.integerOutOfRange (String.ofList ds))

theorem LexicalFault.ofPiece?_eq_some_iff {p : Piece} {f : LexicalFault} :
    ofPiece? p = some f ↔ Faulty p f := by
  constructor
  · intro h
    unfold ofPiece? at h
    split at h
    next c =>
      by_cases hc : c = '"'
      · subst hc
        obtain rfl : unterminatedString = f := by simpa using h
        exact .quote
      · obtain rfl : illegalCharacter c = f := by simpa [hc] using h
        exact .character hc
    next n ds =>
      split at h
      next hd => exact Option.some.inj h ▸ .integer hd
      next => cases h
    next => cases h
  · rintro (_ | hc | hd)
    · rfl
    · simp [ofPiece?, hc]
    · simp [ofPiece?, hd]

/-- An occurrence of a lexeme, behind the text in front of it, and its token. -/
inductive Spells : List Char × Piece → Token → Prop
  | mk {before k us} : Spells (before, .lexeme k us) ⟨k, .behind before⟩

namespace Scan

open Piece PlacedPiece

theorem location_of_token?_eq {q : PlacedPiece} {t : Token} (h : q.token? = some t) :
    t.location = q.location := by
  obtain ⟨k, _, rfl⟩ := Option.map_eq_some_iff.mp h
  rfl

theorem pairwise_filterMap_place {α : Type} {f : PlacedPiece → Option α} {l : α → Location}
    (hf : ∀ {q a}, f q = some a → l a = q.location) (cs : List Char) :
    ((place .start (Piece.ofText cs)).filterMap f).Pairwise fun a b => (l a).Before (l b) := by
  have hn : ∀ p ∈ Piece.ofText cs, p.text ≠ [] := fun _ => text_ne_nil_of_mem
  have hp := pairwise_before_place .start hn
  refine List.Pairwise.filterMap f ?_ hp
  intro q r h a ha b hb
  rwa [hf ha, hf hb]

theorem pairwise_before_tokens (cs : List Char) :
    (ofText cs).tokens.Pairwise (·.location.Before ·.location) := by
  rw [ofText, List.pairwise_append]
  refine ⟨pairwise_filterMap_place location_of_token?_eq cs, List.pairwise_singleton .., ?_⟩
  intro t ht e he
  obtain rfl := List.mem_singleton.mp he
  obtain ⟨q, hq, hqt⟩ := List.mem_filterMap.mp ht
  have h := before_end_of_mem_place (fun p => text_ne_nil_of_mem) hq
  rwa [flatMap_text_ofText, ← location_of_token?_eq hqt] at h

end Scan

end MatrixLang
