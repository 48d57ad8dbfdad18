import MatrixLang.Proofs.Lexing.Account

/-! # What tokens and errors stem from

Every token of a text stands at a lexeme of its kind and every error at a faulty piece, somewhere in
the text. Only the end of input stands behind all of it.
-/

namespace MatrixLang

variable {cs : List Char} {p : Piece} {ps : List Piece}

theorem Cuts.exists_cut (h : Cuts cs ps) (hp : p ∈ ps) : ∃ ds, Cut ds p := by
  induction h with
  | nil => cases hp
  | cons hcut _ ih =>
    rcases List.mem_cons.mp hp with rfl | hp
    · exact ⟨_, hcut⟩
    · exact ih hp

namespace PlacedPiece

open Piece

theorem exists_of_mem_place {q : PlacedPiece} (before : List Char)
    (hq : q ∈ place (.behind before) ps) :
    ∃ ds es, before ++ ps.flatMap text = ds ++ (q.piece.text ++ es) ∧ q.location = .behind ds := by
  induction ps generalizing before with
  | nil => cases hq
  | cons p ps ih =>
    rcases List.mem_cons.mp hq with rfl | hq
    · exact ⟨before, ps.flatMap text, rfl, rfl⟩
    · rw [Location.after_behind] at hq
      obtain ⟨ds, es, heq, hl⟩ := ih _ hq
      refine ⟨ds, es, ?_, hl⟩
      rw [List.flatMap_cons, ← List.append_assoc, heq]

end PlacedPiece

/-- The piece `p` lies at the place `l` of the text `cs`. -/
structure Piece.LiesAt (cs : List Char) (p : Piece) (l : Location) : Prop where
  isCut : ∃ ds, Cut ds p
  text_ne_nil : p.text ≠ []
  splits : ∃ ds es, cs = ds ++ (p.text ++ es) ∧ l = .behind ds

namespace Scan

open Piece PlacedPiece

theorem liesAt_of_mem_place {q : PlacedPiece} (h : q ∈ place .start (Piece.ofText cs)) :
    LiesAt cs q.piece q.location := by
  have hmem := piece_mem_of_mem_place h
  obtain ⟨ds, es, heq, hl⟩ := exists_of_mem_place [] h
  rw [List.nil_append, flatMap_text_ofText] at heq
  exact ⟨(cuts_ofText cs).exists_cut hmem, text_ne_nil_of_mem hmem, ds, es, heq, hl⟩

/-- A token is the end of input behind the text, or it stands at a lexeme of its kind. -/
theorem mem_tokens {t : Token} (h : t ∈ (ofText cs).tokens) :
    t = ⟨.endOfInput, .behind cs⟩ ∨
      ∃ us, Lexeme t.kind us ∧ LiesAt cs (.lexeme t.kind us) t.location := by
  rw [ofText, Location.after_start, List.mem_append] at h
  rcases h with h | h
  · obtain ⟨q, hq, ht⟩ := List.mem_filterMap.mp h
    have hlies := liesAt_of_mem_place hq
    obtain ⟨p, l⟩ := q
    cases p with
    | lexeme k us =>
      obtain rfl := Option.some.inj ht
      obtain ⟨ds, hcut⟩ := hlies.isCut
      cases hcut with
      | lexeme hlongest => exact .inr ⟨us, hlongest.lexeme, hlies⟩
    | _ => cases ht
  · exact .inl (List.mem_singleton.mp h)

theorem exists_tokens_eq (cs : List Char) :
    ∃ us, (∀ t ∈ us, t.kind ≠ .endOfInput) ∧
      (ofText cs).tokens = us ++ [⟨.endOfInput, .behind cs⟩] := by
  have htokens : (ofText cs).tokens =
      (place .start (Piece.ofText cs)).filterMap (·.token?) ++ [⟨.endOfInput, .behind cs⟩] := by
    rw [ofText, Location.after_start]
  have hbefore := pairwise_before_tokens cs
  refine ⟨_, fun t ht hk => ?_, htokens⟩
  rcases mem_tokens (htokens ▸ List.mem_append_left _ ht) with rfl | ⟨us, hus, _⟩
  · rw [htokens, List.pairwise_append] at hbefore
    exact Location.not_before_self _ (hbefore.2.2 _ ht _ (List.mem_singleton_self _))
  · rw [hk] at hus
    cases hus

/-- An error stands at a piece that has its fault. -/
theorem mem_errors {e : LexicalError} (h : e ∈ (ofText cs).errors) :
    ∃ p, Faulty p e.fault ∧ LiesAt cs p e.location := by
  obtain ⟨q, hq, he⟩ := List.mem_filterMap.mp h
  obtain ⟨f, hf, rfl⟩ := Option.map_eq_some_iff.mp he
  exact ⟨q.piece, LexicalFault.ofPiece?_eq_some_iff.mp hf, liesAt_of_mem_place hq⟩

end Scan

end MatrixLang
