import MatrixLang.Proofs.Lexing.Placement

/-! # Lexemes

Which characters spell which token, and how a text is cut into pieces: a lexeme goes as far as any
token that the text starts with, and a character that starts none is skipped.
-/

namespace MatrixLang

def IsNumeral (ds : List Char) : Prop := ds ≠ [] ∧ ∀ d ∈ ds, d.isDigit = true

inductive Exponent : List Char → Int → Prop
  | missing : Exponent [] 0
  | unsigned {e ds} : e = 'e' ∨ e = 'E' → IsNumeral ds →
      Exponent (e :: ds) (Binary64.digitsValue ds)
  | positive {e ds} : e = 'e' ∨ e = 'E' → IsNumeral ds →
      Exponent (e :: '+' :: ds) (Binary64.digitsValue ds)
  | negative {e ds} : e = 'e' ∨ e = 'E' → IsNumeral ds →
      Exponent (e :: '-' :: ds) (-Binary64.digitsValue ds)

/-- A letter or an underscore, then letters, digits and underscores. -/
inductive IsWord : List Char → Prop
  | mk {c cs} : c.isAlpha = true ∨ c = '_' → (∀ d ∈ cs, d.isAlphanum = true ∨ d = '_') →
      IsWord (c :: cs)

theorem IsWord.isAlphanum_of_mem {us : List Char} (h : IsWord us) :
    ∀ u ∈ us, u.isAlphanum = true ∨ u = '_' := by
  obtain ⟨hc, hcs⟩ := h
  refine List.forall_mem_cons.mpr ⟨hc.imp_left fun h => ?_, hcs⟩
  rw [Char.isAlphanum, h, Bool.true_or]

/-- The characters that spell a token. -/
inductive Lexeme : Kind → List Char → Prop
  | integer {ds n} : IsNumeral ds → n = min (Binary64.digitsValue ds) Piece.greatestInteger →
      Lexeme (.integer n) ds
  | float {ds fs es x} : IsNumeral ds → (∀ f ∈ fs, f.isDigit = true) → Exponent es x →
      Lexeme (.float (Binary64.ofDigits false ds fs x)) (ds ++ '.' :: fs ++ es)
  | fraction {fs es x} : IsNumeral fs → Exponent es x →
      Lexeme (.float (Binary64.ofDigits false [] fs x)) ('.' :: fs ++ es)
  | string {cs} : '"' ∉ cs → '\n' ∉ cs →
      Lexeme (.string (String.ofList cs)) ('"' :: cs ++ ['"'])
  | name {cs} : IsWord cs → (∀ w : Keyword, w.text.toList ≠ cs) →
      Lexeme (.name (String.ofList cs)) cs
  | keyword {w : Keyword} : Lexeme (.keyword w) w.text.toList
  | symbol {m : Symbol} : Lexeme (.symbol m) m.text.toList

/-- A lexeme at the front of the text `cs` that none is longer than. -/
structure LongestLexeme (k : Kind) (us cs : List Char) : Prop where
  lexeme : Lexeme k us
  prefix_text : us <+: cs
  longest : ∀ k' vs, Lexeme k' vs → vs <+: cs → vs.length ≤ us.length

/-- The first piece of a text. -/
inductive Cut : List Char → Piece → Prop
  | blank {c cs} : c ∈ [' ', '\t', '\r', '\n'] → Cut (c :: cs) (.blank c)
  | comment {us cs} : '\n' ∉ us → (∀ c ∈ cs.head?, c = '\n') →
      Cut ('#' :: us ++ cs) (.comment ('#' :: us))
  | lexeme {k us cs} : LongestLexeme k us cs → Cut cs (.lexeme k us)
  | skipped {c cs} : c ∉ [' ', '\t', '\r', '\n', '#'] →
      (∀ k us, Lexeme k us → ¬ us <+: c :: cs) → Cut (c :: cs) (.skipped c)

inductive Cuts : List Char → List Piece → Prop
  | nil : Cuts [] []
  | cons {p cs ps} : Cut (p.text ++ cs) p → Cuts cs ps → Cuts (p.text ++ cs) (p :: ps)

end MatrixLang
