import MatrixLang.Proofs.Lexing.Mending
import MatrixLang.Proofs.Number.Text
import MatrixLang.Proofs.Report.Line

/-! # Spelled tokens

A space ends every lexeme. So the spellings of tokens with spaces between them are cut at these
spaces, and each spelling gives its token back at the column where it starts.
-/

namespace MatrixLang

open Piece PlacedPiece

section LineBreaks

variable {k : Kind} {us : List Char}

theorem Keyword.lineBreak_notMem_text (w : Keyword) : '\n' ∉ w.text.toList := by
  have hall : ∀ w ∈ all, '\n' ∉ w.text.toList := by decide
  exact hall w (mem_all w)

theorem Symbol.lineBreak_notMem_text (m : Symbol) : '\n' ∉ m.text.toList := by
  have hall : ∀ m ∈ all, '\n' ∉ m.text.toList := by decide
  exact hall m (mem_all m)

theorem Lexeme.lineBreak_notMem_spelling (h : Lexeme k us) : '\n' ∉ k.spelling.toList := by
  cases h with
  | integer => exact lineBreak_notMem_toString _
  | float | fraction => exact Binary64.lineBreak_notMem_text _
  | string _ hbreak => simpa [Kind.spelling] using hbreak
  | name h _ =>
    rw [Kind.spelling, String.toList_ofList]
    exact h.unbroken.isLine.1
  | keyword => exact Keyword.lineBreak_notMem_text _
  | symbol => exact Symbol.lineBreak_notMem_text _

end LineBreaks

section Kinds

/-- The kinds of token that a spelling stands for, numbers with a point left out. -/
inductive Kind.IsSpellable : Kind → Prop
  | integer {n : Nat} : n ≤ greatestInteger → IsSpellable (.integer n)
  | string {s : String} : '"' ∉ s.toList → '\n' ∉ s.toList → IsSpellable (.string s)
  | name {s : String} : IsWord s.toList → (∀ w : Keyword, w.text ≠ s) → IsSpellable (.name s)
  | keyword {w} : IsSpellable (.keyword w)
  | symbol {m} : IsSpellable (.symbol m)

theorem isNumeral_toString (n : Nat) : IsNumeral (toString n).toList := by
  refine ⟨?_, fun d => isDigit_of_mem_toString⟩
  rw [Nat.toString_eq_repr, Nat.toList_repr]
  exact Nat.toDigits_ne_nil

theorem digitsValue_spelling (n : Nat) :
    Binary64.digitsValue (Kind.integer n).spelling.toList = n := by
  have hspelling : (Kind.integer n).spelling = n.repr := rfl
  rw [hspelling, Nat.toList_repr]
  exact Nat.ofDigitChars_ten_toDigits

variable {k : Kind}

theorem Kind.IsSpellable.lexeme (h : k.IsSpellable) : Lexeme k k.spelling.toList := by
  cases h with
  | @integer n hn =>
    refine .integer (isNumeral_toString n) ?_
    rw [digitsValue_spelling, Nat.min_eq_left hn]
  | @string s hq hn =>
    have hs := Lexeme.string hq hn
    rw [String.ofList_toList] at hs
    simpa [spelling] using hs
  | @name s hw hk =>
    have hs := Lexeme.name hw fun w h => hk w (String.toList_inj.mp h)
    rwa [String.ofList_toList] at hs
  | keyword => exact .keyword
  | symbol => exact .symbol

theorem Kind.IsSpellable.ofPiece?_eq_none (h : k.IsSpellable) :
    LexicalFault.ofPiece? (.lexeme k k.spelling.toList) = none := by
  cases h with
  | @integer n hn =>
    rw [LexicalFault.ofPiece?, digitsValue_spelling, if_neg (Nat.not_lt.mpr hn)]
  | string | name | keyword | symbol => rfl

end Kinds

section Spaces

variable {k : Kind} {us cs : List Char}

/-- At the end of the text or in front of a space a lexeme is as long as can be. -/
theorem Lexeme.longest_of_space (h : Lexeme k us) (hcs : ∀ c ∈ cs.head?, c = ' ') :
    LongestLexeme k us (us ++ cs) := by
  refine ⟨h, List.prefix_append us cs, fun k' vs hv hp => ?_⟩
  by_contra hlt
  rw [Nat.not_le] at hlt
  obtain ⟨ws, rfl⟩ := List.prefix_of_prefix_length_le (List.prefix_append us cs) hp hlt.le
  cases ws with
  | nil => simp at hlt
  | cons w ws =>
    obtain ⟨ds, rfl⟩ := (List.prefix_append_right_inj us).mp hp
    obtain rfl : w = ' ' := hcs w rfl
    exact h.space_not_mem_of_append hv List.mem_cons_self

end Spaces

/-- The spellings of some kinds of token, with a space between each and the next. -/
def spelled (ks : List Kind) : List Char := (" ".intercalate (ks.map Kind.spelling)).toList

/-- The tokens of these spellings on the first line, each a space behind the end of the one
before. -/
def tokensFrom (column : Nat) : List Kind → List Token
  | [] => []
  | k :: ks => ⟨k, ⟨1, column⟩⟩ :: tokensFrom (column + k.spelling.length + 1) ks

section Spellings

variable {k : Kind} {ks : List Kind}

def spelledBehind (ks : List Kind) : List Char := ks.flatMap fun k => ' ' :: k.spelling.toList

def piecesBehind (ks : List Kind) : List Piece :=
  ks.flatMap fun k => [.blank ' ', .lexeme k k.spelling.toList]

theorem spelledBehind_cons (k : Kind) (ks : List Kind) :
    spelledBehind (k :: ks) = ' ' :: (k.spelling.toList ++ spelledBehind ks) := rfl

theorem piecesBehind_cons (k : Kind) (ks : List Kind) :
    piecesBehind (k :: ks) = .blank ' ' :: .lexeme k k.spelling.toList :: piecesBehind ks := rfl

theorem spelled_cons (k : Kind) (ks : List Kind) :
    spelled (k :: ks) = k.spelling.toList ++ spelledBehind ks := by
  induction ks generalizing k with
  | nil => simp [spelled, spelledBehind]
  | cons k' ks ih =>
    have hspace : spelled (k :: k' :: ks) = k.spelling.toList ++ ' ' :: spelled (k' :: ks) := by
      simp [spelled, String.intercalate_cons_cons]
    rw [hspace, ih, spelledBehind_cons]

theorem Cuts.lexeme_behind (hks : Cuts (spelledBehind ks) (piecesBehind ks))
    (h : k.IsSpellable) :
    Cuts (k.spelling.toList ++ spelledBehind ks)
      (.lexeme k k.spelling.toList :: piecesBehind ks) := by
  refine .cons (.lexeme (h.lexeme.longest_of_space ?_)) hks
  cases ks <;> simp [spelledBehind]

theorem cuts_spelledBehind (h : ∀ k ∈ ks, k.IsSpellable) :
    Cuts (spelledBehind ks) (piecesBehind ks) := by
  induction ks with
  | nil => exact .nil
  | cons k ks ih =>
    rw [List.forall_mem_cons] at h
    exact .cons (p := .blank ' ') (.blank (by decide)) ((ih h.2).lexeme_behind h.1)

def spelledPieces : List Kind → List Piece
  | [] => []
  | k :: ks => .lexeme k k.spelling.toList :: piecesBehind ks

theorem ofText_spelled_eq (h : ∀ k ∈ ks, k.IsSpellable) :
    Piece.ofText (spelled ks) = spelledPieces ks := by
  refine (cuts_iff.mp ?_).symm
  cases ks with
  | nil => exact .nil
  | cons k ks =>
    rw [List.forall_mem_cons] at h
    rw [spelled_cons]
    exact (cuts_spelledBehind h.2).lexeme_behind h.1

theorem mem_spelledPieces {p : Piece} (hp : p ∈ spelledPieces ks) :
    p = .blank ' ' ∨ ∃ k ∈ ks, p = .lexeme k k.spelling.toList := by
  cases ks with
  | nil => cases hp
  | cons k ks =>
    rcases List.mem_cons.mp hp with rfl | hp
    · exact .inr ⟨k, List.mem_cons_self, rfl⟩
    · obtain ⟨k', hk', hp⟩ := List.mem_flatMap.mp hp
      simp only [List.mem_cons, List.not_mem_nil, or_false] at hp
      exact hp.imp_right fun hp => ⟨k', List.mem_cons_of_mem k hk', hp⟩

theorem error?_spelledPieces (h : ∀ k ∈ ks, k.IsSpellable) (l : Location) :
    (place l (spelledPieces ks)).filterMap (·.error?) = [] := by
  refine List.filterMap_eq_nil_iff.mpr fun q hq => ?_
  rw [error?, Option.map_eq_none_iff]
  rcases mem_spelledPieces (piece_mem_of_mem_place hq) with hp | ⟨k, hk, hp⟩
  · rw [hp]
    rfl
  · rw [hp, (h k hk).ofPiece?_eq_none]

theorem Kind.IsSpellable.after_spelling (h : k.IsSpellable) (column : Nat) :
    Location.after ⟨1, column⟩ k.spelling.toList = ⟨1, column + k.spelling.length⟩ := by
  rw [Location.after_of_not_mem h.lexeme.lineBreak_notMem_spelling, String.length_toList]

theorem token?_lexeme (k : Kind) (us : List Char) (l : Location) :
    token? ⟨.lexeme k us, l⟩ = some ⟨k, l⟩ := rfl

theorem token?_piecesBehind (h : ∀ k ∈ ks, k.IsSpellable) (column : Nat) :
    (place ⟨1, column⟩ (piecesBehind ks)).filterMap (·.token?) = tokensFrom (column + 1) ks := by
  induction ks generalizing column with
  | nil => rfl
  | cons k ks ih =>
    rw [List.forall_mem_cons] at h
    have hspace : Location.after ⟨1, column⟩ (Piece.blank ' ').text = ⟨1, column + 1⟩ := rfl
    have hplace := ih h.2 (column + 1 + k.spelling.length)
    rw [piecesBehind_cons, place, place, hspace, Piece.text, h.1.after_spelling,
      List.filterMap_cons_none rfl, List.filterMap_cons_some (token?_lexeme k _ _), hplace,
      tokensFrom]

theorem token?_spelledPieces (h : ∀ k ∈ ks, k.IsSpellable) (column : Nat) :
    (place ⟨1, column⟩ (spelledPieces ks)).filterMap (·.token?) = tokensFrom column ks := by
  cases ks with
  | nil => rfl
  | cons k ks =>
    rw [List.forall_mem_cons] at h
    rw [spelledPieces, place, Piece.text, h.1.after_spelling,
      List.filterMap_cons_some (token?_lexeme k _ _), token?_piecesBehind h.2, tokensFrom]

theorem lineBreak_not_mem_spelled (h : ∀ k ∈ ks, k.IsSpellable) : '\n' ∉ spelled ks := by
  rw [← flatMap_text_ofText (spelled ks), ofText_spelled_eq h]
  intro hn
  obtain ⟨p, hp, hn⟩ := List.mem_flatMap.mp hn
  rcases mem_spelledPieces hp with rfl | ⟨k, hk, rfl⟩
  · exact absurd hn (by decide)
  · exact (h k hk).lexeme.lineBreak_notMem_spelling hn

theorem map_kind_tokensFrom (ks : List Kind) (column : Nat) :
    (tokensFrom column ks).map (·.kind) = ks := by
  induction ks generalizing column with
  | nil => rfl
  | cons k ks ih => rw [tokensFrom, List.map_cons, ih]

/-- Behind the text `before` each token has the column where its spelling starts. -/
theorem prefix_of_mem_tokensFrom {t : Token} (before : List Char)
    (ht : t ∈ tokensFrom (before.length + 2) ks) :
    t.kind.spelling.toList <+: (before ++ spelledBehind ks).drop (t.location.column - 1) := by
  induction ks generalizing before with
  | nil => cases ht
  | cons k ks ih =>
    rw [spelledBehind_cons]
    rcases List.mem_cons.mp ht with rfl | ht
    · have hdrop : (before ++ ' ' :: (k.spelling.toList ++ spelledBehind ks)).drop
          (before.length + 1) = k.spelling.toList ++ spelledBehind ks := by
        rw [← List.drop_drop, List.drop_left, List.drop_one, List.tail_cons]
      have hprefix := List.prefix_append k.spelling.toList (spelledBehind ks)
      rwa [← hdrop] at hprefix
    · have hlength : before.length + 2 + k.spelling.length + 1 =
          (before ++ ' ' :: k.spelling.toList).length + 2 := by
        rw [List.length_append, List.length_cons, String.length_toList]
        omega
      rw [hlength] at ht
      have hprefix := ih _ ht
      rwa [List.append_assoc, List.cons_append] at hprefix

theorem prefix_of_mem_tokensFrom_one {t : Token} (ht : t ∈ tokensFrom 1 ks) :
    t.kind.spelling.toList <+: (spelled ks).drop (t.location.column - 1) := by
  cases ks with
  | nil => cases ht
  | cons k ks =>
    rw [spelled_cons]
    rcases List.mem_cons.mp ht with rfl | ht
    · exact List.prefix_append ..
    · have hlength : 1 + k.spelling.length + 1 = k.spelling.toList.length + 2 := by
        rw [String.length_toList]
        omega
      rw [hlength] at ht
      exact prefix_of_mem_tokensFrom k.spelling.toList ht

/-- Spelling undoes the cutting of a text. The spellings of some kinds of token with spaces between
them give tokens of these kinds, each at the column where its spelling starts, and no errors. -/
theorem Scan.ofText_spelled (h : ∀ k ∈ ks, k.IsSpellable) :
    (ofText (spelled ks)).errors = [] ∧
      ∃ ts, (ofText (spelled ks)).tokens =
          ts ++ [⟨.endOfInput, ⟨1, 1 + (spelled ks).length⟩⟩] ∧
        ts.map (·.kind) = ks ∧ ts = tokensFrom 1 ks ∧
        ∀ t ∈ ts, t.kind.spelling.toList <+: (spelled ks).drop (t.location.column - 1) := by
  have hend : Location.start.after (spelled ks) = ⟨1, 1 + (spelled ks).length⟩ :=
    Location.after_of_not_mem (lineBreak_not_mem_spelled h) .start
  have htokens := token?_spelledPieces h 1
  refine ⟨?_, tokensFrom 1 ks, ?_, map_kind_tokensFrom ks 1, rfl,
    fun t => prefix_of_mem_tokensFrom_one⟩
  · rw [ofText, ofText_spelled_eq h]
    exact error?_spelledPieces h .start
  · rw [ofText, ofText_spelled_eq h, hend]
    exact congrArg (· ++ _) htokens

/-- A word that starts like a keyword and a string with a comment sign are as good as any. -/
theorem Scan.ofText_spelled_mixed :
    let ks : List Kind := [.keyword .ifWord, .string "a # = b", .integer greatestInteger,
      .symbol (.binary (.elementwise .mul)), .name "iff"]
    (∀ k ∈ ks, k.IsSpellable) ∧
      spelled ks = "if \"a # = b\" 9223372036854775807 .* iff".toList ∧
      (ofText (spelled ks)).errors = [] ∧
      (ofText (spelled ks)).tokens = [⟨.keyword .ifWord, ⟨1, 1⟩⟩, ⟨.string "a # = b", ⟨1, 4⟩⟩,
        ⟨.integer greatestInteger, ⟨1, 14⟩⟩, ⟨.symbol (.binary (.elementwise .mul)), ⟨1, 34⟩⟩,
        ⟨.name "iff", ⟨1, 37⟩⟩, ⟨.endOfInput, ⟨1, 40⟩⟩] := by
  intro ks
  have hword : IsWord ['i', 'f', 'f'] := .mk (.inl rfl) (by simp)
  have hiff : ∀ w ∈ Keyword.all, w.text ≠ "iff" := by decide
  have hks : ∀ k ∈ ks, k.IsSpellable := by
    simp only [ks, List.forall_mem_cons]
    refine ⟨.keyword, .string (by decide) (by decide), .integer le_rfl, .symbol,
      .name hword fun w => hiff w (Keyword.mem_all w), ?_⟩
    exact List.forall_mem_nil _
  have hspelled : spelled ks = "if \"a # = b\" 9223372036854775807 .* iff".toList := by decide
  obtain ⟨herrors, ts, htokens, -, hts, -⟩ := Scan.ofText_spelled hks
  refine ⟨hks, hspelled, herrors, ?_⟩
  rw [htokens, hts, hspelled]
  rfl

end Spellings

end MatrixLang
