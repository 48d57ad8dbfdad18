import MatrixLang.Proofs.Lexing.Munch
import MatrixLang.Proofs.Lexing.Spelled
import MatrixLang.Viewer.Highlight

/-! # Strings and comments of a line

A line of source text is cut into spans by one scan and into pieces by another. The two cut numbers,
names and symbols in different places, but on both sides a quote opens a string that the next quote
closes, a hash opens a comment to the end of the line, and nothing else contains a quote or a hash.
-/

namespace MatrixLang

/-- A string token as it stands in the text, with its column. -/
def Token.quoted? (t : Token) : Option (Nat × List Char) :=
  match t.kind with
  | .string s => some (t.location.column, '"' :: s.toList ++ ['"'])
  | _ => none

def PlacedPiece.quoted? (q : PlacedPiece) : Option (Nat × List Char) := q.token?.bind (·.quoted?)

def PlacedPiece.comment? (q : PlacedPiece) : Option (Nat × List Char) :=
  match q.piece with
  | .comment text => some (q.location.column, text)
  | _ => none

namespace Viewer.Highlight

section Marks

/-- Texts that stand one behind the other, each with its column, from the column `k` on. -/
def inColumns (k : Nat) : List (List Char) → List (Nat × List Char)
  | [] => []
  | t :: ts => (k, t) :: inColumns (k + t.length) ts

def IsMark (c : Char) : Prop := c = '"' ∨ c = '#'

instance (c : Char) : Decidable (IsMark c) := inferInstanceAs (Decidable (_ ∨ _))

/-- The text contains neither a quote nor a hash. -/
def Unmarked (us : List Char) : Prop := ∀ u ∈ us, ¬ IsMark u

instance (us : List Char) : Decidable (Unmarked us) :=
  List.decidableBAll (fun u => ¬ IsMark u) us

def opens (q : Char) (t : Nat × List Char) : Bool := t.2.head? = some q

/-- A string with the text `cs` behind its quote, up to the next one or to the end of the line. -/
def quoted (cs : List Char) : List Char :=
  '"' :: cs.takeWhile (· != '"') ++ (cs.drop (cs.takeWhile (· != '"')).length).take 1

/-- The strings and the comment of a line that starts at the column `k`. -/
def marks (k : Nat) : List Char → List (Nat × List Char)
  | [] => []
  | c :: cs =>
    if c = '#' then [(k, c :: cs)]
    else if c = '"' then
      (k, quoted cs) :: marks (k + (quoted cs).length) (cs.drop ((quoted cs).length - 1))
    else marks (k + 1) cs
termination_by cs => cs.length
decreasing_by
  all_goals
    simp only [List.length_drop, List.length_cons]
    omega

variable {c : Char} {us cs : List Char}

theorem marks_comment (k : Nat) (cs : List Char) : marks k ('#' :: cs) = [(k, '#' :: cs)] := by
  rw [marks, if_pos rfl]

theorem marks_quote (k : Nat) (cs : List Char) :
    marks k ('"' :: cs) =
      (k, quoted cs) :: marks (k + (quoted cs).length) (cs.drop ((quoted cs).length - 1)) := by
  rw [marks, if_neg (by decide), if_pos rfl]

theorem quoted_append (hq : '"' ∉ us) (cs : List Char) :
    quoted (us ++ '"' :: cs) = '"' :: us ++ ['"'] := by
  have hinside : (us ++ '"' :: cs).takeWhile (· != '"') = us := by
    have hus : ∀ u ∈ us, (u != '"') = true := fun u hu => bne_iff_ne.mpr fun h => hq (h ▸ hu)
    simp [List.takeWhile_append_of_pos hus]
  rw [quoted, hinside, List.drop_left, List.take_succ_cons, List.take_zero]

theorem marks_string (hq : '"' ∉ us) (k : Nat) (cs : List Char) :
    marks k ('"' :: us ++ ['"'] ++ cs) =
      (k, '"' :: us ++ ['"']) :: marks (k + ('"' :: us ++ ['"']).length) cs := by
  have hshape : '"' :: us ++ ['"'] ++ cs = '"' :: (us ++ '"' :: cs) := by simp
  rw [hshape, marks_quote, quoted_append hq]
  simp

theorem unmarked_cons_iff : Unmarked (c :: us) ↔ ¬ IsMark c ∧ Unmarked us := List.forall_mem_cons

theorem unmarked_append_iff : Unmarked (us ++ cs) ↔ Unmarked us ∧ Unmarked cs :=
  List.forall_mem_append

/-- What contains no mark can be passed. -/
theorem marks_append (hu : Unmarked us) (k : Nat) (cs : List Char) :
    marks k (us ++ cs) = marks (k + us.length) cs := by
  induction us generalizing k with
  | nil => rfl
  | cons u us ih =>
    rw [unmarked_cons_iff] at hu
    obtain ⟨hquote, hhash⟩ := not_or.mp hu.1
    rw [List.cons_append, marks, if_neg hhash, if_neg hquote, ih hu.2, List.length_cons,
      Nat.add_assoc, Nat.add_comm 1]

end Marks

section Spans

variable {c q : Char} {us cs : List Char}

theorem not_isMark_of_continuesNumber (h : continuesNumber c = true) : ¬ IsMark c := by
  rintro (rfl | rfl) <;> exact absurd h (by decide)

theorem not_isMark_of_continuesWord (h : continuesWord c = true) : ¬ IsMark c := by
  rintro (rfl | rfl) <;> exact absurd h (by decide +kernel)

theorem continuesNumber_of_isDigit (h : c.isDigit = true) : continuesNumber c = true := by
  simp [continuesNumber, Char.isAlphanum, h]

theorem continuesWord_of_startsWord (h : startsWord c = true) : continuesWord c = true := by
  rw [startsWord, Bool.or_eq_true] at h
  rw [continuesWord, Bool.or_eq_true]
  exact h.imp_left Text.isAlphanumeric_of_isAlphabetic

/-- Spans without a mark in front are the longest runs of their kind, or single characters. -/
theorem text_firstSpan_cases (hc : ¬ IsMark c) (cs : List Char) :
    (firstSpan c cs).text = (c :: cs).takeWhile continuesNumber ∨
      (firstSpan c cs).text = (c :: cs).takeWhile continuesWord ∨ (firstSpan c cs).text = [c] := by
  obtain ⟨hquote, hhash⟩ := not_or.mp hc
  rw [firstSpan, if_neg hhash, if_neg hquote]
  split
  next hd => exact .inl (List.takeWhile_cons_of_pos (continuesNumber_of_isDigit hd)).symm
  split
  next hw => exact .inr (.inl (List.takeWhile_cons_of_pos (continuesWord_of_startsWord hw)).symm)
  · exact .inr (.inr rfl)

theorem unmarked_firstSpan (hc : ¬ IsMark c) (cs : List Char) :
    Unmarked (firstSpan c cs).text := by
  intro u hu
  rcases text_firstSpan_cases hc cs with h | h | h <;> rw [h] at hu
  · exact not_isMark_of_continuesNumber (forall_mem_takeWhile _ _ u hu)
  · exact not_isMark_of_continuesWord (forall_mem_takeWhile _ _ u hu)
  · exact List.mem_singleton.mp hu ▸ hc

theorem text_firstSpan (c : Char) (cs : List Char) :
    ∃ ds, (firstSpan c cs).text = c :: ds ∧ ds <+: cs := by
  unfold firstSpan
  split
  · exact ⟨cs, rfl, List.prefix_rfl⟩
  split
  · exact ⟨_, rfl, Piece.append_prefix_of_drop (List.takeWhile_prefix _) (List.take_prefix 1 _)⟩
  split
  · exact ⟨_, rfl, List.takeWhile_prefix _⟩
  split
  · exact ⟨_, rfl, List.takeWhile_prefix _⟩
  · exact ⟨[], rfl, List.nil_prefix⟩

theorem text_firstSpan_append (c : Char) (cs : List Char) :
    (firstSpan c cs).text ++ cs.drop ((firstSpan c cs).text.length - 1) = c :: cs := by
  obtain ⟨ds, h, es, rfl⟩ := text_firstSpan c cs
  simp [h]

theorem flatMap_text_source (cs : List Char) : (source cs).flatMap (·.text) = cs := by
  fun_induction source cs with
  | case1 => rfl
  | case2 c cs span ih => rw [List.flatMap_cons, ih, text_firstSpan_append]

theorem text_ne_nil_of_mem_source {s : Span} (h : s ∈ source cs) : s.text ≠ [] := by
  fun_induction source cs with
  | case1 => cases h
  | case2 c cs span ih =>
    rcases List.mem_cons.mp h with rfl | h
    · obtain ⟨ds, heq, -⟩ := text_firstSpan c cs
      exact heq ▸ List.cons_ne_nil c ds
    · exact ih h

theorem filter_opens_cons (hus : Unmarked us) (hq : IsMark q) (k : Nat)
    (ts : List (Nat × List Char)) : ((k, us) :: ts).filter (opens q) = ts.filter (opens q) := by
  refine List.filter_cons_of_neg ?_
  cases us with
  | nil => simp [opens]
  | cons u us =>
    have hu := (List.forall_mem_cons.mp hus).1
    simpa [opens] using fun h : u = q => hu (h ▸ hq)

/-- The spans that start with a mark are the strings and the comment of the line. -/
theorem filter_inColumns_source (hq : IsMark q) (cs : List Char) (k : Nat) :
    (inColumns k ((source cs).map (·.text))).filter (opens q) = (marks k cs).filter (opens q) := by
  fun_induction source cs generalizing k with
  | case1 => rw [marks]; rfl
  | case2 c cs span ih =>
    have hih := ih (k + span.text.length)
    rw [List.map_cons, inColumns]
    by_cases hc : IsMark c
    · rcases hc with rfl | rfl
      · rw [marks_quote, List.filter_cons, List.filter_cons, hih]
        rfl
      · have hend : cs.drop (span.text.length - 1) = [] := List.drop_length
        rw [hend, source, marks_comment]
        rfl
    · have hpass := unmarked_firstSpan hc cs
      rw [filter_opens_cons hpass hq, hih, ← text_firstSpan_append c cs, marks_append hpass]

end Spans

section Pieces

open Piece PlacedPiece

variable {k : Kind} {p : Piece} {ps : List Piece} {us cs : List Char} {x : Int}

theorem unmarked_of_isDigit (h : ∀ u ∈ us, u.isDigit = true) : Unmarked us := fun u hu =>
  not_isMark_of_continuesNumber (continuesNumber_of_isDigit (h u hu))

theorem unmarked_of_isWord (h : IsWord us) : Unmarked us := by
  intro u hu
  rintro (rfl | rfl) <;> exact absurd (h.isAlphanum_of_mem _ hu) (by decide)

theorem unmarked_of_exponent (h : Exponent us x) : Unmarked us := by
  have hletter {e : Char} (he : e = 'e' ∨ e = 'E') : ¬ IsMark e := by
    rcases he with rfl | rfl <;> decide
  cases h with
  | missing => exact nofun
  | unsigned he hd => exact unmarked_cons_iff.mpr ⟨hletter he, unmarked_of_isDigit hd.2⟩
  | positive he hd | negative he hd =>
    simp only [unmarked_cons_iff]
    exact ⟨hletter he, by decide, unmarked_of_isDigit hd.2⟩

/-- Lexemes other than strings contain no mark. -/
theorem unmarked_of_lexeme (h : Lexeme k us) (hk : ∀ s, k ≠ .string s) : Unmarked us := by
  cases h with
  | integer hd => exact unmarked_of_isDigit hd.2
  | float hd hf he =>
    simp only [unmarked_append_iff, unmarked_cons_iff]
    exact ⟨⟨unmarked_of_isDigit hd.2, by decide, unmarked_of_isDigit hf⟩, unmarked_of_exponent he⟩
  | fraction hf he =>
    simp only [unmarked_append_iff, unmarked_cons_iff]
    exact ⟨⟨by decide, unmarked_of_isDigit hf.2⟩, unmarked_of_exponent he⟩
  | string => exact absurd rfl (hk _)
  | name hw => exact unmarked_of_isWord hw
  | @keyword w => exact unmarked_of_isWord w.isWord_text
  | @symbol m =>
    have hall : ∀ m ∈ Symbol.all, Unmarked m.text.toList := by decide
    exact hall m m.mem_all

/-- The strings and the comment of a line are its string tokens and its comment if every string is
closed. -/
theorem filter_marks_of_cuts (h : Cuts cs ps) (hn : '\n' ∉ cs) (hp : ∀ p ∈ ps, p ≠ .skipped '"')
    (k : Nat) :
    (place ⟨1, k⟩ ps).filterMap (·.quoted?) = (marks k cs).filter (opens '"') ∧
      (place ⟨1, k⟩ ps).filterMap (·.comment?) = (marks k cs).filter (opens '#') := by
  induction h generalizing k with
  | nil =>
    rw [marks]
    exact ⟨rfl, rfl⟩
  | @cons p cs ps hcut _ ih =>
    rw [List.mem_append, not_or] at hn
    rw [List.forall_mem_cons] at hp
    obtain ⟨hquote, hhash⟩ := ih hn.2 hp.2 (k + p.text.length)
    rw [place, Location.after_of_not_mem hn.1]
    obtain ⟨ds, hds⟩ : ∃ ds, p.text ++ cs = ds := ⟨_, rfl⟩
    rw [hds] at hcut
    cases hcut with
    | @blank c _ hc =>
      have hpass : Unmarked [c] := by
        refine List.forall_mem_singleton.mpr ?_
        rintro (rfl | rfl) <;> exact absurd hc (by decide)
      rw [text, marks_append hpass]
      exact ⟨hquote, hhash⟩
    | @comment us rest _ hhead =>
      obtain rfl : cs = rest := List.append_cancel_left hds
      obtain rfl : cs = [] := by
        cases cs with
        | nil => rfl
        | cons c cs => exact absurd (hhead c rfl ▸ List.mem_cons_self) hn.2
      rw [marks] at hquote hhash
      rw [text, List.append_nil, marks_comment]
      exact ⟨hquote, congrArg (_ :: ·) hhash⟩
    | @lexeme kind us _ hl =>
      cases kind with
      | string s =>
        cases hl.lexeme with
        | @string us hq _ =>
          rw [text, marks_string hq]
          have hquoted : quoted? ⟨.lexeme (.string (String.ofList us)) ('"' :: us ++ ['"']),
              ⟨1, k⟩⟩ = some (k, '"' :: us ++ ['"']) := by
            simp [PlacedPiece.quoted?, token?, kind?, Token.quoted?]
          exact ⟨(List.filterMap_cons_some hquoted).trans (congrArg (_ :: ·) hquote), hhash⟩
      | _ =>
        rw [text, marks_append (unmarked_of_lexeme hl.lexeme (by simp))]
        exact ⟨hquote, hhash⟩
    | @skipped c _ hc =>
      have hpass : Unmarked [c] := by
        refine List.forall_mem_singleton.mpr ?_
        rintro (rfl | rfl)
        · exact hp.1 rfl
        · exact absurd hc (by decide)
      rw [text, marks_append hpass]
      exact ⟨hquote, hhash⟩

end Pieces

section Agreement

/-- The spans of a line that start with the character `q`, with their columns. -/
def spansFrom (q : Char) (line : List Char) : List (Nat × List Char) :=
  (inColumns 1 ((source line).map (·.text))).filter (opens q)

def comments (line : List Char) : List (Nat × List Char) :=
  (PlacedPiece.place .start (Piece.ofText line)).filterMap (·.comment?)

theorem mem_place_of_mem {p : Piece} {ps : List Piece} (hp : p ∈ ps) (l : Location) :
    ∃ q ∈ PlacedPiece.place l ps, q.piece = p := by
  induction ps generalizing l with
  | nil => cases hp
  | cons p' ps ih =>
    rcases List.mem_cons.mp hp with rfl | hp
    · exact ⟨_, List.mem_cons_self, rfl⟩
    · obtain ⟨q, hq, rfl⟩ := ih hp (l.after p'.text)
      exact ⟨q, List.mem_cons_of_mem _ hq, rfl⟩

variable {line : List Char}

theorem ne_skipped_of_errors (h : ∀ e ∈ (Scan.ofText line).errors, e.fault ≠ .unterminatedString) :
    ∀ p ∈ Piece.ofText line, p ≠ .skipped '"' := by
  rintro p hp rfl
  obtain ⟨q, hq, hpiece⟩ := mem_place_of_mem hp .start
  have herror : q.error? = some ⟨.unterminatedString, q.location⟩ := by
    rw [PlacedPiece.error?, hpiece]
    rfl
  exact h _ (List.mem_filterMap.mpr ⟨q, hq, herror⟩) rfl

theorem filterMap_quoted?_tokens (line : List Char) :
    (Scan.ofText line).tokens.filterMap (·.quoted?) =
      (PlacedPiece.place .start (Piece.ofText line)).filterMap (·.quoted?) := by
  rw [Scan.ofText, List.filterMap_append, List.filterMap_filterMap]
  exact List.append_nil _

/-- The spans of a line lose none of it and advance. On a line without breaks whose strings are all
closed, the strings among them are those of the tokens, and the comment is the one that the scan
passes. -/
theorem source_agrees (line : List Char) :
    (source line).flatMap (·.text) = line ∧ (∀ s ∈ source line, s.text ≠ []) ∧
    ('\n' ∉ line → (∀ e ∈ (Scan.ofText line).errors, e.fault ≠ .unterminatedString) →
      spansFrom '"' line = (Scan.ofText line).tokens.filterMap (·.quoted?) ∧
      spansFrom '#' line = comments line) := by
  refine ⟨flatMap_text_source line, fun _ => text_ne_nil_of_mem_source, fun hn he => ?_⟩
  obtain ⟨hquote, hhash⟩ :=
    filter_marks_of_cuts (Piece.cuts_ofText line) hn (ne_skipped_of_errors he) 1
  constructor
  · rw [spansFrom, filter_inColumns_source (.inl rfl), ← hquote, filterMap_quoted?_tokens]
    rfl
  · rw [spansFrom, filter_inColumns_source (.inr rfl), ← hhash]
    rfl

/-- A string with a hash in it, and a comment with a quote. -/
theorem source_agrees_print :
    let line := "print x.1e \"a # b\"; # \"c".toList
    spansFrom '"' line = [(12, "\"a # b\"".toList)] ∧
      spansFrom '#' line = [(21, "# \"c".toList)] := by
  intro line
  have herrors : ∀ e ∈ (Scan.ofText line).errors, e.fault ≠ .unterminatedString := by
    rw [Scan.ofText, Piece.ofText_eq_firstOfText (Nat.le_refl _)]
    decide +kernel
  obtain ⟨-, -, h⟩ := source_agrees line
  obtain ⟨hquote, hhash⟩ := h (by decide +kernel) herrors
  rw [hquote, hhash, comments, Scan.ofText, Piece.ofText_eq_firstOfText (Nat.le_refl _)]
  decide +kernel

end Agreement

end Viewer.Highlight

end MatrixLang
