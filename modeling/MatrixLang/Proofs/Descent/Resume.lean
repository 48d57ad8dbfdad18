import MatrixLang.Proofs.Descent.Reach
import MatrixLang.Proofs.Syntax.Earliest

/-! # Reading on

A cursor that has read a program, or has stopped at a syntax error, can be asked for another one.
However often it is, it never goes back and never passes the first end of the input, and what stands
behind that makes no difference.
-/

namespace MatrixLang

open Phrase (Inner Runs inner_append_iff)

namespace Cursor

/-- The cursor after it has been asked for `n` programs. -/
def after : Nat → Cursor → Cursor
  | 0, c => c
  | n + 1, c => (after n c).readProgram.2

/-- The number of tokens in front of the first end of the input. -/
def endIndex (c : Cursor) : Nat := (c.tokens.takeWhile (·.kind ≠ .endOfInput)).length

section Inside

variable {c : Cursor} {ts us rest : List Token} {t : Token} {p : Program} {x : Expectation}
  {i : Nat}

theorem le_endIndex_iff (hi : i ≤ c.tokens.length) :
    i ≤ c.endIndex ↔ Inner (c.tokens.take i) := by
  constructor
  · intro h t ht
    obtain ⟨bs, hb⟩ := List.takeWhile_prefix (l := c.tokens) (·.kind ≠ .endOfInput)
    rw [← hb, List.take_append_of_le_length h] at ht
    simpa using List.all_eq_true.mp List.all_takeWhile t (List.mem_of_mem_take ht)
  · intro h
    have hsplit : (c.tokens.take i ++ c.tokens.drop i).takeWhile (·.kind ≠ .endOfInput) =
        c.tokens.take i ++ (c.tokens.drop i).takeWhile (·.kind ≠ .endOfInput) :=
      List.takeWhile_append_of_pos fun t ht => by simpa using h t ht
    rw [List.take_append_drop] at hsplit
    rw [endIndex, hsplit, List.length_append, List.length_take]
    omega

/-- The cursor has not passed the first end of the input, and there is one. -/
structure IsInside (c : Cursor) : Prop where
  position_le : c.position ≤ c.endIndex
  endIndex_lt : c.endIndex < c.tokens.length

theorem IsInside.exists_index (h : c.IsInside) {moved : Bool} (hl : Leaves moved c.rest us) :
    ∃ i, c.position ≤ i ∧ i ≤ c.endIndex ∧ us = c.tokens.drop i := by
  obtain ⟨ps, hrest, hp, -⟩ := hl
  have hlen := congrArg List.length hrest
  simp only [Cursor.rest, List.length_append, List.length_drop] at hlen
  have hle := h.position_le
  have hlt := h.endIndex_lt
  refine ⟨c.position + ps.length, Nat.le_add_right _ _, ?_, ?_⟩
  · rw [le_endIndex_iff (by omega), List.take_add, inner_append_iff]
    refine ⟨(le_endIndex_iff (by omega)).mp hle, ?_⟩
    rw [show c.tokens.drop c.position = ps ++ us from hrest, List.take_left]
    exact hp
  · rw [← List.drop_drop, show c.tokens.drop c.position = ps ++ us from hrest, List.drop_left]

theorem read_of_runs {o : List Token → Outcome Program} (hts : ts = us ++ rest)
    (h : Runs Grammar.program 13 us t o) (ht : Token.head rest = t) :
    Nonterminal.program.read ts = o rest := by
  have hd : Phrase.Suffices (Grammar.depthFor (us ++ rest).length) (us ++ rest).length 13 :=
    Phrase.suffices_depthFor (by decide)
  rw [hts]
  exact h _ rest hd ht

/-- A program is read up to some token, or reading stops there, whatever comes behind. -/
theorem IsInside.exists_runs (h : c.IsInside) :
    ∃ us t rest o, c.rest = us ++ t :: rest ∧ c.position + us.length ≤ c.endIndex ∧
      Runs Grammar.program 13 us t o ∧ ((∃ p, o = .ok p) ∨ ∃ x, o = .error x) := by
  obtain ⟨us, rest, o, hrest, hruns, ho⟩ : ∃ us rest o, c.rest = us ++ rest ∧
      Runs Grammar.program 13 us (Token.head rest) o ∧ ((∃ p, o = .ok p) ∨ ∃ x, o = .error x) := by
    cases Phrase.program_settles c.rest with
    | passed hts h => exact ⟨_, _, _, hts, h, .inl ⟨_, rfl⟩⟩
    | stuck hts h _ => exact ⟨_, _, _, hts, h, .inr ⟨_, rfl⟩⟩
  have hleaves : Leaves false c.rest rest := by
    have hwithin := Nonterminal.program.within_read c.rest
    rw [read_of_runs hrest hruns rfl] at hwithin
    rcases ho with ⟨p, rfl⟩ | ⟨x, rfl⟩ <;> exact hwithin
  obtain ⟨i, hle, hi, rfl⟩ := h.exists_index hleaves
  have hlt := Nat.lt_of_le_of_lt hi h.endIndex_lt
  have hlen := congrArg List.length hrest
  simp only [Cursor.rest, List.length_append, List.length_drop] at hlen
  rw [List.drop_eq_getElem_cons hlt] at hrest hruns
  exact ⟨us, _, _, o, hrest, by omega, hruns, ho⟩

theorem moveTo_of_rest_eq (hrest : c.rest = us ++ t :: rest) :
    c.moveTo (t :: rest) = { c with position := c.position + us.length } := by
  have hlen := congrArg List.length hrest
  simp only [Cursor.rest, List.length_append, List.length_drop, List.length_cons] at hlen
  rw [moveTo, show c.tokens.length - (t :: rest).length = c.position + us.length by
    rw [List.length_cons]; omega]

theorem readProgram_of_runs_ok (hrest : c.rest = us ++ t :: rest)
    (h : Runs Grammar.program 13 us t (.ok p)) :
    c.readProgram = (.ok p, { c with position := c.position + us.length }) := by
  have hread : Grammar.program (Grammar.depthFor c.rest.length) c.rest = .ok p (t :: rest) :=
    read_of_runs hrest h rfl
  rw [readProgram, hread, ← moveTo_of_rest_eq hrest]

theorem readProgram_of_runs_error (hrest : c.rest = us ++ t :: rest)
    (h : Runs Grammar.program 13 us t (.error x)) :
    c.readProgram = (.error ⟨x, t⟩, { c with position := c.position + us.length }) := by
  have hread : Grammar.program (Grammar.depthFor c.rest.length) c.rest = .error x (t :: rest) :=
    read_of_runs hrest h rfl
  rw [readProgram, hread, ← moveTo_of_rest_eq hrest]
  rfl

theorem kind_of_runs (h : Runs Grammar.program 13 us t (.ok p)) : t.kind = .endOfInput := by
  have hread : Nonterminal.program.read (us ++ [t]) = .ok p [t] := read_of_runs rfl h rfl
  have hs : Nonterminal.program.read (us ++ [t]) =
      .ok p ((us ++ [t]).dropWhile (·.kind ≠ .endOfInput)) := (Phrase.program_sound hread).read
  rw [hread] at hs
  obtain ⟨-, hrest⟩ := Outcome.ok.inj hs
  exact (congrArg (fun ts => (Token.head ts).kind) hrest).trans Phrase.kind_head_dropWhile

theorem getElem?_of_rest_eq (hrest : c.rest = us ++ t :: rest) :
    c.tokens[c.position + us.length]? = some t := by
  rw [← List.getElem?_drop, ← Cursor.rest, hrest, List.getElem?_append_right (Nat.le_refl _),
    Nat.sub_self, List.getElem?_cons_zero]

theorem endIndex_le_of_kind (hget : c.tokens[i]? = some t) (hk : t.kind = .endOfInput) :
    c.endIndex ≤ i := by
  by_contra hle
  have hlt : i + 1 ≤ c.endIndex := Nat.lt_of_not_le hle
  obtain ⟨hi, -⟩ := List.getElem?_eq_some_iff.mp hget
  have hmem : t ∈ c.tokens.take (i + 1) :=
    List.mem_of_getElem? ((List.getElem?_take_of_lt (Nat.lt_succ_self i)).trans hget)
  exact (le_endIndex_iff (Nat.succ_le_of_lt hi)).mp hlt t hmem hk

theorem isInside_ofTokens (ts : List Token) : (ofTokens ts).IsInside := by
  refine ⟨Nat.zero_le _, ?_⟩
  obtain ⟨t, ht, hk⟩ : ∃ t ∈ closeTokens ts, t.kind = .endOfInput := by
    rcases Phrase.closeTokens_cases ts with ⟨h, ht⟩ | ⟨t, hk, h⟩
    · rwa [h]
    · rw [h]
      exact ⟨t, List.mem_append_right ts (List.mem_singleton_self t), hk⟩
  obtain ⟨i, hget⟩ := List.mem_iff_getElem?.mp ht
  obtain ⟨hi, -⟩ := List.getElem?_eq_some_iff.mp hget
  exact Nat.lt_of_le_of_lt (endIndex_le_of_kind hget hk) hi

/-- What a call does: it stands only in front of tokens up to the first end of the input, is there
after a program, and at the token that it reports after an error. -/
structure IsSafe (c : Cursor) : Prop where
  visits : ∀ us, Nonterminal.program.Visits c.rest us →
    ∃ i, c.position ≤ i ∧ i ≤ c.endIndex ∧ us = c.tokens.drop i
  tokens_eq : c.readProgram.2.tokens = c.tokens
  position_le : c.position ≤ c.readProgram.2.position
  ok : ∀ p, c.readProgram.1 = .ok p → c.readProgram.2.position = c.endIndex
  error : ∀ e, c.readProgram.1 = .error e → c.tokens[c.readProgram.2.position]? = some e.found

theorem IsInside.isSafe (h : c.IsInside) : c.IsSafe := by
  have hvisits (us) (hv : Nonterminal.program.Visits c.rest us) := h.exists_index hv.leaves
  obtain ⟨us, t, rest, o, hrest, hi, hruns, ⟨p, rfl⟩ | ⟨x, rfl⟩⟩ := h.exists_runs
  · have hend := endIndex_le_of_kind (getElem?_of_rest_eq hrest) (kind_of_runs hruns)
    refine ⟨hvisits, ?_, ?_, ?_, ?_⟩ <;> rw [readProgram_of_runs_ok hrest hruns]
    · exact Nat.le_add_right _ _
    · exact fun _ _ => Nat.le_antisymm hi hend
    · rintro e ⟨⟩
  · refine ⟨hvisits, ?_, ?_, ?_, ?_⟩ <;> rw [readProgram_of_runs_error hrest hruns]
    · exact Nat.le_add_right _ _
    · exact nofun
    · rintro e ⟨⟩
      exact getElem?_of_rest_eq hrest

theorem IsInside.readProgram (h : c.IsInside) : c.readProgram.2.IsInside := by
  obtain ⟨us, t, rest, o, hrest, hi, hruns, ⟨p, rfl⟩ | ⟨x, rfl⟩⟩ := h.exists_runs
  · rw [readProgram_of_runs_ok hrest hruns]
    exact ⟨hi, h.endIndex_lt⟩
  · rw [readProgram_of_runs_error hrest hruns]
    exact ⟨hi, h.endIndex_lt⟩

end Inside

section Agreement

variable {c c' : Cursor} {us rest : List Token} {t : Token}

/-- Two cursors stand at the same place of tokens that are equal up to the first end of input. -/
structure Agree (c c' : Cursor) : Prop where
  position_eq : c'.position = c.position
  take_eq : c'.tokens.take (c.endIndex + 1) = c.tokens.take (c.endIndex + 1)

theorem Agree.exists_rest (h : c.Agree c') (hrest : c.rest = us ++ t :: rest)
    (hi : c.position + us.length ≤ c.endIndex) : ∃ rest', c'.rest = us ++ t :: rest' := by
  have hlen : us.length + 1 ≤ c.endIndex + 1 - c.position := by omega
  have htake : c'.rest.take (us.length + 1) = us ++ [t] := by
    have heq := congrArg (fun l => (l.drop c.position).take (us.length + 1)) h.take_eq
    simp only [List.drop_take, List.take_take, Nat.min_eq_left hlen] at heq
    rw [Cursor.rest, h.position_eq, heq, ← Cursor.rest, hrest, List.append_cons us t rest]
    exact List.take_left' List.length_append
  refine ⟨c'.rest.drop (us.length + 1), ?_⟩
  rw [List.append_cons, ← htake, List.take_append_drop]

theorem Agree.readProgram (h : c.Agree c') (hc : c.IsInside) :
    c'.readProgram.1 = c.readProgram.1 ∧ c.readProgram.2.Agree c'.readProgram.2 := by
  obtain ⟨us, t, rest, o, hrest, hi, hruns, ho⟩ := hc.exists_runs
  obtain ⟨rest', hrest'⟩ := h.exists_rest hrest hi
  have hposition := congrArg (· + us.length) h.position_eq
  rcases ho with ⟨p, rfl⟩ | ⟨x, rfl⟩
  · rw [readProgram_of_runs_ok hrest hruns, readProgram_of_runs_ok hrest' hruns]
    exact ⟨rfl, hposition, h.take_eq⟩
  · rw [readProgram_of_runs_error hrest hruns, readProgram_of_runs_error hrest' hruns]
    exact ⟨rfl, hposition, h.take_eq⟩

theorem IsInside.after (h : c.IsInside) (n : Nat) :
    (after n c).IsInside ∧ (after n c).tokens = c.tokens := by
  induction n with
  | zero => exact ⟨h, rfl⟩
  | succ n ih => exact ⟨ih.1.readProgram, ih.1.isSafe.tokens_eq.trans ih.2⟩

theorem Agree.after (h : c.Agree c') (hc : c.IsInside) (n : Nat) :
    (after n c).Agree (after n c') := by
  induction n with
  | zero => exact h
  | succ n ih => exact (ih.readProgram (hc.after n).1).2

end Agreement

section Resumed

/-- Programs can be read from any tokens, as often as one likes. The cursor never passes the first
end of the input and never goes back, it is there after a program, and at the token that is reported
after an error. What stands behind the first end of the input has no part in any of this. -/
theorem after_isSafe (ts : List Token) (n : Nat) :
    (after n (ofTokens ts)).tokens = closeTokens ts ∧
    (after n (ofTokens ts)).position ≤ (ofTokens ts).endIndex ∧
    (ofTokens ts).endIndex < (closeTokens ts).length ∧
    (after n (ofTokens ts)).IsSafe ∧
    ∀ us, (closeTokens us).take ((ofTokens ts).endIndex + 1) =
        (closeTokens ts).take ((ofTokens ts).endIndex + 1) →
      (after n (ofTokens us)).readProgram.1 = (after n (ofTokens ts)).readProgram.1 ∧
        (after n (ofTokens us)).position = (after n (ofTokens ts)).position := by
  have hstart := isInside_ofTokens ts
  obtain ⟨hinside, htokens⟩ := hstart.after n
  refine ⟨htokens, ?_, hstart.endIndex_lt, hinside.isSafe, fun us hus => ?_⟩
  · have hle := hinside.position_le
    rwa [endIndex, htokens] at hle
  · have hagree := (Agree.mk rfl hus : (ofTokens ts).Agree (ofTokens us)).after hstart n
    exact ⟨(hagree.readProgram hinside).1, hagree.position_eq⟩

/-- The tokens of `a = 1 b;`, where a semicolon is missing, and one more behind the end. -/
def brokenTokens : List Token :=
  [Phrase.tokenAt (.name "a") 1, Phrase.tokenAt (.symbol (.assign .plain)) 3,
    Phrase.tokenAt (.integer 1) 5, Phrase.tokenAt (.name "b") 7,
    Phrase.tokenAt (.symbol .semicolon) 8, Phrase.tokenAt .endOfInput 9,
    Phrase.tokenAt (.name "c") 1]

/-- The first call stops at the token that it reports, and the second one reads on from there to the
end of the input, as it does without the token behind. -/
theorem after_brokenTokens :
    ∃ e p, (ofTokens brokenTokens).readProgram.1 = .error e ∧
      (ofTokens brokenTokens).tokens[(after 1 (ofTokens brokenTokens)).position]? = some e.found ∧
      e.found = Phrase.tokenAt (.name "b") 7 ∧
      (after 1 (ofTokens brokenTokens)).readProgram.1 = .ok p ∧
      (after 2 (ofTokens brokenTokens)).position = 5 ∧
      (after 1 (ofTokens (brokenTokens.take 6))).readProgram.1 = .ok p := by
  have hbroken : (ofTokens brokenTokens).readProgram.1 =
      .error ⟨.terminator .assignment, Phrase.tokenAt (.name "b") 7⟩ := rfl
  obtain ⟨p, hread⟩ : ∃ p, (after 1 (ofTokens brokenTokens)).readProgram.1 = .ok p := ⟨_, rfl⟩
  obtain ⟨-, -, -, hfirst, -⟩ := after_isSafe brokenTokens 0
  obtain ⟨-, -, -, hsecond, hagree⟩ := after_isSafe brokenTokens 1
  have hend : (after 1 (ofTokens brokenTokens)).endIndex = 5 := rfl
  exact ⟨_, p, hbroken, hfirst.error _ hbroken, rfl, hread, (hsecond.ok p hread).trans hend,
    (hagree (brokenTokens.take 6) rfl).1.trans hread⟩

end Resumed

end Cursor

end MatrixLang
