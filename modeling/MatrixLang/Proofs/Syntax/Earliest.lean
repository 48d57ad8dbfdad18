import MatrixLang.Proofs.Syntax.SentenceSettled

/-! # Syntax errors

A syntax error lies at the first token with which no program goes on. The tokens in front of it can
be completed to a program, and no later token has a part in the error. So reading stops at the end
of the input exactly if more tokens could still make a program.
-/

namespace MatrixLang.Phrase

open Grammar Rule

section Cursor

variable {ts us vs rest : List Token}

theorem closeTokens_cases (ts : List Token) :
    (Cursor.closeTokens ts = ts ∧ ∃ t ∈ ts, t.kind = .endOfInput) ∨
      ∃ t, t.kind = .endOfInput ∧ Cursor.closeTokens ts = ts ++ [t] := by
  unfold Cursor.closeTokens
  cases hl : ts.getLast? with
  | none =>
    obtain rfl := List.getLast?_eq_none_iff.mp hl
    exact .inr ⟨⟨.endOfInput, .nowhere⟩, rfl, rfl⟩
  | some t =>
    dsimp only
    split
    next ht => exact .inl ⟨rfl, t, List.mem_of_getLast? hl, ht⟩
    next => exact .inr ⟨⟨.endOfInput, t.location⟩, rfl, rfl⟩

theorem prefix_closeTokens (ts : List Token) : ts <+: Cursor.closeTokens ts := by
  rcases closeTokens_cases ts with ⟨h, _⟩ | ⟨t, _, h⟩
  · exact ⟨[], by rw [h, List.append_nil]⟩
  · exact ⟨[t], h.symm⟩

theorem takeWhile_closeTokens (ts : List Token) :
    (Cursor.closeTokens ts).takeWhile (·.kind ≠ .endOfInput) =
      ts.takeWhile (·.kind ≠ .endOfInput) := by
  rcases closeTokens_cases ts with ⟨h, _⟩ | ⟨t, ht, h⟩
  · rw [h]
  · rw [h, takeWhile_append_endOfInput ht]

/-- Inner tokens are followed by another one, since the end of the input comes behind them. -/
theorem exists_cons_of_closeTokens_eq (h : Cursor.closeTokens ts = us ++ rest) (hu : Inner us) :
    ∃ t ts', rest = t :: ts' := by
  have hmem : ∃ t ∈ Cursor.closeTokens ts, t.kind = .endOfInput := by
    rcases closeTokens_cases ts with ⟨h, ht⟩ | ⟨t, ht, h⟩
    · rwa [h]
    · exact ⟨t, by simp [h], ht⟩
  cases rest with
  | nil =>
    obtain ⟨t, ht, hk⟩ := hmem
    rw [h, List.append_nil] at ht
    exact absurd hk (hu t ht)
  | cons t ts' => exact ⟨t, ts', rfl⟩

theorem eq_take_of_closeTokens_eq {t : Token} (h : Cursor.closeTokens ts = us ++ t :: rest) :
    us = ts.take us.length := by
  rcases closeTokens_cases ts with ⟨hts, _⟩ | ⟨t', _, hts⟩
  · rw [hts] at h
    rw [h, List.take_left]
  · rw [hts] at h
    have hl := congrArg List.length h
    simp only [List.length_append, List.length_cons, List.length_nil] at hl
    have ht := congrArg (List.take us.length) h
    rw [List.take_left, List.take_append_of_le_length (by omega)] at ht
    exact ht.symm

end Cursor

section Programs

variable {ts us vs rest : List Token} {t : Token} {x : Expectation} {e : SyntaxError} {c : Cursor}

/-- The tokens begin the statements of a program. -/
abbrev Begins (us : List Token) : Prop :=
  Viable (fun us ss => Statements true us .endOfInput ss) us

theorem Begins.inner (h : Begins us) : Inner us := by
  obtain ⟨ws, ss, h⟩ := h
  exact (inner_append_iff.mp h.inner).1

theorem Begins.exists_program (h : Begins us) :
    ∃ ws p, Program.ofTokens (us ++ ws) = .ok p := by
  obtain ⟨ws, ss, h⟩ := h
  have hw : List.takeWhile (fun t : Token => t.kind ≠ .endOfInput) (us ++ ws ++ []) = us ++ ws :=
    takeWhile_append_of_inner h.inner rfl
  rw [List.append_nil] at hw
  refine ⟨ws, ⟨ss, (Token.head (us ++ ws)).location⟩, ofTokens_eq_ok_iff.mpr ⟨?_, rfl⟩⟩
  rwa [hw]

theorem program_settles (ts : List Token) : Settles program 13 Begins ts := by
  have hd : Suffices (rank * ts.length + 13) ts.length 13 := Nat.le_refl _
  exact settles_peek (.map _ (statements_settles hd))

theorem readProgram_of_runs (hts : Cursor.closeTokens ts = us ++ rest)
    (h : Runs program 13 us (Token.head rest) (.error x)) :
    (Cursor.ofTokens ts).readProgram =
      (.error ⟨x, Token.head rest⟩, ⟨Cursor.closeTokens ts, us.length⟩) := by
  have hd : Suffices (depthFor (us ++ rest).length) (us ++ rest).length 13 :=
    suffices_depthFor (by decide)
  rw [Cursor.readProgram, rest_ofTokens, hts, h _ rest hd rfl]
  simp [Cursor.moveTo, Cursor.ofTokens, hts]

/-- Where reading stops with an error, the tokens so far begin a program, and every list of tokens
that goes on with the same token makes it stop there. -/
theorem exists_runs_of_readProgram (h : (Cursor.ofTokens ts).readProgram = (.error e, c)) :
    ∃ us t rest, Cursor.closeTokens ts = us ++ t :: rest ∧ c.position = us.length ∧ e.found = t ∧
      Begins us ∧ Runs program 13 us t (.error e.expected) := by
  cases program_settles (Cursor.closeTokens ts) with
  | @passed us rest p hts hp =>
    have hd : Suffices (depthFor (us ++ rest).length) (us ++ rest).length 13 :=
      suffices_depthFor (by decide)
    rw [Cursor.readProgram, rest_ofTokens, hts, hp _ rest hd rfl] at h
    simp at h
  | @stuck us rest x hts hx hu =>
    rw [readProgram_of_runs hts hx] at h
    obtain ⟨rfl, rfl⟩ : ⟨x, Token.head rest⟩ = e ∧ ⟨Cursor.closeTokens ts, us.length⟩ = c := by
      simpa using h
    obtain ⟨t, rest, rfl⟩ := exists_cons_of_closeTokens_eq hts hu.inner
    exact ⟨us, t, rest, hts, rfl, rfl, hu, hx⟩

theorem exists_cursor_of_ofTokens (h : Program.ofTokens ts = .error e) :
    ∃ c, (Cursor.ofTokens ts).readProgram = (.error e, c) :=
  ⟨_, Prod.ext h rfl⟩

/-- Reading stops at the end of the input exactly if the tokens in front of it are no program but
begin one. -/
theorem isIncomplete_iff :
    (∃ e, Program.ofTokens ts = .error e ∧ e.isIncomplete = true) ↔
      (∀ p, Program.ofTokens ts ≠ .ok p) ∧
        ∃ us p, Program.ofTokens (ts.takeWhile (·.kind ≠ .endOfInput) ++ us) = .ok p := by
  constructor
  · rintro ⟨e, he, hi⟩
    refine ⟨fun p hp => by simp [he] at hp, ?_⟩
    obtain ⟨c, hc⟩ := exists_cursor_of_ofTokens he
    obtain ⟨us, t, rest, hts, _, rfl, hu, _⟩ := exists_runs_of_readProgram hc
    have hk : (Token.head (e.found :: rest)).kind = .endOfInput := by
      simpa [SyntaxError.isIncomplete] using hi
    rw [← takeWhile_closeTokens, hts, takeWhile_append_of_inner hu.inner hk]
    exact hu.exists_program
  · rintro ⟨hn, us, p, hp⟩
    cases he : Program.ofTokens ts with
    | ok p => exact absurd he (hn p)
    | error e =>
      refine ⟨e, rfl, ?_⟩
      obtain ⟨c, hc⟩ := exists_cursor_of_ofTokens he
      obtain ⟨vs, t, rest, hts, _, rfl, hu, hx⟩ := exists_runs_of_readProgram hc
      by_contra hk
      have hk' : decide (e.found.kind ≠ .endOfInput) = true := by
        simpa [SyntaxError.isIncomplete] using hk
      have hw : ts.takeWhile (·.kind ≠ .endOfInput) =
          vs ++ e.found :: rest.takeWhile (·.kind ≠ .endOfInput) := by
        rw [← takeWhile_closeTokens, hts,
          List.takeWhile_append_of_pos fun t ht => by simpa using hu.inner t ht,
          List.takeWhile_cons, if_pos hk']
      obtain ⟨ws, hc⟩ := prefix_closeTokens (ts.takeWhile (·.kind ≠ .endOfInput) ++ us)
      rw [hw] at hp hc
      simp only [List.append_assoc, List.cons_append] at hp hc
      have hr := readProgram_of_runs hc.symm hx
      rw [Program.ofTokens, hr] at hp
      cases hp

/-- A syntax error is found at the earliest token, and it is one at the end of the input exactly if
the program is incomplete. -/
theorem readProgram_earliest (ts : List Token) :
    (∀ e c, (Cursor.ofTokens ts).readProgram = (.error e, c) →
      (Cursor.ofTokens ts).tokens[c.position]? = some e.found ∧
      (∃ us p, Program.ofTokens (ts.take c.position ++ us) = .ok p) ∧
      ∀ vs, (Cursor.ofTokens vs).tokens.take (c.position + 1) =
          (Cursor.ofTokens ts).tokens.take (c.position + 1) →
        (Cursor.ofTokens vs).readProgram =
          (.error e, { Cursor.ofTokens vs with position := c.position })) ∧
    ((∃ e, Program.ofTokens ts = .error e ∧ e.isIncomplete = true) ↔
      (∀ p, Program.ofTokens ts ≠ .ok p) ∧
        ∃ us p, Program.ofTokens (ts.takeWhile (·.kind ≠ .endOfInput) ++ us) = .ok p) := by
  refine ⟨fun e c h => ?_, isIncomplete_iff⟩
  obtain ⟨us, t, rest, hts, hp, rfl, hu, hx⟩ := exists_runs_of_readProgram h
  have htokens : (Cursor.ofTokens ts).tokens = us ++ e.found :: rest := hts
  rw [hp, htokens]
  refine ⟨by simp, ?_, fun vs hv => ?_⟩
  · rw [← eq_take_of_closeTokens_eq hts]
    exact hu.exists_program
  · have hv' : (Cursor.closeTokens vs).take (us.length + 1) = us ++ [e.found] := by
      rw [List.take_length_add_append] at hv
      exact hv
    have hvs : Cursor.closeTokens vs =
        us ++ e.found :: (Cursor.closeTokens vs).drop (us.length + 1) := by
      have h := List.take_append_drop (us.length + 1) (Cursor.closeTokens vs)
      rw [hv', List.append_assoc] at h
      exact h.symm
    exact readProgram_of_runs hvs hx

/-- The tokens of `x = `, an assignment without its value. -/
def unfinishedTokens : List Token :=
  [tokenAt (.name "x") 1, tokenAt (.symbol (.assign .plain)) 3]

def unfinishedError : SyntaxError := ⟨.expression, tokenAt .endOfInput 3⟩

theorem readProgram_unfinishedTokens :
    (Cursor.ofTokens unfinishedTokens).readProgram =
        (.error unfinishedError, { Cursor.ofTokens unfinishedTokens with position := 2 }) ∧
      (Cursor.ofTokens unfinishedTokens).tokens[2]? = some unfinishedError.found ∧
      ∃ us p, Program.ofTokens (unfinishedTokens ++ us) = .ok p := by
  have hr : (Cursor.ofTokens unfinishedTokens).readProgram =
      (.error unfinishedError, { Cursor.ofTokens unfinishedTokens with position := 2 }) := rfl
  obtain ⟨hf, hc, _⟩ := (readProgram_earliest unfinishedTokens).1 _ _ hr
  exact ⟨hr, hf, hc⟩

end Programs

end MatrixLang.Phrase
