import MatrixLang.Proofs.Syntax.SentenceSound

/-! # Statements that can be read

A rule reads every statement that the grammar derives in front of the token behind it. An expression
that starts with a name starts with a variable, so going back to it from a missing assignment
operator loses nothing.
-/

namespace MatrixLang.Phrase

open Grammar Rule

section Leading

/-- The tokens start with a variable, and an operator follows it if anything does. -/
def Leads (us : List Token) : Prop :=
  ∃ vs ws r, us = vs ++ ws ∧ Variable vs r ∧
    ∀ w ∈ ws.head?, w.kind = .symbol .transpose ∨ ∃ c : Connective, w.kind = .symbol c.symbol

theorem Leads.append_cons {us vs : List Token} {t : Token} (h : Leads us)
    (ht : t.kind = .symbol .transpose ∨ ∃ c : Connective, t.kind = .symbol c.symbol) :
    Leads (us ++ t :: vs) := by
  obtain ⟨us, ws, r, rfl, hr, hw⟩ := h
  refine ⟨us, ws ++ t :: vs, r, List.append_assoc .., hr, ?_⟩
  cases ws with
  | nil => simpa using ht
  | cons w ws => simpa using hw

theorem Primary.leads {us : List Token} {e : Node} {x : String} (h : Primary us e)
    (hx : (Token.head us).kind = .name x) : Leads us := by
  cases h with
  | reference h => exact ⟨us, [], _, (List.append_nil us).symm, h, by simp⟩
  | integer ht => simp [ht] at hx
  | float ht => simp [ht] at hx
  | string ht => simp [ht] at hx
  | builtin ht => simp [ht] at hx
  | matrix ho => simp [ho] at hx
  | parentheses ho => simp [ho] at hx

theorem Transposed.leads {x us e} :
    Transposed us e → (Token.head us).kind = .name x → Leads us
  | .primary h, hx => h.leads hx
  | .transpose h ht, hx => by
    rw [Token.head_append h.starts.ne_nil] at hx
    exact (h.leads hx).append_cons (.inl ht)

theorem Negation.leads {us : List Token} {e : Node} {x : String} (h : Negation us e)
    (hx : (Token.head us).kind = .name x) : Leads us := by
  cases h with
  | transposed h => exact h.leads hx
  | negate ht => simp [ht] at hx

mutual

theorem Chain.leads {x l us e} : Chain l us e → (Token.head us).kind = .name x → Leads us
  | .operand h, hx => h.leads hx
  | .join h _ ht _, hx => by
    rw [Token.head_append h.starts.ne_nil] at hx
    exact (h.leads hx).append_cons (.inr ⟨_, ht⟩)

theorem Operand.leads {x l us e} : Operand l us e → (Token.head us).kind = .name x → Leads us
  | .equality h, hx => h.leads hx
  | .relational h, hx => h.leads hx
  | .additive h, hx => h.leads hx
  | .multiplicative h, hx => h.leads hx

end

end Leading

section Parts

variable {d : Nat} {us rest : List Token} {t : Token}

theorem Terminates.kind_eq (h : Terminates t) :
    ∃ m, t.kind = .symbol m ∧ isDelimiter m = true ∧ ∀ op, m ≠ .assign op := by
  rcases h with h | h
  · exact ⟨.semicolon, h, rfl, nofun⟩
  · exact ⟨.comma, h, rfl, nofun⟩

theorem ends_of_isDelimiter {k : Kind} {m : Symbol} (hk : k = .symbol m)
    (hm : isDelimiter m = true) : Ends us k :=
  stops_zero_iff.mp (stops_of_isDelimiter hk hm)

theorem Terminates.ends (h : Terminates t) : Ends us t.kind := by
  obtain ⟨m, hk, hm, _⟩ := h.kind_eq
  exact ends_of_isDelimiter hk hm

theorem values_read {es : List Node} (h : Expressions us es)
    (hd : Suffices d (us ++ rest).length 12) (hs : Ends us (Token.head rest).kind)
    (hn : (Token.head rest).kind = .symbol .comma → ¬ Opens (Token.head (rest.drop 1)).kind) :
    values d (us ++ rest) = .ok es rest := by
  induction es generalizing us d with
  | nil => cases h
  | cons e es ih =>
    obtain ⟨d, rfl, hd'⟩ := hd.exists_succ (by decide)
    cases h with
    | one h =>
      have hc : continuingComma rest = .ok false rest :=
        continuingComma_eq_ok_iff.mpr (.inr ⟨rfl, rfl, hn⟩)
      rw [values, bind_of_eq_ok (Expression.read h hd' hs), bind_of_eq_ok hc]
      rfl
    | @more us t vs _ _ h ht hes =>
      rw [List.append_assoc, List.cons_append] at hd' ⊢
      have ht' : Ends us (Token.head (t :: (vs ++ rest))).kind := ends_of_isDelimiter ht rfl
      have ho : Opens (Token.head (vs ++ rest)).kind := by
        rw [Token.head_append hes.starts.ne_nil]
        exact startsExpression_iff_opens.mp hes.starts.startsExpression_head
      have hc : continuingComma (t :: (vs ++ rest)) = .ok true (vs ++ rest) :=
        continuingComma_eq_ok_iff.mpr (.inl ⟨rfl, t, ht, rfl, ho⟩)
      have hs' := stops_zero_iff.mp (stops_zero_iff.mpr hs).of_append_cons
      rw [values, bind_of_eq_ok (Expression.read h hd' ht'), bind_of_eq_ok hc, if_pos rfl,
        bind_of_eq_ok (ih hes (hd'.right.mono (by decide)) hs')]
      rfl

theorem Payload.read {i : Instruction} {es : List Node} (h : Payload i us es)
    (hd : Suffices d (us ++ t :: rest).length 12) (ht : Terminates t)
    (hn : us ≠ [] → t.kind = .symbol .comma → ¬ Opens (Token.head rest).kind) :
    payload d i (us ++ t :: rest) = .ok es (t :: rest) := by
  cases h with
  | breakLoop => rfl
  | continueLoop => rfl
  | returnNothing =>
    have hk : ¬ (Token.head (t :: rest)).kind.startsExpression = true := by
      rcases ht with h | h <;> simp [h, Kind.startsExpression]
    rw [payload, List.nil_append, peek_bind, if_neg hk]
    rfl
  | returnValues h =>
    have hk : (Token.head (us ++ t :: rest)).kind.startsExpression = true := by
      rw [Token.head_append h.starts.ne_nil]
      exact h.starts.startsExpression_head
    simp only [payload, peek_bind, hk]
    exact values_read h hd ht.ends (hn h.starts.ne_nil)
  | printValues h => exact values_read h hd ht.ends (hn h.starts.ne_nil)

theorem condition_read {w : Keyword} {e : Node} {o c : Token} (ho : o.kind = .symbol .leftParen)
    (h : Expression us e) (hc : c.kind = .symbol .rightParen)
    (hd : Suffices d (us ++ c :: rest).length 11) :
    condition d w (o :: (us ++ c :: rest)) = .ok e rest := by
  have hs : Ends us (Token.head (c :: rest)).kind := ends_of_isDelimiter hc rfl
  rw [condition, bind_of_eq_ok (expect_cons ho), bind_of_eq_ok (h.read hd hs),
    bind_of_eq_ok (expect_cons hc)]
  rfl

theorem bounds_read {lower upper : Node} {c : Token} {vs : List Token} (hl : Expression us lower)
    (hc : c.kind = .symbol .colon) (hu : Expression vs upper)
    (hs : Ends vs (Token.head rest).kind) (hd : Suffices d (us ++ c :: (vs ++ rest)).length 11) :
    bounds d (us ++ c :: (vs ++ rest)) = .ok ⟨lower, upper, c.location⟩ rest := by
  have hc' : Ends us (Token.head (c :: (vs ++ rest))).kind := ends_of_isDelimiter hc rfl
  have hv : Suffices d (vs ++ rest).length 11 := hd.right.mono (by decide)
  rw [bounds, bind_of_eq_ok (hl.read hd hc'), peek_bind, bind_of_eq_ok (expect_cons hc),
    bind_of_eq_ok (hu.read hv hs)]
  rfl

theorem expressionStatement_read {e : Node} (h : Expression us e) (ht : Terminates t)
    (hd : Suffices d (us ++ t :: rest).length 11) :
    expressionStatement d (us ++ t :: rest) =
      .ok (.expression e (Token.head us).location) rest := by
  rw [expressionStatement, peek_bind, Token.head_append (Chain.starts h).ne_nil,
    bind_of_eq_ok (h.read hd ht.ends), bind_of_eq_ok (terminator_cons ht)]
  rfl

theorem assignmentOrExpression_read {e : Node} {x : String} (h : Expression us e)
    (ht : Terminates t) (hx : (Token.head us).kind = .name x)
    (hd : Suffices d (us ++ t :: rest).length 11) :
    assignmentOrExpression d (us ++ t :: rest) =
      .ok (.expression e (Token.head us).location) rest := by
  obtain ⟨vs, ws, r, rfl, hr, hw⟩ := Chain.leads h hx
  have hk : ∃ m, (Token.head (ws ++ t :: rest)).kind = .symbol m ∧ m ≠ .leftBracket ∧
      ∀ op, m ≠ .assign op := by
    cases ws with
    | nil =>
      obtain ⟨m, hk, hm, ha⟩ := ht.kind_eq
      exact ⟨m, hk, by rintro rfl; simp [isDelimiter] at hm, ha⟩
    | cons w ws =>
      rcases hw w rfl with hw | ⟨c, hw⟩
      · exact ⟨_, hw, by simp, by simp⟩
      · refine ⟨_, hw, ?_, ?_⟩ <;> cases c <;> simp [Connective.symbol]
  obtain ⟨m, hk, hb, ha⟩ := hk
  have hv : reference d (vs ++ (ws ++ t :: rest)) = .ok r (ws ++ t :: rest) := by
    refine hr.read ?_ fun _ => by simpa [hk] using hb
    simpa using hd.mono (by decide : 1 ≤ 11)
  rw [List.append_assoc, assignmentOrExpression_of_ne hv fun op => by simpa [hk] using ha op,
    ← List.append_assoc]
  exact expressionStatement_read h ht hd

end Parts

section Reading

variable {us : List Token} {k : Kind}

theorem Expression.kind_head {e : Node} (h : Expression us e) :
    (Token.head us).kind.startsExpression = true :=
  (Chain.starts h).startsExpression_head

theorem Statement.kind_head {chained : Bool} {s : Node} (h : Statement chained us k s) :
    (Token.head us).kind.startsExpression = true ∨ ∃ w, (Token.head us).kind = .keyword w := by
  cases h with
  | assignment h =>
    rw [List.append_assoc, Token.head_append h.starts.ne_nil]
    exact .inl h.starts.startsExpression_head
  | expression h =>
    rw [Token.head_append (Chain.starts h).ne_nil]
    exact .inl h.kind_head
  | conditional h =>
    cases h with
    | mk ht => exact .inr ⟨_, ht⟩
  | instruction ht => exact .inr ⟨_, ht⟩
  | whileLoop ht => exact .inr ⟨_, ht⟩
  | forLoop ht => exact .inr ⟨_, ht⟩

theorem Statement.kind_head_ne {chained : Bool} {s : Node} (h : Statement chained us k s) :
    (Token.head us).kind ≠ .endOfInput ∧ (Token.head us).kind ≠ .symbol .leftBrace ∧
      (Token.head us).kind ≠ .symbol .rightBrace := by
  rcases h.kind_head with h | ⟨w, h⟩
  · refine ⟨?_, ?_, ?_⟩ <;> intro hk <;> simp [hk, Kind.startsExpression] at h
  · simp [h]

theorem statement_of_startsExpression {d : Nat} {ts : List Token}
    (h : (Token.head ts).kind.startsExpression = true) (hx : ∀ x, (Token.head ts).kind ≠ .name x) :
    statement (d + 1) ts = expressionStatement d ts := by
  rw [statement, peek_bind]
  cases hk : (Token.head ts).kind with
  | name x => exact absurd hk (hx x)
  | keyword w =>
    cases w with
    | builtin b => rfl
    | _ => simp [hk, Kind.startsExpression] at h
  | _ => rfl

mutual

theorem Statement.read : ∀ {us k s}, Statement true us k s → ∀ {d rest},
    Suffices d (us ++ rest).length 12 → (Token.head rest).kind = k →
    statement d (us ++ rest) = .ok s rest
  | _, _, _, @Statement.assignment _ us t vs u k r op e hr ht he hu, d, rest, hd, hk => by
    obtain ⟨d, rfl, hd'⟩ := hd.exists_succ (by decide)
    simp only [List.append_assoc, List.cons_append, List.nil_append] at hd' ⊢
    obtain ⟨x, hx⟩ := hr.kind_head
    have h₁ : reference d (us ++ t :: (vs ++ u :: rest)) = .ok r (t :: (vs ++ u :: rest)) :=
      hr.read (hd'.mono (by decide)) fun _ => by simp [ht]
    have h₂ : expression d (vs ++ u :: rest) = .ok e (u :: rest) :=
      he.read (hd'.right.mono (by decide)) hu.ends
    rw [statement, peek_bind, Token.head_append hr.starts.ne_nil]
    simp only [hx]
    rw [assignmentOrExpression, remaining_bind, bind_of_eq_ok h₁, peek_bind, Token.head_cons]
    simp only [ht, skip_bind_cons]
    rw [bind_of_eq_ok h₂, bind_of_eq_ok (terminator_cons hu)]
    rfl
  | _, _, _, @Statement.instruction _ t us u k i es ht hes hu hn, d, rest, hd, hk => by
    obtain ⟨d, rfl, hd'⟩ := hd.exists_succ (by decide)
    simp only [List.append_assoc, List.cons_append, List.nil_append] at hd' ⊢
    have h₁ : payload d i (us ++ u :: rest) = .ok es (u :: rest) :=
      hes.read (hd'.tail.mono (by decide)) hu (hk ▸ hn)
    rw [statement, peek_bind, Token.head_cons]
    simp only [ht, skip_bind_cons]
    rw [bind_of_eq_ok h₁, bind_of_eq_ok (terminator_cons hu)]
    rfl
  | _, _, _, @Statement.expression _ us u k e he hu, d, rest, hd, hk => by
    obtain ⟨d, rfl, hd'⟩ := hd.exists_succ (by decide)
    simp only [List.append_assoc, List.cons_append, List.nil_append] at hd' ⊢
    have hh := Token.head_append (Chain.starts he).ne_nil (u :: rest)
    by_cases hx : ∃ x, (Token.head us).kind = .name x
    · obtain ⟨x, hx⟩ := hx
      rw [statement, peek_bind, hh]
      simp only [hx]
      exact assignmentOrExpression_read he hu hx hd'
    · rw [statement_of_startsExpression (hh ▸ he.kind_head)
        fun x hx' => hx ⟨x, hh ▸ hx'⟩]
      exact expressionStatement_read he hu hd'
  | us, _, _, .conditional h, d, rest, hd, hk => by
    obtain ⟨d, rfl, hd'⟩ := hd.exists_succ (by decide)
    obtain ⟨t, vs, rfl, ht, hr⟩ := h.read
    rw [List.cons_append, statement, peek_bind, Token.head_cons]
    simp only [ht, skip_bind_cons]
    exact hr hd'.tail hk
  | _, _, _, @Statement.whileLoop _ t o us c vs k e b ht ho he hc hb, d, rest, hd, hk => by
    obtain ⟨d, rfl, hd'⟩ := hd.exists_succ (by decide)
    simp only [List.append_assoc, List.cons_append] at hd' ⊢
    have h₁ : condition d .whileWord (o :: (us ++ c :: (vs ++ rest))) = .ok e (vs ++ rest) :=
      condition_read ho he hc (hd'.tail.tail.mono (by decide))
    have h₂ : block d (vs ++ rest) = .ok b rest :=
      hb.read (hd'.tail.tail.right.mono (by decide)) hk
    rw [statement, peek_bind, Token.head_cons]
    simp only [ht, skip_bind_cons]
    rw [bind_of_eq_ok h₁, bind_of_eq_ok h₂]
    rfl
  | _, _, _, @Statement.forLoop _ t v q us c vs ws k x lower upper b ht hv hq hl hc hu hs hb,
      d, rest, hd, hk => by
    obtain ⟨d, rfl, hd'⟩ := hd.exists_succ (by decide)
    simp only [List.append_assoc, List.cons_append] at hd' ⊢
    rw [← hk, follow_kind_head] at hs
    have hb' := hd'.tail.tail.tail
    have h₁ := bounds_read hl hc hu hs (hb'.mono (by decide))
    have h₂ : block d (ws ++ rest) = .ok b rest :=
      hb.read (hb'.right.of_append.mono (by decide)) hk
    rw [statement, peek_bind, Token.head_cons]
    simp only [ht, skip_bind_cons, peek_bind, Token.head_cons, hv]
    rw [bind_of_eq_ok (expect_cons hq), bind_of_eq_ok h₁, bind_of_eq_ok h₂]
    rfl

theorem Conditional.read : ∀ {us k s}, Conditional true us k s →
    ∃ t vs, us = t :: vs ∧ t.kind = .keyword .ifWord ∧ ∀ {d rest},
      Suffices d (vs ++ rest).length 20 → (Token.head rest).kind = k →
      conditional d t.location (vs ++ rest) = .ok s rest
  | _, _, _, @Conditional.mk _ t o us c vs ws k e b a ht ho he hc hb ha => by
    refine ⟨t, o :: us ++ c :: vs ++ ws, rfl, ht, fun {d rest} hd hk => ?_⟩
    obtain ⟨d, rfl, hd'⟩ := hd.exists_succ (by decide)
    simp only [List.append_assoc, List.cons_append] at hd' ⊢
    have hb' := hd'.tail.right
    have h₁ : condition d .ifWord (o :: (us ++ c :: (vs ++ (ws ++ rest)))) =
        .ok e (vs ++ (ws ++ rest)) :=
      condition_read ho he hc (hd'.tail.mono (by decide))
    have h₂ : block d (vs ++ (ws ++ rest)) = .ok b (ws ++ rest) :=
      hb.read (hb'.mono (by decide)) (by rw [← hk, follow_kind_head])
    have h₃ : alternative d (ws ++ rest) = .ok a rest :=
      ha.read (hb'.of_append.mono (by decide)) hk
    rw [conditional, bind_of_eq_ok h₁, bind_of_eq_ok h₂, bind_of_eq_ok h₃]
    rfl

theorem Alternative.read : ∀ {us k a}, Alternative true us k a → ∀ {d rest},
    Suffices d (us ++ rest).length 1 → (Token.head rest).kind = k →
    alternative d (us ++ rest) = .ok a rest
  | _, _, _, .none hn, d, rest, hd, hk => by
    obtain ⟨d, rfl, _⟩ := hd.exists_succ (by decide)
    rw [List.nil_append, alternative, peek_bind, hk, if_neg hn]
    rfl
  | _, _, _, @Alternative.elseIf _ t us k s ht h, d, rest, hd, hk => by
    obtain ⟨d, rfl, hd'⟩ := hd.exists_succ (by decide)
    obtain ⟨i, vs, rfl, hi, hr⟩ := h.read
    have h₁ := hr hd'.tail.tail hk
    rw [List.cons_append, alternative, peek_bind, Token.head_cons, if_pos ht, skip_bind_cons,
      List.cons_append, peek_bind, Token.head_cons, if_pos hi, skip_bind_cons, bind_of_eq_ok h₁]
    rfl
  | _, _, _, @Alternative.block _ t us k b ht hm h, d, rest, hd, hk => by
    obtain ⟨d, rfl, hd'⟩ := hd.exists_succ (by decide)
    have hn : (Token.head (us ++ rest)).kind ≠ .keyword .ifWord := by
      rw [Token.head_append h.ne_nil]
      exact hm rfl
    have h₁ : block d (us ++ rest) = .ok b rest := h.read (hd'.tail.mono (by decide)) hk
    rw [List.cons_append, alternative, peek_bind, Token.head_cons, if_pos ht, skip_bind_cons,
      peek_bind, if_neg hn, bind_of_eq_ok h₁]
    rfl

theorem Block.read : ∀ {us k b}, Block true us k b → ∀ {d rest},
    Suffices d (us ++ rest).length 13 → (Token.head rest).kind = k →
    block d (us ++ rest) = .ok b rest
  | _, _, _, @Block.braced _ o us c k ss ho hc h, d, rest, hd, hk => by
    obtain ⟨d, rfl, hd'⟩ := hd.exists_succ (by decide)
    simp only [List.append_assoc, List.cons_append, List.nil_append] at hd' ⊢
    have h₁ : statements d true (us ++ c :: rest) = .ok ss (c :: rest) :=
      h.read (hd'.tail.mono (by decide)) rfl (.inr ⟨rfl, hc⟩)
    rw [block, peek_bind, bind_of_eq_ok (accept_cons ho), if_pos rfl, bind_of_eq_ok h₁,
      bind_of_eq_ok (expect_cons hc)]
    rfl
  | us, _, _, @Block.bare _ _ k s h, d, rest, hd, hk => by
    obtain ⟨d, rfl, hd'⟩ := hd.exists_succ (by decide)
    have hh := Token.head_append h.ne_nil rest
    have hn : (Token.head (us ++ rest)).kind ≠ .symbol .leftBrace := hh ▸ h.kind_head_ne.2.1
    rw [block, peek_bind, bind_of_eq_ok (accept_of_ne hn), hh]
    exact bind_of_eq_ok (h.read hd' hk) _

theorem Statements.read : ∀ {us k ss}, Statements true us k ss → ∀ {d rest} {braced : Bool},
    Suffices d (us ++ rest).length 13 → (Token.head rest).kind = k →
    (k = .endOfInput ∨ braced ∧ k = .symbol .rightBrace) →
    statements d braced (us ++ rest) = .ok ss rest
  | _, _, _, .nil, d, rest, braced, hd, hk, he => by
    obtain ⟨d, rfl, _⟩ := hd.exists_succ (by decide)
    rw [List.nil_append, statements, peek_bind, hk, if_pos he]
    rfl
  | _, _, _, @Statements.cons _ us vs k s ss hs hss, d, rest, braced, hd, hk, he => by
    obtain ⟨d, rfl, hd'⟩ := hd.exists_succ (by decide)
    rw [List.append_assoc] at hd' ⊢
    have hn := hs.kind_head_ne
    rw [← Token.head_append hs.ne_nil (vs ++ rest)] at hn
    have h₁ : statement d (us ++ (vs ++ rest)) = .ok s (vs ++ rest) :=
      hs.read hd' (by rw [← hk, follow_kind_head])
    have hv : (vs ++ rest).length < (us ++ (vs ++ rest)).length := by
      have hu := List.length_pos_of_ne_nil hs.ne_nil
      simp only [List.length_append]
      omega
    have h₂ : statements d braced (vs ++ rest) = .ok ss rest :=
      hss.read ((hd'.of_lt hv).mono (by decide)) hk he
    rw [statements, peek_bind, if_neg (not_or.mpr ⟨hn.1, fun h => hn.2.2 h.2⟩), bind_of_eq_ok h₁,
      bind_of_eq_ok h₂]
    rfl

end

end Reading

end MatrixLang.Phrase
