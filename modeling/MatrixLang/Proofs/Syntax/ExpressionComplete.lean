import MatrixLang.Proofs.Syntax.ExpressionSound

/-! # Expressions that can be read

A rule reads every phrase that the grammar derives, if the phrase cannot go on with the token behind
it and the depth suffices. A chain read so far stands for its own first part, so that the induction
on a derivation to the left meets the rule that goes on to the right.
-/

namespace MatrixLang.Phrase

open Grammar Rule

section FirstToken

/-- The first of the tokens can start an expression. -/
def Starts (us : List Token) : Prop := ∃ t vs, us = t :: vs ∧ t.kind.startsExpression = true

variable {us : List Token}

theorem Starts.append (h : Starts us) (vs : List Token) : Starts (us ++ vs) := by
  obtain ⟨t, ws, rfl, ht⟩ := h
  exact ⟨t, ws ++ vs, rfl, ht⟩

theorem Starts.startsExpression_head (h : Starts us) :
    (Token.head us).kind.startsExpression = true := by
  obtain ⟨t, ws, rfl, ht⟩ := h
  exact ht

theorem Starts.ne_nil (h : Starts us) : us ≠ [] := by
  obtain ⟨t, ws, rfl, _⟩ := h
  exact List.cons_ne_nil t ws

theorem Variable.starts {r : Reference Node} (h : Variable us r) : Starts us := by
  cases h with
  | plain ht => exact ⟨_, _, rfl, by simp [ht, Kind.startsExpression]⟩
  | indexed ht => exact ⟨_, _, rfl, by simp [ht, Kind.startsExpression]⟩

theorem Variable.kind_head {r : Reference Node} (h : Variable us r) :
    ∃ x, (Token.head us).kind = .name x := by
  cases h with
  | plain ht => exact ⟨_, ht⟩
  | indexed ht => exact ⟨_, ht⟩

theorem Primary.starts {e : Node} (h : Primary us e) : Starts us := by
  cases h with
  | integer ht => exact ⟨_, _, rfl, by simp [ht, Kind.startsExpression]⟩
  | float ht => exact ⟨_, _, rfl, by simp [ht, Kind.startsExpression]⟩
  | string ht => exact ⟨_, _, rfl, by simp [ht, Kind.startsExpression]⟩
  | reference h => exact h.starts
  | builtin ht => exact ⟨_, _, rfl, by simp [ht, Kind.startsExpression]⟩
  | matrix ho => exact ⟨_, _, rfl, by simp [ho, Kind.startsExpression]⟩
  | parentheses ho => exact ⟨_, _, rfl, by simp [ho, Kind.startsExpression]⟩

theorem Primary.kind_head_ne {e : Node} (h : Primary us e) :
    (Token.head us).kind ≠ .symbol (.binary (.plain .sub)) := by
  cases h with
  | integer ht => simp [ht]
  | float ht => simp [ht]
  | string ht => simp [ht]
  | reference h => cases h with
    | plain ht => simp [ht]
    | indexed ht => simp [ht]
  | builtin ht => simp [ht]
  | matrix ho => simp [ho]
  | parentheses ho => simp [ho]

theorem Transposed.starts {us e} : Transposed us e → Starts us
  | .primary h => h.starts
  | .transpose h _ => h.starts.append _

theorem Transposed.kind_head_ne {us e} :
    Transposed us e → (Token.head us).kind ≠ .symbol (.binary (.plain .sub))
  | .primary h => h.kind_head_ne
  | .transpose h _ => by rw [Token.head_append h.starts.ne_nil]; exact h.kind_head_ne

theorem Negation.starts {us e} : Negation us e → Starts us
  | .transposed h => h.starts
  | .negate ht _ => ⟨_, _, rfl, by simp [ht, Kind.startsExpression]⟩

mutual

theorem Chain.starts {l us e} : Chain l us e → Starts us
  | .operand h => h.starts
  | .join h _ _ _ => h.starts.append _

theorem Operand.starts {l us e} : Operand l us e → Starts us
  | .equality h => h.starts
  | .relational h => h.starts
  | .additive h => h.starts
  | .multiplicative h => h.starts

end

theorem Expressions.starts {es : List Node} (h : Expressions us es) : Starts us := by
  cases h with
  | one h => exact h.starts
  | more h => exact h.starts.append _

theorem Rows.starts {rows : List (List Node)} (h : Rows us rows) : Starts us := by
  cases h with
  | one h => exact h.starts
  | closed h => exact h.starts.append _
  | more h => exact h.starts.append _

end FirstToken

section Depth

/-- The depth `d` suffices to open `r` rules inside each other in front of `n` tokens, and then to
read on. -/
def Suffices (d n r : Nat) : Prop := rank * n + r ≤ d

variable {d m n r r' : Nat}

theorem suffices_depthFor (h : r ≤ rank) : Suffices (depthFor n) n r := by
  simp only [Suffices, depthFor, rank] at *
  omega

theorem Suffices.exists_succ (h : Suffices d n r) (hr : 0 < r) :
    ∃ d', d = d' + 1 ∧ Suffices d' n (r - 1) := by
  refine ⟨d - 1, ?_, ?_⟩ <;> simp only [Suffices, rank] at * <;> omega

theorem Suffices.mono (h : Suffices d n r) (hr : r' ≤ r) : Suffices d n r' := by
  simp only [Suffices, rank] at *
  omega

theorem Suffices.of_le (h : Suffices d m r) (hn : n ≤ m) : Suffices d n r := by
  simp only [Suffices, rank] at *
  omega

theorem Suffices.of_lt (h : Suffices d m r) (hn : n < m) : Suffices d n rank := by
  simp only [Suffices, rank] at *
  omega

variable {us vs : List Token} {t : Token}

theorem Suffices.of_append (h : Suffices d (us ++ vs).length r) : Suffices d vs.length r :=
  h.of_le (List.suffix_append us vs).length_le

theorem Suffices.tail (h : Suffices d (t :: us).length r) : Suffices d us.length rank :=
  h.of_lt (Nat.lt_succ_self us.length)

theorem Suffices.right (h : Suffices d (us ++ t :: vs).length r) : Suffices d vs.length rank :=
  h.of_append.tail

end Depth

section Reading

def isDelimiter : Symbol → Bool
  | .comma | .semicolon | .colon | .rightParen | .rightBracket => true
  | _ => false

theorem stops_of_isDelimiter {n : Nat} {us : List Token} {k : Kind} {s : Symbol}
    (hk : k = .symbol s) (hs : isDelimiter s = true) : Stops n us k := by
  subst hk
  refine ⟨fun c hc => ?_, ?_, fun _ => ?_⟩
  · obtain rfl := Kind.symbol.inj hc
    cases c <;> simp [Connective.symbol, isDelimiter] at hs
  · rintro ⟨⟩; simp [isDelimiter] at hs
  · rintro ⟨⟩; simp [isDelimiter] at hs

theorem Connective.symbol_injective {c c' : Connective} (h : c.symbol = c'.symbol) : c = c' := by
  cases c <;> cases c' <;> simp_all [Connective.symbol]

theorem stops_of_mem_operators {l : Level} {us : List Token} {k : Kind} {c : Connective}
    (hc : c ∈ l.operators) (hk : k = .symbol c.symbol) : Stops (l.rank + 1) us k := by
  subst hk
  refine ⟨fun c' hc' => ?_, ?_, fun _ => ?_⟩
  · obtain rfl := Connective.symbol_injective (Kind.symbol.inj hc')
    rw [Level.mem_operators_iff.mp hc]
    exact Nat.lt_succ_self _
  · cases c <;> simp [Connective.symbol]
  · cases c <;> simp [Connective.symbol]

theorem Stops.of_append {n : Nat} {us vs : List Token} {k : Kind} (h : Stops n (us ++ vs) k) :
    Stops n vs k := by
  refine ⟨h.operator, h.transpose, fun hn => h.index ?_⟩
  cases vs with
  | nil => simp [EndsInName] at hn
  | cons v vs => exact (endsInName_append (List.cons_ne_nil v vs)).mpr hn

theorem Stops.of_append_cons {n : Nat} {us vs : List Token} {t : Token} {k : Kind}
    (h : Stops n (us ++ t :: vs) k) : Stops n vs k :=
  (show Stops n ([t] ++ vs) k from h.of_append).of_append

theorem Stops.mono {m n : Nat} {us : List Token} {k : Kind} (h : Stops m us k) (hn : m ≤ n) :
    Stops n us k :=
  ⟨fun c hc => Nat.lt_of_lt_of_le (h.operator c hc) hn, h.transpose, h.index⟩

theorem transposes_of_ne {e : Node} {ts : List Token}
    (h : (Token.head ts).kind ≠ .symbol .transpose) : transposes e ts = .ok e ts := by
  cases ts with
  | nil => rfl
  | cons t ts => exact if_neg h

/-- A chain whose rest is in front ends where no operator of its level follows. -/
theorem chain_eq_ok {d : Nat} {l : Level} {us ts rest : List Token} {e : Node}
    (h : ∃ d', Suffices d' rest.length 1 ∧ chain d l ts = chainRest d' l e rest)
    (hs : Stops l.rank us (Token.head rest).kind) : chain d l ts = .ok e rest := by
  obtain ⟨d', hd, h⟩ := h
  obtain ⟨d', rfl, _⟩ := hd.exists_succ Nat.one_pos
  have hc : l.connective? (Token.head rest).kind = none := by
    refine Level.connective?_eq_none_iff.mpr fun c hc hk => ?_
    have hlt := hs.operator c hk
    rw [Level.mem_operators_iff.mp hc] at hlt
    exact Nat.lt_irrefl _ hlt
  rw [h, chainRest, peek_bind]
  simp only [hc, pure_apply]

mutual

theorem Chain.read : ∀ {l us e}, Chain l us e → ∀ {d rest},
    Suffices d (us ++ rest).length (11 - 2 * l.rank) →
    Stops (l.rank + 1) us (Token.head rest).kind →
    ∃ d', Suffices d' rest.length 1 ∧ chain d l (us ++ rest) = chainRest d' l e rest
  | l, us, e, .operand h, d, rest, hd, hs => by
    have hl : l.rank ≤ 3 := by cases l <;> simp [Level.rank]
    obtain ⟨d, rfl, hd'⟩ := hd.exists_succ (by omega)
    refine ⟨d, hd'.of_append.mono (by omega), ?_⟩
    rw [chain]
    exact bind_of_eq_ok (h.read (hd'.mono (by omega)) hs) _
  | l, _, _, @Chain.join _ us t vs left right c hl hc ht hr, d, rest, hd, hs => by
    rw [List.append_assoc] at hd ⊢
    obtain ⟨d₁, hd₁, h₁⟩ := hl.read hd (stops_of_mem_operators hc ht)
    obtain ⟨d₂, rfl, hd₂⟩ := hd₁.exists_succ Nat.one_pos
    have hv : Suffices d₂ (vs ++ rest).length rank := hd₂.tail
    refine ⟨d₂, hv.of_append.mono (by decide), h₁.trans ?_⟩
    rw [chainRest, peek_bind]
    simp only [List.cons_append, Token.head_cons, Level.connective?_eq_some_iff.mpr ⟨hc, ht⟩,
      skip_bind_cons]
    have hr' := hr.read (hv.mono (Nat.le_trans (Nat.sub_le _ _) (by decide))) hs.of_append_cons
    exact bind_of_eq_ok hr' _

theorem Operand.read : ∀ {l us e}, Operand l us e → ∀ {d rest},
    Suffices d (us ++ rest).length (10 - 2 * l.rank) →
    Stops (l.rank + 1) us (Token.head rest).kind → operand d l (us ++ rest) = .ok e rest
  | _, us, e, .equality h, d, rest, hd, hs => by
    obtain ⟨d, rfl, hd'⟩ := hd.exists_succ (by decide)
    exact chain_eq_ok (h.read hd' (hs.mono (by decide))) hs
  | _, us, e, .relational h, d, rest, hd, hs => by
    obtain ⟨d, rfl, hd'⟩ := hd.exists_succ (by decide)
    exact chain_eq_ok (h.read hd' (hs.mono (by decide))) hs
  | _, us, e, .additive h, d, rest, hd, hs => by
    obtain ⟨d, rfl, hd'⟩ := hd.exists_succ (by decide)
    exact chain_eq_ok (h.read hd' (hs.mono (by decide))) hs
  | _, us, e, .multiplicative h, d, rest, hd, hs => by
    obtain ⟨d, rfl, hd'⟩ := hd.exists_succ (by decide)
    exact h.read hd' hs

theorem Negation.read : ∀ {us e}, Negation us e → ∀ {d rest},
    Suffices d (us ++ rest).length 3 → Stops 4 us (Token.head rest).kind →
    negation d (us ++ rest) = .ok e rest
  | us, e, .transposed h, d, rest, hd, hs => by
    obtain ⟨d, rfl, hd'⟩ := hd.exists_succ (by decide)
    have hk : (Token.head (us ++ rest)).kind ≠ .symbol (.binary (.plain .sub)) := by
      rw [Token.head_append h.starts.ne_nil]
      exact h.kind_head_ne
    rw [negation, peek_bind, if_neg hk]
    exact (h.read hd' hs.index).trans (transposes_of_ne hs.transpose)
  | _, _, @Negation.negate t us e ht h, d, rest, hd, hs => by
    obtain ⟨d, rfl, hd'⟩ := hd.exists_succ (by decide)
    rw [List.cons_append, negation, peek_bind, Token.head_cons, if_pos ht, skip_bind_cons]
    have hv : Stops 4 us (Token.head rest).kind := @Stops.of_append 4 [t] us _ hs
    exact bind_of_eq_ok (h.read (hd'.tail.mono (by decide)) hv) _

theorem Transposed.read : ∀ {us e}, Transposed us e → ∀ {d rest},
    Suffices d (us ++ rest).length 2 →
    (EndsInName us → (Token.head rest).kind ≠ .symbol .leftBracket) →
    (primary d >>= transposes) (us ++ rest) = transposes e rest
  | us, e, .primary h, d, rest, hd, hi => bind_of_eq_ok (h.read hd hi) _
  | _, _, @Transposed.transpose us t e h ht, d, rest, hd, hi => by
    rw [List.append_assoc] at hd ⊢
    refine (h.read hd fun _ => by simp [ht]).trans ?_
    exact if_pos ht

theorem Primary.read : ∀ {us e}, Primary us e → ∀ {d rest},
    Suffices d (us ++ rest).length 2 →
    (EndsInName us → (Token.head rest).kind ≠ .symbol .leftBracket) →
    primary d (us ++ rest) = .ok e rest
  | _, _, .integer ht, d, rest, hd, _ => by
    obtain ⟨d, rfl, _⟩ := hd.exists_succ (by decide)
    rw [primary, peek_bind]
    simp [ht, pure_apply]
  | _, _, .float ht, d, rest, hd, _ => by
    obtain ⟨d, rfl, _⟩ := hd.exists_succ (by decide)
    rw [primary, peek_bind]
    simp [ht, pure_apply]
  | _, _, .string ht, d, rest, hd, _ => by
    obtain ⟨d, rfl, _⟩ := hd.exists_succ (by decide)
    rw [primary, peek_bind]
    simp [ht, pure_apply]
  | us, _, .reference h, d, rest, hd, hi => by
    obtain ⟨d, rfl, hd'⟩ := hd.exists_succ (by decide)
    obtain ⟨x, hx⟩ := h.kind_head
    rw [primary, peek_bind, Token.head_append h.starts.ne_nil]
    simp only [hx]
    exact bind_of_eq_ok (h.read hd' hi) _
  | _, _, @Primary.builtin t o us c b es ht ho h hc, d, rest, hd, _ => by
    obtain ⟨d, rfl, hd'⟩ := hd.exists_succ (by decide)
    simp only [List.cons_append, List.append_assoc, List.nil_append] at hd' ⊢
    have hv : Suffices d (us ++ c :: rest).length 12 := hd'.tail.tail.mono (by decide)
    have hu := h.read hv (stops_of_isDelimiter hc rfl) (by simp [hc])
    rw [primary, peek_bind, Token.head_cons]
    simp only [ht, skip_bind_cons]
    rw [bind_of_eq_ok (expect_cons ho), bind_of_eq_ok hu, bind_of_eq_ok (expect_cons hc)]
    rfl
  | _, _, @Primary.matrix o us c rows ho h hc, d, rest, hd, _ => by
    obtain ⟨d, rfl, hd'⟩ := hd.exists_succ (by decide)
    simp only [List.cons_append, List.append_assoc, List.nil_append] at hd' ⊢
    have hv : Suffices d (us ++ c :: rest).length 13 := hd'.tail.mono (by decide)
    have hu := h.read hv hc
    rw [primary, peek_bind, Token.head_cons]
    simp only [ho, skip_bind_cons]
    rw [bind_of_eq_ok hu, bind_of_eq_ok (expect_cons hc)]
    rfl
  | _, _, @Primary.parentheses o us c e ho h hc, d, rest, hd, _ => by
    obtain ⟨d, rfl, hd'⟩ := hd.exists_succ (by decide)
    simp only [List.cons_append, List.append_assoc, List.nil_append] at hd' ⊢
    have hv : Suffices d (us ++ c :: rest).length 11 := hd'.tail.mono (by decide)
    have hs : ∀ n, Stops n us (Token.head (c :: rest)).kind :=
      fun n => stops_of_isDelimiter hc rfl
    have hu : chain d .equality (us ++ c :: rest) = .ok e (c :: rest) :=
      chain_eq_ok (h.read hv (hs _)) (hs _)
    rw [primary, peek_bind, Token.head_cons]
    simp only [ho, skip_bind_cons]
    rw [bind_of_eq_ok hu, bind_of_eq_ok (expect_cons hc)]
    rfl

theorem Variable.read : ∀ {us r}, Variable us r → ∀ {d rest},
    Suffices d (us ++ rest).length 1 →
    (EndsInName us → (Token.head rest).kind ≠ .symbol .leftBracket) →
    reference d (us ++ rest) = .ok r rest
  | _, _, .plain ht, d, rest, hd, hi => by
    obtain ⟨d, rfl, _⟩ := hd.exists_succ (by decide)
    have hn := hi (endsInName_singleton_iff.mpr ⟨_, ht⟩)
    rw [List.cons_append, reference, peek_bind, Token.head_cons]
    simp only [ht, skip_bind_cons, List.nil_append]
    rw [bind_of_eq_ok (accept_of_ne hn)]
    rfl
  | _, _, @Variable.indexed t o us c x es ht ho h hc, d, rest, hd, _ => by
    obtain ⟨d, rfl, hd'⟩ := hd.exists_succ (by decide)
    simp only [List.cons_append, List.append_assoc, List.nil_append] at hd' ⊢
    have hv : Suffices d (us ++ c :: rest).length 12 := hd'.tail.tail.mono (by decide)
    have hu := h.read hv (stops_of_isDelimiter hc rfl) (by simp [hc])
    rw [reference, peek_bind, Token.head_cons]
    simp only [ht, skip_bind_cons]
    rw [bind_of_eq_ok (accept_cons ho), if_pos rfl, bind_of_eq_ok hu,
      bind_of_eq_ok (expect_cons hc)]
    rfl

theorem Expressions.read : ∀ {us es}, Expressions us es → ∀ {d rest},
    Suffices d (us ++ rest).length 12 → Stops 0 us (Token.head rest).kind →
    (Token.head rest).kind ≠ .symbol .comma → expressions d (us ++ rest) = .ok es rest
  | us, _, @Expressions.one _ e h, d, rest, hd, hs, hn => by
    obtain ⟨d, rfl, hd'⟩ := hd.exists_succ (by decide)
    have hu : chain d .equality (us ++ rest) = .ok e rest :=
      chain_eq_ok (h.read hd' (hs.mono (by decide))) hs
    rw [expressions, bind_of_eq_ok hu, bind_of_eq_ok (accept_of_ne hn)]
    rfl
  | _, _, @Expressions.more us t vs e es h ht hes, d, rest, hd, hs, hn => by
    obtain ⟨d, rfl, hd'⟩ := hd.exists_succ (by decide)
    rw [List.append_assoc, List.cons_append] at hd' ⊢
    have ht' : ∀ n, Stops n us (Token.head (t :: (vs ++ rest))).kind :=
      fun n => stops_of_isDelimiter ht rfl
    have hu : chain d .equality (us ++ t :: (vs ++ rest)) = .ok e (t :: (vs ++ rest)) :=
      chain_eq_ok (h.read hd' (ht' _)) (ht' _)
    have hv : Suffices d (vs ++ rest).length 12 := hd'.right.mono (by decide)
    rw [expressions, bind_of_eq_ok hu, bind_of_eq_ok (accept_cons ht), if_pos rfl,
      bind_of_eq_ok (hes.read hv hs.of_append_cons hn)]
    rfl

theorem Rows.read : ∀ {us rows}, Rows us rows → ∀ {d rest},
    Suffices d (us ++ rest).length 13 → (Token.head rest).kind = .symbol .rightBracket →
    matrixRows d (us ++ rest) = .ok rows rest
  | us, _, .one h, d, rest, hd, hk => by
    obtain ⟨d, rfl, hd'⟩ := hd.exists_succ (by decide)
    have hu := h.read hd' (stops_of_isDelimiter hk rfl) (by simp [hk])
    rw [matrixRows, bind_of_eq_ok hu, bind_of_eq_ok (accept_of_ne (by simp [hk]))]
    rfl
  | _, _, @Rows.closed us t row h ht, d, rest, hd, hk => by
    obtain ⟨d, rfl, hd'⟩ := hd.exists_succ (by decide)
    rw [List.append_assoc, List.singleton_append] at hd' ⊢
    have hu := h.read hd' (stops_of_isDelimiter ht rfl) (by simp [ht])
    rw [matrixRows, bind_of_eq_ok hu, bind_of_eq_ok (accept_cons ht), if_pos rfl, peek_bind,
      if_pos hk]
    rfl
  | _, _, @Rows.more us t vs row rows h ht hrs, d, rest, hd, hk => by
    obtain ⟨d, rfl, hd'⟩ := hd.exists_succ (by decide)
    rw [List.append_assoc, List.cons_append] at hd' ⊢
    have hu := h.read hd' (stops_of_isDelimiter ht rfl) (by simp [ht])
    have hv : Suffices d (vs ++ rest).length 13 := hd'.right.mono (by decide)
    have hn : (Token.head (vs ++ rest)).kind ≠ .symbol .rightBracket := by
      intro hb
      have hb' := hrs.starts.startsExpression_head
      rw [← Token.head_append hrs.starts.ne_nil rest, hb] at hb'
      simp [Kind.startsExpression] at hb'
    rw [matrixRows, bind_of_eq_ok hu, bind_of_eq_ok (accept_cons ht), if_pos rfl, peek_bind,
      if_neg hn, bind_of_eq_ok (hrs.read hv hk)]
    rfl

end

theorem Expression.read {d : Nat} {us rest : List Token} {e : Node} (h : Expression us e)
    (hd : Suffices d (us ++ rest).length 11) (hs : Ends us (Token.head rest).kind) :
    expression d (us ++ rest) = .ok e rest := by
  have hs' := stops_zero_iff.mpr hs
  exact chain_eq_ok (Chain.read h hd (hs'.mono (by decide))) hs'

end Reading

theorem expression_sound {d : Nat} {ts rest : List Token} {e : Node}
    (h : expression d ts = .ok e rest) :
    ∃ us, ts = us ++ rest ∧ Expression us e ∧ Ends us (Token.head rest).kind := by
  obtain ⟨us, rfl, he, hs⟩ := chain_sound h
  exact ⟨us, rfl, he, stops_zero_iff.mp hs⟩

/-- From any position `p` of any tokens the rule reads the expression `e` and stops at `q` exactly
when the tokens between the two spell `e`, which cannot go on with the token at `q`. -/
theorem expression_eq_ok_iff (ts : List Token) (p : Nat) (e : Node) (rest : List Token) :
    expression (depthFor (ts.drop p).length) (ts.drop p) = .ok e rest ↔
      ∃ q, rest = ts.drop q ∧ Expression ((ts.take q).drop p) e ∧
        Ends ((ts.take q).drop p) (Token.head rest).kind := by
  constructor
  · intro h
    obtain ⟨us, hu, he, hs⟩ := expression_sound h
    have hq : (ts.take (p + us.length)).drop p = us := by
      rw [← List.take_drop, hu, List.take_left]
    have hr : ts.drop (p + us.length) = rest := by
      rw [← List.drop_drop, hu, List.drop_left]
    exact ⟨p + us.length, hr.symm, hq.symm ▸ he, hq.symm ▸ hs⟩
  · rintro ⟨q, rfl, he, hs⟩
    have hne : (ts.take q).drop p ≠ [] := (Chain.starts he).ne_nil
    have hpq : p ≤ (ts.take q).length := by
      by_contra hlt
      exact hne (List.drop_eq_nil_of_le (by omega))
    have hts : (ts.take q).drop p ++ ts.drop q = ts.drop p := by
      rw [← List.drop_append_of_le_length hpq, List.take_append_drop]
    have hd : Suffices (depthFor (ts.drop p).length) (ts.drop p).length 11 :=
      suffices_depthFor (by decide)
    rw [← hts] at hd ⊢
    exact he.read hd hs

end MatrixLang.Phrase
