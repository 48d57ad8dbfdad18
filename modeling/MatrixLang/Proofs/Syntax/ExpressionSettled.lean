import MatrixLang.Proofs.Syntax.Settled

/-! # Expressions that settle

The rules for expressions settle on all tokens, and what they have passed where they stop begins an
expression. The induction is on the depth, which suffices for the tokens; at each token that a rule
may stop at, the shortest end of the phrase completes it.
-/

namespace MatrixLang.Phrase

open Grammar Rule

section Viable

/-- Some phrase begins with the tokens. -/
def Viable {α : Type} (P : List Token → α → Prop) (us : List Token) : Prop :=
  ∃ ws a, P (us ++ ws) a

def mark (s : Symbol) : Token := ⟨.symbol s, .nowhere⟩

def numeral : Token := ⟨.integer 1, .nowhere⟩

theorem primary_numeral : Primary [numeral] (.integer 1 .nowhere) := .integer rfl

theorem Negation.chain {us : List Token} {e : Node} (h : Negation us e) : ∀ l, Chain l us e
  | .equality => h.expression
  | .relational => .operand (.relational (.operand (.additive (.operand (.multiplicative h)))))
  | .additive => .operand (.additive (.operand (.multiplicative h)))
  | .multiplicative => .operand (.multiplicative h)

theorem chain_numeral (l : Level) : Chain l [numeral] (.integer 1 .nowhere) :=
  Negation.chain (.transposed (.primary primary_numeral)) l

theorem expressions_numeral : Expressions [numeral] [.integer 1 .nowhere] :=
  .one (chain_numeral .equality)

variable {α β : Type} {r : Nat → Rule α} {f : α → Rule β} {P : List Token → α → Prop}
  {P' : List Token → α → List Token → Prop} {V : List Token → Prop} {ts : List Token}

/-- A phrase and what closes it settle together: where they stop, the rest of the phrase and the
closing tokens can still come. -/
theorem Settles.closed
    (hr : ∀ {d ts a rest}, r d ts = .ok a rest → ∃ us, ts = us ++ rest ∧ P' us a rest)
    (hP : ∀ {us a rest}, P' us a rest → P us a) (h : Settles r rank (Viable P) ts)
    (hV : ∀ {us ws a}, P (us ++ ws) a → V us)
    (hf : ∀ {W : List Token → Prop} {rest} a, W [] → Settles (fun _ => f a) rank W rest) :
    Settles (fun d => r d >>= f) rank V ts := by
  refine .bind hr (h.imp ?_) ?_
  · rintro us rest rfl ⟨ws, a, h⟩
    exact hV h
  · rintro a us rest rfl h
    have hp : P (us ++ [] ++ []) a := by simpa using hP h
    exact ⟨fun _ => Nat.le_refl _, hf a (hV hp)⟩

end Viable

section Settles

variable {ts us : List Token} {n : Nat} {V : List Token → Prop}

theorem transposes_settles (e : Node) : Settles (fun _ => transposes e) n V ts := by
  induction ts generalizing e n V with
  | nil => exact (settles_pure e).congr fun d vs hv => transposes_of_ne (by simp [hv])
  | cons t ts ih =>
    by_cases ht : t.kind = .symbol .transpose
    · exact (ih (.unary .transpose e t.location)).cons fun d vs _ => if_pos ht
    · exact (settles_pure e).congr fun d vs hv => transposes_of_ne (by simpa [hv] using ht)

mutual

theorem chain_settles : ∀ {d l ts}, Suffices d ts.length (11 - 2 * l.rank) →
    Settles (chain · l) (11 - 2 * l.rank) (Viable (Chain l)) ts
  | 0, l, ts, hd => absurd hd (not_suffices_zero (by cases l <;> decide))
  | d + 1, l, ts, hd => by
    have hl : 11 - 2 * l.rank = 10 - 2 * l.rank + 1 := by cases l <;> rfl
    rw [hl] at hd ⊢
    refine .succ (fun d => chain.eq_2 l d)
      (.bind operand_sound ((operand_settles hd.pred).imp ?_) ?_)
    · rintro us rest rfl ⟨ws, e, h⟩
      exact ⟨ws, e, .operand h⟩
    · rintro left us rest rfl ⟨h, _⟩
      have hd' : Suffices d rest.length 1 :=
        (hd.pred.of_ne_nil h.starts.ne_nil).mono (by decide)
      exact ⟨fun hn => absurd hn h.starts.ne_nil,
        (chainRest_settles hd' (.operand h)).mono (by decide)⟩

theorem operand_settles : ∀ {d l ts}, Suffices d ts.length (10 - 2 * l.rank) →
    Settles (operand · l) (10 - 2 * l.rank) (Viable (Operand l)) ts
  | 0, l, ts, hd => absurd hd (not_suffices_zero (by cases l <;> decide))
  | d + 1, .equality, ts, hd => by
    refine .succ (fun d => operand.eq_2 _ d) ((chain_settles hd.pred).imp ?_)
    rintro us rest rfl ⟨ws, e, h⟩
    exact ⟨ws, e, .equality h⟩
  | d + 1, .relational, ts, hd => by
    refine .succ (fun d => operand.eq_2 _ d) ((chain_settles hd.pred).imp ?_)
    rintro us rest rfl ⟨ws, e, h⟩
    exact ⟨ws, e, .relational h⟩
  | d + 1, .additive, ts, hd => by
    refine .succ (fun d => operand.eq_2 _ d) ((chain_settles hd.pred).imp ?_)
    rintro us rest rfl ⟨ws, e, h⟩
    exact ⟨ws, e, .additive h⟩
  | d + 1, .multiplicative, ts, hd => by
    refine .succ (fun d => operand.eq_2 _ d) ((negation_settles hd.pred).imp ?_)
    rintro us rest rfl ⟨ws, e, h⟩
    exact ⟨ws, e, .multiplicative h⟩

theorem chainRest_settles : ∀ {d l left us ts}, Suffices d ts.length 1 → Chain l us left →
    Settles (chainRest · l left) 1 (fun vs => Viable (Chain l) (us ++ vs)) ts
  | 0, _, _, _, _, hd => absurd hd (not_suffices_zero (by decide))
  | d + 1, l, left, us, ts, hd => by
    intro hl
    refine .succ (fun d => chainRest.eq_2 l left d) (settles_peek ?_)
    cases hc : l.connective? (Token.head ts).kind with
    | some c =>
      obtain ⟨hm, hk⟩ := Level.connective?_eq_some_iff.mp hc
      obtain ⟨t, ts, rfl, ht⟩ := Token.exists_cons_of_kind_head hk (by simp)
      have hd' : Suffices d ts.length 10 := hd.pred.tail.mono (by decide)
      have hl' : 10 - 2 * l.rank ≤ 10 := Nat.sub_le _ _
      refine settles_skip
        (.bind operand_sound (((operand_settles (hd'.mono hl')).imp ?_).mono ?_) ?_)
      · rintro vs rest rfl ⟨ws, e, h⟩
        exact ⟨ws, _, by simpa using Chain.join hl hm ht h⟩
      · exact Nat.le_trans hl' (by decide)
      · rintro right vs rest rfl ⟨h, _⟩
        refine ⟨fun hn => absurd hn h.starts.ne_nil, ?_⟩
        have hd'' : Suffices d rest.length 1 := hd'.of_append.mono (by decide)
        refine ((chainRest_settles hd'' (.join hl hm ht h)).imp ?_).mono (by decide)
        intro ws _ _ hw
        simpa using hw
    | none => exact settles_pure left

theorem negation_settles : ∀ {d ts}, Suffices d ts.length 3 →
    Settles negation 3 (Viable Negation) ts
  | 0, _, hd => absurd hd (not_suffices_zero (by decide))
  | d + 1, ts, hd => by
    refine .succ negation.eq_2 (settles_peek ?_)
    by_cases hk : (Token.head ts).kind = .symbol (.binary (.plain .sub))
    · obtain ⟨t, ts, rfl, ht⟩ := Token.exists_cons_of_kind_head hk (by simp)
      simp only [Token.head_cons, ht, if_true]
      have hd' : Suffices d ts.length 3 := hd.pred.tail.mono (by decide)
      refine settles_skip (.map _ (((negation_settles hd').imp ?_).mono (by decide)))
      rintro us rest rfl ⟨ws, e, h⟩
      exact ⟨ws, _, .negate ht h⟩
    · simp only [hk, if_false]
      refine .bind primary_sound ((primary_settles hd.pred).imp ?_) ?_
      · rintro us rest rfl ⟨ws, e, h⟩
        exact ⟨ws, e, .transposed (.primary h)⟩
      · rintro e us rest rfl ⟨h, _⟩
        exact ⟨fun hn => absurd hn h.starts.ne_nil, transposes_settles e⟩

theorem primary_settles : ∀ {d ts}, Suffices d ts.length 2 →
    Settles primary 2 (Viable Primary) ts
  | 0, _, hd => absurd hd (not_suffices_zero (by decide))
  | d + 1, ts, hd => by
    have hf : Viable Primary [] := ⟨_, _, primary_numeral⟩
    refine .succ primary.eq_2 (settles_peek ?_)
    cases hk : (Token.head ts).kind with
    | endOfInput => exact settles_fail hf
    | integer n =>
      obtain ⟨t, ts, rfl, ht⟩ := Token.exists_cons_of_kind_head hk (by simp)
      exact settles_skip (settles_pure _)
    | float x =>
      obtain ⟨t, ts, rfl, ht⟩ := Token.exists_cons_of_kind_head hk (by simp)
      exact settles_skip (settles_pure _)
    | string s =>
      obtain ⟨t, ts, rfl, ht⟩ := Token.exists_cons_of_kind_head hk (by simp)
      exact settles_skip (settles_pure _)
    | name x =>
      refine .map _ ((reference_settles hd.pred).imp ?_)
      rintro us rest rfl ⟨ws, r, h⟩
      exact ⟨ws, _, .reference h⟩
    | keyword w =>
      cases w with
      | builtin b =>
        obtain ⟨t, ts, rfl, ht⟩ := Token.exists_cons_of_kind_head hk (by simp)
        refine settles_skip (settles_expect ?_ ?_)
        · exact ⟨[mark .leftParen, numeral, mark .rightParen], _,
            @Primary.builtin t (mark .leftParen) _ (mark .rightParen) _ _ ht rfl
              expressions_numeral rfl⟩
        · rintro o rest rfl ho
          have hd' : Suffices d rest.length 12 := hd.pred.tail.tail.mono (by decide)
          refine .closed expressions_sound id ((expressions_settles hd').mono (by decide)) ?_
            fun _ hW => settles_expect hW fun _ _ _ _ => settles_pure _
          intro us ws es h
          exact ⟨ws ++ [mark .rightParen], _,
            by simpa using @Primary.builtin _ _ _ (mark .rightParen) _ _ ht ho h rfl⟩
      | _ => exact settles_fail hf
    | symbol s =>
      cases s with
      | leftBracket =>
        obtain ⟨o, ts, rfl, ho⟩ := Token.exists_cons_of_kind_head hk (by simp)
        have hd' : Suffices d ts.length 13 := hd.pred.tail.mono (by decide)
        refine settles_skip (.closed matrixRows_sound id
          ((matrixRows_settles hd').mono (by decide)) ?_
          fun _ hW => settles_expect hW fun _ _ _ _ => settles_pure _)
        intro us ws rows h
        exact ⟨ws ++ [mark .rightBracket], _,
          by simpa using @Primary.matrix _ _ (mark .rightBracket) _ ho h rfl⟩
      | leftParen =>
        obtain ⟨o, ts, rfl, ho⟩ := Token.exists_cons_of_kind_head hk (by simp)
        have hd' : Suffices d ts.length 11 := hd.pred.tail.mono (by decide)
        refine settles_skip (.closed chain_sound And.left
          ((chain_settles (l := .equality) hd').mono (by decide)) ?_
          fun _ hW => settles_expect hW fun _ _ _ _ => settles_pure _)
        intro us ws e h
        exact ⟨ws ++ [mark .rightParen], _,
          by simpa using @Primary.parentheses _ _ (mark .rightParen) _ ho h rfl⟩
      | _ => exact settles_fail hf

theorem reference_settles : ∀ {d ts}, Suffices d ts.length 1 →
    Settles reference 1 (Viable Variable) ts
  | 0, _, hd => absurd hd (not_suffices_zero (by decide))
  | d + 1, ts, hd => by
    have hf : Viable Variable [] := ⟨[⟨.name "", .nowhere⟩], _, .plain rfl⟩
    refine .succ reference.eq_2 (settles_peek ?_)
    cases hk : (Token.head ts).kind with
    | name x =>
      obtain ⟨t, ts, rfl, ht⟩ := Token.exists_cons_of_kind_head hk (by simp)
      refine settles_skip (settles_accept ?_ fun _ => ?_)
      · rintro o rest rfl ho
        have hd' : Suffices d rest.length 12 := hd.pred.tail.tail.mono (by decide)
        simp only [if_true]
        refine .closed expressions_sound id ((expressions_settles hd').mono (by decide)) ?_
          fun _ hW => settles_expect hW fun _ _ _ _ => settles_pure _
        intro us ws es h
        exact ⟨ws ++ [mark .rightBracket], _,
          by simpa using @Variable.indexed _ _ _ (mark .rightBracket) _ _ ht ho h rfl⟩
      · simp only [Bool.false_eq_true, if_false]
        exact settles_pure _
    | _ => exact settles_fail hf

theorem expressions_settles : ∀ {d ts}, Suffices d ts.length 12 →
    Settles expressions 12 (Viable Expressions) ts
  | 0, _, hd => absurd hd (not_suffices_zero (by decide))
  | d + 1, ts, hd => by
    refine .succ expressions.eq_2
      (.bind chain_sound ((chain_settles (l := .equality) hd.pred).imp ?_) ?_)
    · rintro us rest rfl ⟨ws, e, h⟩
      exact ⟨ws, _, .one h⟩
    · rintro e us rest rfl ⟨h, _⟩
      refine ⟨fun hn => absurd hn h.starts.ne_nil, settles_accept ?_ fun _ => ?_⟩
      · rintro t rest rfl ht
        have hd' : Suffices d rest.length 12 := hd.pred.right.mono (by decide)
        simp only [if_true]
        refine .map _ (((expressions_settles hd').imp ?_).mono (by decide))
        rintro vs rest rfl ⟨ws, es, h'⟩
        exact ⟨ws, _, by simpa using Expressions.more h ht h'⟩
      · simp only [Bool.false_eq_true, if_false]
        exact settles_pure _

theorem matrixRows_settles : ∀ {d ts}, Suffices d ts.length 13 →
    Settles matrixRows 13 (Viable Rows) ts
  | 0, _, hd => absurd hd (not_suffices_zero (by decide))
  | d + 1, ts, hd => by
    refine .succ matrixRows.eq_2 (.bind expressions_sound ((expressions_settles hd.pred).imp ?_) ?_)
    · rintro us rest rfl ⟨ws, es, h⟩
      exact ⟨ws, _, .one h⟩
    · rintro es us rest rfl h
      refine ⟨fun hn => absurd hn h.starts.ne_nil, settles_accept ?_ fun _ => ?_⟩
      · rintro t rest rfl ht
        have hd' : Suffices d rest.length 13 := hd.pred.right.mono (by decide)
        simp only [if_true]
        refine settles_peek ?_
        split
        · exact settles_pure _
        · refine .map _ (((matrixRows_settles hd').imp ?_).mono (by decide))
          rintro vs rest rfl ⟨ws, rows, h'⟩
          exact ⟨ws, _, by simpa using Rows.more h ht h'⟩
      · simp only [Bool.false_eq_true, if_false]
        exact settles_pure _

end

end Settles

end MatrixLang.Phrase
