import MatrixLang.Proofs.Syntax.ExpressionSettled
import MatrixLang.Proofs.Syntax.Program

/-! # Statements that settle

The rules for statements settle as well. A statement in front of one token is the same in front of
another one that no statement goes on with; so where nothing of the next part has been passed the
parts so far can be closed at once.
-/

namespace MatrixLang.Phrase

open Grammar Rule

section Closes

/-- No statement goes on with a token of the kind `k`. -/
structure Closes (k : Kind) : Prop where
  opens : ¬ Opens k
  alternative : k ≠ .keyword .elseWord

theorem closes_endOfInput : Closes .endOfInput where
  opens h := by simpa [Kind.startsExpression] using startsExpression_iff_opens.mpr h
  alternative := nofun

theorem closes_rightBrace : Closes (.symbol .rightBrace) where
  opens h := by simpa [Kind.startsExpression] using startsExpression_iff_opens.mpr h
  alternative := nofun

theorem follow_of_ne_nil {us : List Token} (h : us ≠ []) (ws : List Token) (k : Kind) :
    follow (us ++ ws) k = (Token.head us).kind := by
  cases us with
  | nil => exact absurd rfl h
  | cons u us => rfl

mutual

theorem Statement.close {chained us k k' s} (hk : Closes k') :
    Statement chained us k s → Statement chained us k' s
  | .assignment h ht h' hu => .assignment h ht h' hu
  | .instruction ht h hu _ => .instruction ht h hu fun _ _ => hk.opens
  | .expression h hu => .expression h hu
  | .conditional h => .conditional (h.close hk)
  | .whileLoop ht ho h hc h' => .whileLoop ht ho h hc (h'.close hk)
  | @Statement.forLoop _ _ _ _ _ _ _ ws k _ _ _ _ ht hv hq hl hc hu hs h => by
    refine .forLoop ht hv hq hl hc hu ?_ (h.close hk)
    have hw := follow_of_ne_nil h.ne_nil []
    rw [List.append_nil] at hw
    rwa [hw k', ← hw k]

theorem Conditional.close {chained us k k' s} (hk : Closes k') :
    Conditional chained us k s → Conditional chained us k' s
  | .mk ht ho h hc h' (.none _) => .mk ht ho h hc (h'.close hk) (.none hk.alternative)
  | .mk ht ho h hc h' (.elseIf he hs) => .mk ht ho h hc h' (.elseIf he (hs.close hk))
  | .mk ht ho h hc h' (.block he hm hb) => .mk ht ho h hc h' (.block he hm (hb.close hk))

theorem Block.close {chained us k k' b} (hk : Closes k') :
    Block chained us k b → Block chained us k' b
  | .braced ho hc h => .braced ho hc h
  | .bare h => .bare (h.close hk)

end

theorem Statements.close {chained us k k' ss} (hk : Closes k') :
    Statements chained us k ss → Statements chained us k' ss
  | .nil => .nil
  | @Statements.cons _ us vs k s ss h h' => by
    refine .cons ?_ (h'.close hk)
    cases vs with
    | nil => exact h.close hk
    | cons v vs => exact h

end Closes

section Parts

variable {d n : Nat} {us ts rest : List Token} {t : Token} {V : List Token → Prop}

theorem expression_settles (hd : Suffices d ts.length 11) :
    Settles expression 11 (Viable Expression) ts :=
  chain_settles (l := .equality) hd

theorem terminator_of_not {x : Terminated} (h : ¬ Terminates (Token.head ts)) :
    terminator x ts = .error (.terminator x) ts := by
  rw [Terminates, not_or] at h
  rw [terminator, bind_of_eq_ok (accept_of_ne h.1), if_neg nofun, expect, peek_bind, if_neg h.2]
  rfl

theorem settles_terminator {α : Type} {x : Terminated} {r : Nat → Rule α} (hV : V [])
    (h : ∀ t rest, ts = t :: rest → Terminates t →
      Settles r rank (fun vs => V (t :: vs)) rest) :
    Settles (fun d => terminator x >>= fun _ => r d) n V ts := by
  by_cases ht : Terminates (Token.head ts)
  · cases ts with
    | nil => exact absurd rfl ht.kind_ne
    | cons t ts => exact (h t ts rfl ht).cons fun d vs _ => bind_of_eq_ok (terminator_cons ht) _
  · refine (settles_fail (x := .terminator x) hV).congr fun d vs hv => ?_
    rw [bind_apply, terminator_of_not (hv ▸ ht)]
    rfl

theorem expressionStatement_settles (hd : Suffices d ts.length 11) :
    Settles expressionStatement 11 (Viable fun us s => ∀ k, Statement true us k s) ts := by
  refine settles_peek (.bind expression_sound ((expression_settles hd).imp ?_) ?_)
  · rintro us rest rfl ⟨ws, e, h⟩
    exact ⟨ws ++ [mark .semicolon], _,
      fun k => by simpa using @Statement.expression true _ (mark .semicolon) k _ h (.inl rfl)⟩
  · rintro e us rest rfl ⟨h, _⟩
    refine ⟨fun hn => absurd hn (Chain.starts h).ne_nil,
      settles_terminator ?_ fun _ _ _ _ => settles_pure _⟩
    exact ⟨[mark .semicolon], _,
      fun k => by simpa using @Statement.expression true _ (mark .semicolon) k _ h (.inl rfl)⟩

/-- An expression statement that starts with a variable does not end inside of it. So going back
from a missing assignment operator does nothing that depends on later tokens. -/
theorem assignmentOrExpression_runs {vs rest' : List Token} {r : Reference Node}
    {o : List Token → Outcome Node} (hts : us ++ rest = vs ++ rest') (hr : Variable us r)
    (hu : Runs reference 1 us (Token.head rest) (.ok r))
    (hk : ∀ op, (Token.head rest).kind ≠ .symbol (.assign op))
    (h : Runs expressionStatement 11 vs (Token.head rest') o)
    (ho : ∀ {ws s}, o ws = .ok s [] → ws = []) :
    Runs assignmentOrExpression 11 vs (Token.head rest') o := by
  have hpre : ∃ ws, vs = us ++ ws ∧ rest = ws ++ rest' := by
    rcases List.append_eq_append_iff.mp hts with ⟨ws, hv, hw⟩ | ⟨ws, rfl, hw⟩
    · exact ⟨ws, hv, hw⟩
    · cases ws with
      | nil => exact ⟨[], by simp, by simpa using hw.symm⟩
      | cons w ws =>
        have hd : Suffices (rank * (vs ++ w :: ws ++ [mark .semicolon]).length + 11)
            (vs ++ w :: ws ++ [mark .semicolon]).length 11 := Nat.le_refl _
        have hm : Terminates (mark .semicolon) := .inl rfl
        have hs := expressionStatement_read (Primary.reference hr).expression hm hd
        rw [List.append_assoc] at hs hd
        rw [h _ _ hd (by rw [hw]; rfl)] at hs
        exact absurd (ho hs) (by simp)
  obtain ⟨ws, rfl, rfl⟩ := hpre
  intro d xs hd hx
  have href : reference d (us ++ (ws ++ xs)) = .ok r (ws ++ xs) := by
    refine hu d _ ?_ (head_append_congr hx ws)
    simpa using hd.mono (by decide : 1 ≤ 11)
  rw [List.append_assoc, assignmentOrExpression_of_ne href (by rwa [head_append_congr hx ws]),
    ← List.append_assoc]
  exact h d xs hd hx

theorem assignmentOrExpression_settles (hd : Suffices d ts.length 11) :
    Settles assignmentOrExpression 11 (Viable fun us s => ∀ k, Statement true us k s) ts := by
  cases reference_settles (hd.mono (by decide : 1 ≤ 11)) with
  | @stuck us rest x hts h hu =>
    refine .stuck (x := x) hts (fun d rest hd hv => ?_) ?_
    · rw [assignmentOrExpression, remaining_bind, bind_apply,
        h d rest (hd.mono (by decide)) hv]
      rfl
    · obtain ⟨ws, r, h⟩ := hu
      exact ⟨ws ++ [mark .semicolon], _, fun k => by
        simpa using @Statement.expression true _ (mark .semicolon) k _
          (Primary.reference h).expression (.inl rfl)⟩
  | @passed us rest r hts h =>
    obtain rfl := hts
    obtain ⟨d', h'⟩ := h.exists_eq
    obtain ⟨us', hu, hr, _⟩ := reference_sound h'
    obtain rfl := List.append_cancel_right hu
    by_cases hk : ∃ op, (Token.head rest).kind = .symbol (.assign op)
    · obtain ⟨op, hk⟩ := hk
      obtain ⟨t, rest, rfl, ht⟩ := Token.exists_cons_of_kind_head hk (by simp)
      have hs : Settles (fun d => expression d >>= fun e => terminator .assignment >>= fun _ =>
          pure (Node.assignment r op e t.location)) rank
          (fun vs => Viable (fun us s => ∀ k, Statement true us k s) (us ++ [t] ++ vs)) rest := by
        have hd' : Suffices d rest.length 11 := hd.right.mono (by decide)
        refine .closed expression_sound And.left ((expression_settles hd').mono (by decide)) ?_
          fun _ hW => settles_terminator hW fun _ _ _ _ => settles_pure _
        intro vs ws e h
        exact ⟨ws ++ [mark .semicolon], _, fun k => by
          simpa using @Statement.assignment true _ _ _ (mark .semicolon) k _ _ _ hr ht h (.inl rfl)⟩
      rw [List.append_cons]
      refine hs.lift fun vs ws o _ hrun d xs hd hx => ?_
      simp only [List.append_assoc, List.cons_append, List.nil_append] at hd ⊢
      have href := h d (t :: (vs ++ xs)) (hd.mono (by decide)) rfl
      rw [assignmentOrExpression, remaining_bind, bind_of_eq_ok href, peek_bind, Token.head_cons]
      simp only [ht, skip_bind_cons]
      exact hrun d xs hd.right hx
    · cases expressionStatement_settles hd with
      | passed hts hs =>
        refine .passed hts (assignmentOrExpression_runs hts hr h (not_exists.mp hk) hs ?_)
        rintro ws s ⟨⟩
        rfl
      | stuck hts hs hu =>
        exact .stuck hts (assignmentOrExpression_runs hts hr h (not_exists.mp hk) hs nofun) hu

theorem bind_assoc {α β γ : Type} (r : Rule α) (f : α → Rule β) (g : β → Rule γ) :
    r >>= f >>= g = r >>= fun a => f a >>= g := by
  funext ts
  simp only [bind_apply]
  cases r ts <;> rfl

theorem values_succ_bind {x : Terminated} (d : Nat) (g : List Node → Node) :
    (values (d + 1) >>= fun es => terminator x >>= fun _ => pure (g es)) =
      expression d >>= fun e => continuingComma >>= fun more =>
        if more then values d >>= fun es => terminator x >>= fun _ => pure (g (e :: es))
        else terminator x >>= fun _ => pure (g [e]) := by
  rw [values, bind_assoc]
  congr 1
  funext e
  rw [bind_assoc]
  congr 1
  funext more
  cases more with
  | false => rfl
  | true =>
    rw [if_pos rfl, if_pos rfl, bind_assoc]
    rfl

/-- Values and what ends the instruction settle together, though behind a comma the values look at
one more token. -/
theorem values_settles {x : Terminated} (g : List Node → Node) (hd : Suffices d ts.length 12) :
    Settles (fun d => values d >>= fun es => terminator x >>= fun _ => pure (g es)) 12
      (Viable Expressions) ts := by
  induction d generalizing ts g with
  | zero => exact absurd hd (not_suffices_zero (by decide))
  | succ d ih =>
    refine .succ (values_succ_bind · g)
      (.bind expression_sound ((expression_settles hd.pred).imp ?_) ?_)
    · rintro us rest rfl ⟨ws, e, h⟩
      exact ⟨ws, _, .one h⟩
    · rintro e us rest rfl ⟨h, _⟩
      refine ⟨fun hn => absurd hn (Chain.starts h).ne_nil, ?_⟩
      have hV : Viable Expressions (us ++ []) := ⟨[], _, by simpa using Expressions.one h⟩
      by_cases hk : (Token.head rest).kind = .symbol .comma
      · obtain ⟨t, rest, rfl, ht⟩ := Token.exists_cons_of_kind_head hk (by simp)
        by_cases ho : Opens (Token.head rest).kind
        · have hd' : Suffices d rest.length 12 := hd.pred.right.mono (by decide)
          refine (((ih (fun es => g (e :: es)) hd').imp ?_).mono (by decide)).cons
            fun d vs hv => ?_
          · rintro vs rest rfl ⟨ws, es, h'⟩
            exact ⟨ws, _, by simpa using Expressions.more h ht h'⟩
          · rw [bind_of_eq_ok (continuingComma_eq_ok_iff.mpr
              (.inl ⟨rfl, t, ht, rfl, by rwa [hv]⟩)), if_pos rfl]
        · refine (settles_pure (g [e])).cons fun d vs hv => ?_
          rw [bind_of_eq_ok (continuingComma_eq_ok_iff.mpr
            (.inr ⟨rfl, rfl, fun _ => by simpa [hv] using ho⟩)), if_neg nofun,
            bind_of_eq_ok (terminator_cons (.inr ht))]
      · refine (settles_terminator (x := x) hV fun _ _ _ _ => settles_pure (g [e])).congr
          fun d vs hv => ?_
        rw [bind_of_eq_ok (continuingComma_eq_ok_iff.mpr
          (.inr ⟨rfl, rfl, fun hc => absurd (hv ▸ hc) hk⟩)), if_neg nofun]

theorem payload_settles {i : Instruction} {x : Terminated} (g : List Node → Node)
    (hd : Suffices d ts.length 12) :
    Settles (fun d => payload d i >>= fun es => terminator x >>= fun _ => pure (g es)) 12
      (Viable (Payload i)) ts := by
  have hnone {n : Nat} {ts : List Token} (h : Payload i [] []) :
      Settles (fun _ => (terminator x >>= fun _ => pure (g []) : Rule Node)) n
        (Viable (Payload i)) ts :=
    settles_terminator ⟨[], [], h⟩ fun _ _ _ _ => settles_pure _
  cases i with
  | breakLoop => exact hnone .breakLoop
  | continueLoop => exact hnone .continueLoop
  | returnValues =>
    by_cases hk : (Token.head ts).kind.startsExpression = true
    · refine ((values_settles (x := x) g hd).imp ?_).congr fun d vs hv => ?_
      · rintro us rest rfl ⟨ws, es, h⟩
        exact ⟨ws, es, .returnValues h⟩
      · simp only [payload, bind_assoc, peek_bind, hv, hk, if_true]
    · refine (hnone .returnNothing).congr fun d vs hv => ?_
      simp only [payload, bind_assoc, peek_bind, hv, hk]
      rfl
  | printValues =>
    refine (values_settles g hd).imp ?_
    rintro us rest rfl ⟨ws, es, h⟩
    exact ⟨ws, es, .printValues h⟩

def Condition (us : List Token) (e : Node) : Prop :=
  ∃ o vs c, us = o :: vs ++ [c] ∧ o.kind = .symbol .leftParen ∧ Expression vs e ∧
    c.kind = .symbol .rightParen

theorem Condition.ne_nil {e : Node} (h : Condition us e) : us ≠ [] := by
  obtain ⟨o, vs, c, rfl, _⟩ := h
  exact List.cons_ne_nil _ _

theorem condition_spelled {w : Keyword} {e : Node} (h : condition d w ts = .ok e rest) :
    ∃ us, ts = us ++ rest ∧ Condition us e := by
  obtain ⟨o, vs, c, rfl, ho, he, hc⟩ := condition_sound h
  exact ⟨o :: vs ++ [c], by simp, o, vs, c, rfl, ho, he, hc⟩

theorem condition_settles {w : Keyword} (hd : Suffices d ts.length n) :
    Settles (condition · w) n (Viable Condition) ts := by
  have hp : Condition [mark .leftParen, numeral, mark .rightParen] _ :=
    ⟨mark .leftParen, [numeral], mark .rightParen, rfl, rfl, chain_numeral .equality, rfl⟩
  refine settles_expect ⟨_, _, hp⟩ ?_
  rintro o rest rfl ho
  have hd' : Suffices d rest.length 11 := hd.tail.mono (by decide)
  refine .closed expression_sound And.left ((expression_settles hd').mono (by decide)) ?_
    fun _ hW => settles_expect hW fun _ _ _ _ => settles_pure _
  intro us ws e h
  exact ⟨ws ++ [mark .rightParen], e, o, us ++ ws, mark .rightParen, by simp, ho, h, rfl⟩

/-- The tokens spell the bounds of a loop, which a token of the kind `k` does not go on with. -/
def Range (us : List Token) (b : Bounds Node) (k : Kind) : Prop :=
  ∃ vs c ws, us = vs ++ c :: ws ∧ Expression vs b.lower ∧ c.kind = .symbol .colon ∧
    Expression ws b.upper ∧ b.location = c.location ∧ Ends ws k

theorem bounds_spelled {b : Bounds Node} (h : bounds d ts = .ok b rest) :
    ∃ us, ts = us ++ rest ∧ Range us b (Token.head rest).kind := by
  obtain ⟨us, c, vs, rfl, hl, hc, hu, hb, hs⟩ := bounds_sound h
  exact ⟨us ++ c :: vs, by simp, us, c, vs, rfl, hl, hc, hu, hb, hs⟩

theorem ends_leftBrace {us : List Token} : Ends us (.symbol .leftBrace) :=
  ⟨fun c => by cases c <;> nofun, nofun, fun _ => nofun⟩

theorem bounds_settles (hd : Suffices d ts.length 11) :
    Settles bounds 11 (Viable fun us b => Range us b (.symbol .leftBrace)) ts := by
  have hr {us vs : List Token} {c : Token} {lower upper : Node} (hl : Expression us lower)
      (hc : c.kind = .symbol .colon) (hu : Expression vs upper) :
      Range (us ++ c :: vs) ⟨lower, upper, c.location⟩ (.symbol .leftBrace) :=
    ⟨us, c, vs, rfl, hl, hc, hu, rfl, ends_leftBrace⟩
  refine .bind expression_sound ((expression_settles hd).imp ?_) ?_
  · rintro us rest rfl ⟨ws, e, h⟩
    exact ⟨ws ++ [mark .colon, numeral], _,
      by simpa using hr h (c := mark .colon) rfl (chain_numeral .equality)⟩
  · rintro lower us rest rfl ⟨hl, _⟩
    refine ⟨fun hn => absurd hn (Chain.starts hl).ne_nil, settles_peek (settles_expect ?_ ?_)⟩
    · exact ⟨[mark .colon, numeral], _,
        by simpa using hr hl (c := mark .colon) rfl (chain_numeral .equality)⟩
    · rintro c rest rfl hc
      have hd' : Suffices d rest.length 11 := hd.right.mono (by decide)
      refine .map _ (((expression_settles hd').imp ?_).mono (by decide))
      rintro vs rest rfl ⟨ws, e, h⟩
      exact ⟨ws, _, by simpa using hr hl hc h⟩

end Parts

section Settles

variable {us ts rest : List Token}

theorem block_braces (k : Kind) :
    Block true [mark .leftBrace, mark .rightBrace] k ⟨[], .nowhere⟩ :=
  @Block.braced true (mark .leftBrace) [] (mark .rightBrace) k [] rfl rfl .nil

abbrev Sentence (us : List Token) (s : Node) : Prop := Statement true us .endOfInput s

theorem Block.conditional {t : Token} {vs ws : List Token} {e : Node} {b : MatrixLang.Block Node}
    {a : Option (MatrixLang.Alternative Node)} (h : Block true vs (follow ws .endOfInput) b)
    (ht : t.kind = .keyword .ifWord) (hc : Condition us e)
    (ha : Alternative true ws .endOfInput a) :
    Conditional true (t :: (us ++ (vs ++ ws))) .endOfInput (.conditional e b a t.location) := by
  obtain ⟨o, us, c, rfl, ho, he, hc⟩ := hc
  simpa using Conditional.mk ht ho he hc h ha

theorem alternative_nil : Alternative true [] .endOfInput none := .none nofun

theorem Block.whileLoop {t : Token} {vs : List Token} {e : Node} {b : MatrixLang.Block Node}
    (h : Block true vs .endOfInput b) (ht : t.kind = .keyword .whileWord) (hc : Condition us e) :
    Sentence (t :: (us ++ vs)) (.whileLoop e b t.location) := by
  obtain ⟨o, us, c, rfl, ho, he, hc⟩ := hc
  simpa using Statement.whileLoop ht ho he hc h

theorem Block.forLoop {t v q : Token} {x : String} {vs : List Token} {r : Bounds Node}
    {b : MatrixLang.Block Node} (h : Block true vs .endOfInput b)
    (ht : t.kind = .keyword .forWord) (hv : v.kind = .name x)
    (hq : q.kind = .symbol (.assign .plain)) (hr : Range us r (Token.head vs).kind) :
    Sentence (t :: v :: q :: (us ++ vs)) (.forLoop ⟨x, [], v.location⟩ r b t.location) := by
  obtain ⟨us, c, ws, rfl, hl, hc, hu, hb, hs⟩ := hr
  obtain ⟨lower, upper, l⟩ := r
  obtain rfl : l = c.location := hb
  have hf := follow_of_ne_nil h.ne_nil [] .endOfInput
  rw [List.append_nil] at hf
  rw [← hf] at hs
  simpa using Statement.forLoop ht hv hq hl hc hu hs h

theorem range_numeral :
    Range [numeral, mark .colon, numeral] ⟨.integer 1 .nowhere, .integer 1 .nowhere, .nowhere⟩
      (.symbol .leftBrace) :=
  ⟨[numeral], mark .colon, [numeral], rfl, chain_numeral .equality, rfl, chain_numeral .equality,
    rfl, ends_leftBrace⟩

theorem Range.leftBrace {r : Bounds Node} {k : Kind} (h : Range us r k) :
    Range us r (.symbol .leftBrace) := by
  obtain ⟨vs, c, ws, hus, hl, hc, hu, hb, _⟩ := h
  exact ⟨vs, c, ws, hus, hl, hc, hu, hb, ends_leftBrace⟩

/-- Bounds go on with a block that was begun in front of `rest`, or with one in braces. -/
theorem Viable.forLoop {t v q : Token} {x : String} {vs : List Token} {r : Bounds Node}
    (h : Viable (fun us b => Block true us .endOfInput b) vs) (ht : t.kind = .keyword .forWord)
    (hv : v.kind = .name x) (hq : q.kind = .symbol (.assign .plain))
    (hr : Range us r (Token.head (vs ++ rest)).kind) :
    Viable Sentence (t :: v :: q :: (us ++ vs)) := by
  by_cases hvs : vs = []
  · exact ⟨_, _, by simpa [hvs] using (block_braces _).forLoop ht hv hq hr.leftBrace⟩
  · obtain ⟨ws, b, h⟩ := h
    rw [Token.head_append hvs, ← Token.head_append hvs ws] at hr
    exact ⟨ws, _, by simpa using h.forLoop ht hv hq hr⟩

/-- A block goes on with an alternative that was begun in front of `rest`, or with none. -/
theorem Viable.conditional {t : Token} {vs ws : List Token} {e : Node} {b : MatrixLang.Block Node}
    (h : Viable (fun us a => Alternative true us .endOfInput a) ws)
    (ht : t.kind = .keyword .ifWord) (hc : Condition us e)
    (hb : Block true vs (Token.head (ws ++ rest)).kind b) :
    Viable (fun us s => Conditional true us .endOfInput s) (t :: (us ++ (vs ++ ws))) := by
  by_cases hws : ws = []
  · have hb' : Block true vs (follow [] .endOfInput) b := hb.close closes_endOfInput
    exact ⟨[], _, by simpa [hws] using hb'.conditional ht hc alternative_nil⟩
  · obtain ⟨xs, a, h⟩ := h
    rw [Token.head_append hws, ← follow_of_ne_nil hws xs .endOfInput] at hb
    exact ⟨xs, _, by simpa using hb.conditional ht hc h⟩

theorem Viable.alternative {t : Token} {vs : List Token}
    (h : Viable (fun us b => Block true us .endOfInput b) vs) (ht : t.kind = .keyword .elseWord)
    (hi : (Token.head (vs ++ rest)).kind ≠ .keyword .ifWord) :
    Viable (fun us a => Alternative true us .endOfInput a) (t :: vs) := by
  by_cases hvs : vs = []
  · have hm : MayBlock true [mark .leftBrace, mark .rightBrace] := fun _ => by simp [mark]
    exact ⟨_, _, by simpa [hvs] using Alternative.block ht hm (block_braces _)⟩
  · obtain ⟨ws, b, h⟩ := h
    rw [Token.head_append hvs, ← Token.head_append hvs ws] at hi
    exact ⟨ws, _, .block ht (fun _ => hi) h⟩

theorem Viable.statements {vs : List Token} {s : Node}
    (h : Viable (fun us ss => Statements true us .endOfInput ss) vs)
    (hs : Statement true us (Token.head (vs ++ rest)).kind s) :
    Viable (fun us ss => Statements true us .endOfInput ss) (us ++ vs) := by
  by_cases hvs : vs = []
  · have hs' : Statement true us (follow [] .endOfInput) s := hs.close closes_endOfInput
    exact ⟨[], [s], by simpa [hvs] using Statements.cons hs' .nil⟩
  · obtain ⟨ws, ss, h⟩ := h
    rw [Token.head_append hvs, ← follow_of_ne_nil hvs ws .endOfInput] at hs
    exact ⟨ws, _, by simpa using Statements.cons hs h⟩

section Loops

variable {d : Nat} {t v : Token} {x : String}

theorem whileLoop_settles
    (hb : ∀ {ts}, Suffices d ts.length 13 →
      Settles block 13 (Viable fun us b => Block true us .endOfInput b) ts)
    (hd : Suffices d ts.length rank) (ht : t.kind = .keyword .whileWord) :
    Settles (fun d => condition d .whileWord >>= fun e => block d >>= fun b =>
      pure (Node.whileLoop e b t.location)) rank (fun us => Viable Sentence (t :: us)) ts := by
  refine .bind condition_spelled ((condition_settles hd).imp ?_) ?_
  · rintro us rest rfl ⟨ws, e, h⟩
    exact ⟨ws ++ _, _, by simpa using (block_braces _).whileLoop ht h⟩
  · rintro e us rest rfl h
    have hd' : Suffices d rest.length 13 := hd.of_append.mono (by decide)
    refine ⟨fun _ => Nat.le_refl _, .map _ (((hb hd').imp ?_).mono (by decide))⟩
    rintro vs rest rfl ⟨ws, b, hb⟩
    exact ⟨ws, _, by simpa using hb.whileLoop ht h⟩

theorem forLoop_settles
    (hb : ∀ {ts}, Suffices d ts.length 13 →
      Settles block 13 (Viable fun us b => Block true us .endOfInput b) ts)
    (hd : Suffices d ts.length rank) (ht : t.kind = .keyword .forWord) (hv : v.kind = .name x) :
    Settles (fun d => expect (.assign .plain) .loopAssignment >>= fun _ => bounds d >>= fun r =>
      block d >>= fun b => pure (Node.forLoop ⟨x, [], v.location⟩ r b t.location)) rank
      (fun us => Viable Sentence (t :: v :: us)) ts := by
  refine settles_expect ?_ ?_
  · exact ⟨mark (.assign .plain) :: _, _, (block_braces _).forLoop ht hv rfl range_numeral⟩
  · rintro q rest rfl hq
    have hd' : Suffices d rest.length 11 := hd.tail.mono (by decide)
    refine .bind bounds_spelled (((bounds_settles hd').imp ?_).mono (by decide)) ?_
    · rintro us rest rfl ⟨ws, r, h⟩
      exact ⟨ws ++ _, _, by simpa using (block_braces _).forLoop ht hv hq h⟩
    · rintro r us rest rfl h
      have hd'' : Suffices d rest.length 13 := hd.tail.of_append.mono (by decide)
      refine ⟨fun _ => Nat.le_refl _, .map _ (((hb hd'').imp ?_).mono (by decide))⟩
      rintro vs rest rfl hb
      exact hb.forLoop ht hv hq h

end Loops

mutual

theorem statement_settles : ∀ {d ts}, Suffices d ts.length 12 →
    Settles statement 12 (Viable Sentence) ts
  | 0, _, hd => absurd hd (not_suffices_zero (by decide))
  | d + 1, ts, hd => by
    have hx : Settles expressionStatement 11 (Viable Sentence) ts := by
      refine (expressionStatement_settles hd.pred).imp ?_
      rintro us rest rfl ⟨ws, s, h⟩
      exact ⟨ws, s, h _⟩
    refine .succ statement.eq_2 (settles_peek ?_)
    cases hk : (Token.head ts).kind with
    | keyword w =>
      cases w with
      | ifWord =>
        obtain ⟨t, ts, rfl, ht⟩ := Token.exists_cons_of_kind_head hk (by simp)
        refine settles_skip ((conditional_settles hd.pred.tail ht).imp ?_)
        rintro us rest rfl ⟨ws, s, h⟩
        exact ⟨ws, s, .conditional h⟩
      | whileWord =>
        obtain ⟨t, ts, rfl, ht⟩ := Token.exists_cons_of_kind_head hk (by simp)
        exact settles_skip (whileLoop_settles block_settles hd.pred.tail ht)
      | forWord =>
        obtain ⟨t, ts, rfl, ht⟩ := Token.exists_cons_of_kind_head hk (by simp)
        refine settles_skip (settles_peek ?_)
        cases hx : (Token.head ts).kind with
        | name x =>
          obtain ⟨v, ts, rfl, hv⟩ := Token.exists_cons_of_kind_head hx (by simp)
          exact settles_skip (forLoop_settles block_settles hd.pred.tail.tail ht hv)
        | _ =>
          have hf : Viable Sentence [t] :=
            ⟨⟨.name "", .nowhere⟩ :: mark (.assign .plain) :: _, _,
              (block_braces _).forLoop ht rfl rfl range_numeral⟩
          exact settles_fail hf
      | instruction i =>
        obtain ⟨t, ts, rfl, ht⟩ := Token.exists_cons_of_kind_head hk (by simp)
        have hd' : Suffices d ts.length 12 := hd.pred.tail.mono (by decide)
        refine settles_skip (((payload_settles _ hd').imp ?_).mono (by decide))
        rintro us rest rfl ⟨ws, es, h⟩
        exact ⟨ws ++ [mark .semicolon], _, by
          simpa using @Statement.instruction true t _ (mark .semicolon) .endOfInput _ _ ht h
            (.inl rfl) nofun⟩
      | elseWord => exact hx
      | builtin b => exact hx
    | name x =>
      refine (assignmentOrExpression_settles hd.pred).imp ?_
      rintro us rest rfl ⟨ws, s, h⟩
      exact ⟨ws, s, h _⟩
    | _ => exact hx

theorem conditional_settles : ∀ {d t ts}, Suffices d ts.length 20 →
    t.kind = .keyword .ifWord →
    Settles (conditional · t.location) 20
      (fun us => Viable (fun us s => Conditional true us .endOfInput s) (t :: us)) ts
  | 0, _, _, hd => absurd hd (not_suffices_zero (by decide))
  | d + 1, t, ts, hd => by
    intro ht
    refine .succ (fun d => conditional.eq_2 t.location d)
      (.bind condition_spelled ((condition_settles hd.pred).imp ?_) ?_)
    · rintro us rest rfl ⟨ws, e, h⟩
      exact ⟨ws ++ _, _, by simpa using (block_braces _).conditional ht h alternative_nil⟩
    · rintro e us rest rfl hc
      have hd' : Suffices d rest.length 13 := hd.pred.of_append.mono (by decide)
      refine ⟨fun hn => absurd hn hc.ne_nil,
        .bind block_sound (((block_settles hd').imp ?_).mono (by decide)) ?_⟩
      · rintro vs rest rfl ⟨ws, b, hb⟩
        exact ⟨ws, _, by simpa using hb.conditional ht hc alternative_nil⟩
      · rintro b vs rest rfl hb
        have hd'' : Suffices d rest.length 1 := hd'.of_append.mono (by decide)
        refine ⟨fun _ => Nat.le_refl _,
          .map _ (((alternative_settles hd'').imp ?_).mono (by decide))⟩
        rintro ws rest rfl ha
        exact ha.conditional ht hc hb

theorem alternative_settles : ∀ {d ts}, Suffices d ts.length 1 →
    Settles alternative 1 (Viable fun us a => Alternative true us .endOfInput a) ts
  | 0, _, hd => absurd hd (not_suffices_zero (by decide))
  | d + 1, ts, hd => by
    refine .succ alternative.eq_2 (settles_peek ?_)
    by_cases hk : (Token.head ts).kind = .keyword .elseWord
    · obtain ⟨t, ts, rfl, ht⟩ := Token.exists_cons_of_kind_head hk (by simp)
      simp only [Token.head_cons, ht, if_true]
      refine settles_skip (settles_peek ?_)
      by_cases hi' : (Token.head ts).kind = .keyword .ifWord
      · obtain ⟨i, ts, rfl, hi⟩ := Token.exists_cons_of_kind_head hi' (by simp)
        simp only [Token.head_cons, hi, if_true]
        have hd' : Suffices d ts.length 20 := hd.pred.tail.tail
        refine settles_skip (.map _ ((conditional_settles hd' hi).imp ?_))
        rintro us rest rfl ⟨ws, s, h⟩
        exact ⟨ws, _, .elseIf ht h⟩
      · simp only [hi', if_false]
        have hd' : Suffices d ts.length 13 := hd.pred.tail.mono (by decide)
        refine .map _ (((block_settles hd').imp ?_).mono (by decide))
        rintro us rest rfl h
        exact h.alternative ht hi'
    · simp only [hk, if_false]
      exact settles_pure _

theorem block_settles : ∀ {d ts}, Suffices d ts.length 13 →
    Settles block 13 (Viable fun us b => Block true us .endOfInput b) ts
  | 0, _, hd => absurd hd (not_suffices_zero (by decide))
  | d + 1, ts, hd => by
    refine .succ block.eq_2 (settles_peek (settles_accept ?_ fun _ => ?_))
    · rintro o rest rfl ho
      simp only [if_true]
      have hd' : Suffices d rest.length 13 := hd.pred.tail.mono (by decide)
      refine .closed (P := fun us ss => Statements true us .endOfInput ss) statements_sound
        (fun h => h.1.close closes_endOfInput) ((statements_settles hd').mono (by decide)) ?_
        fun _ hW => settles_expect hW fun _ _ _ _ => settles_pure _
      intro us ws ss h
      exact ⟨ws ++ [mark .rightBrace], _, by
        simpa using @Block.braced true o _ (mark .rightBrace) .endOfInput _ ho rfl
          (h.close closes_rightBrace)⟩
    · simp only [Bool.false_eq_true, if_false]
      refine .map _ ((statement_settles hd.pred).imp ?_)
      rintro us rest rfl ⟨ws, s, h⟩
      exact ⟨ws, _, .bare h⟩

theorem statements_settles : ∀ {d braced ts}, Suffices d ts.length 13 →
    Settles (statements · braced) 13
      (Viable fun us ss => Statements true us .endOfInput ss) ts
  | 0, _, _, hd => absurd hd (not_suffices_zero (by decide))
  | d + 1, braced, ts, hd => by
    refine .succ (fun d => statements.eq_2 braced d) (settles_peek ?_)
    split
    · exact settles_pure _
    · refine .bind statement_sound ((statement_settles hd.pred).imp ?_) ?_
      · rintro us rest rfl ⟨ws, s, h⟩
        exact ⟨ws, [s], by simpa using Statements.cons h .nil⟩
      · rintro s us rest rfl h
        have hd' : Suffices d rest.length 13 := (hd.pred.of_ne_nil h.ne_nil).mono (by decide)
        refine ⟨fun hn => absurd hn h.ne_nil, .map _ (((statements_settles hd').imp ?_).mono
          (by decide))⟩
        rintro vs rest rfl h'
        exact h'.statements h

end

end Settles

end MatrixLang.Phrase
