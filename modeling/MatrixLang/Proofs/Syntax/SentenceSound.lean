import MatrixLang.Proofs.Syntax.ExpressionComplete
import MatrixLang.Proofs.Syntax.Sentence

/-! # Statements that were read

Whatever the rules for statements read is derived by the grammar from the tokens that they passed,
in front of the token that they stopped at. The induction is on the depth again.
-/

namespace MatrixLang.Phrase

open Grammar Rule

section Opens

theorem Primary.expression {us : List Token} {e : Node} (h : Primary us e) : Expression us e :=
  .operand (.equality (.operand (.relational (.operand (.additive (.operand (.multiplicative
    (.transposed (.primary h)))))))))

theorem Negation.expression {us : List Token} {e : Node} (h : Negation us e) : Expression us e :=
  .operand (.equality (.operand (.relational (.operand (.additive (.operand
    (.multiplicative h)))))))

theorem startsExpression_iff_opens {k : Kind} : k.startsExpression = true ↔ Opens k := by
  constructor
  · intro h
    let one : Token := ⟨.integer 1, .nowhere⟩
    let close (s : Symbol) : Token := ⟨.symbol s, .nowhere⟩
    have h₁ : Primary [one] _ := .integer rfl
    cases k with
    | integer n => exact ⟨⟨.integer n, .nowhere⟩, _, _, rfl, (Primary.integer rfl).expression⟩
    | float x => exact ⟨⟨.float x, .nowhere⟩, _, _, rfl, (Primary.float rfl).expression⟩
    | string s => exact ⟨⟨.string s, .nowhere⟩, _, _, rfl, (Primary.string rfl).expression⟩
    | name x =>
      exact ⟨⟨.name x, .nowhere⟩, _, _, rfl, (Primary.reference (.plain rfl)).expression⟩
    | keyword w =>
      cases w with
      | builtin b =>
        exact ⟨⟨.keyword (.builtin b), .nowhere⟩, close .leftParen :: [one] ++ [close .rightParen],
          _, rfl, (Primary.builtin rfl rfl (.one h₁.expression) rfl).expression⟩
      | _ => simp [Kind.startsExpression] at h
    | symbol s =>
      simp only [Kind.startsExpression, decide_eq_true_eq] at h
      rcases h with rfl | rfl | rfl
      · exact ⟨close .leftParen, [one] ++ [close .rightParen], _, rfl,
          (Primary.parentheses rfl h₁.expression rfl).expression⟩
      · exact ⟨close .leftBracket, [one] ++ [close .rightBracket], _, rfl,
          (Primary.matrix rfl (.one (.one h₁.expression)) rfl).expression⟩
      · exact ⟨close (.binary (.plain .sub)), [one], _, rfl,
          (Negation.negate rfl (.transposed (.primary h₁))).expression⟩
    | endOfInput => simp [Kind.startsExpression] at h
  · rintro ⟨t, us, e, rfl, h⟩
    exact (Chain.starts h).startsExpression_head

end Opens

section Parts

variable {d : Nat} {ts rest : List Token}

theorem continuingComma_eq_ok_iff {b : Bool} :
    continuingComma ts = .ok b rest ↔
      (b = true ∧ ∃ t, t.kind = .symbol .comma ∧ ts = t :: rest ∧ Opens (Token.head rest).kind) ∨
      (b = false ∧ ts = rest ∧
        ((Token.head ts).kind = .symbol .comma → ¬ Opens (Token.head (ts.drop 1)).kind)) := by
  unfold continuingComma
  simp only [← startsExpression_iff_opens]
  split
  next h =>
    obtain ⟨t, us, rfl, ht⟩ := Token.exists_cons_of_kind_head h.1 (by simp)
    constructor
    · rintro ⟨⟩
      exact .inl ⟨rfl, t, ht, rfl, h.2⟩
    · rintro (⟨rfl, u, _, hu, _⟩ | ⟨_, _, hn⟩)
      · rw [hu]; rfl
      · exact absurd h.2 (hn ht)
  next h =>
    constructor
    · rintro ⟨⟩
      exact .inr ⟨rfl, rfl, fun hk ho => h ⟨hk, ho⟩⟩
    · rintro (⟨_, t, ht, rfl, ho⟩ | ⟨rfl, rfl, _⟩)
      · exact absurd ⟨ht, ho⟩ h
      · rfl

theorem terminator_cons {x : Terminated} {t : Token} (h : Terminates t) :
    terminator x (t :: ts) = .ok () ts := by
  unfold terminator
  rcases h with ht | ht
  · rw [bind_of_eq_ok (accept_cons ht)]
    rfl
  · rw [bind_of_eq_ok (accept_of_ne (by simp [ht]))]
    exact expect_cons ht

theorem terminator_eq_ok_iff {x : Terminated} {u : Unit} :
    terminator x ts = .ok u rest ↔ ∃ t, Terminates t ∧ ts = t :: rest := by
  constructor
  · intro h
    unfold terminator at h
    obtain ⟨b, ts₁, h₁, g₁⟩ := bind_eq_ok_iff.mp h
    rcases accept_eq_ok_iff.mp h₁ with ⟨rfl, t, ht, rfl⟩ | ⟨rfl, _, rfl⟩
    · obtain ⟨_, rfl⟩ := pure_eq_ok_iff.mp g₁
      exact ⟨t, .inl ht, rfl⟩
    · obtain ⟨t, ht, rfl⟩ := expect_eq_ok_iff.mp g₁
      exact ⟨t, .inr ht, rfl⟩
  · rintro ⟨t, ht, rfl⟩
    exact terminator_cons ht

theorem values_sound : ∀ {d ts es rest}, values d ts = .ok es rest →
    ∃ us, ts = us ++ rest ∧ Expressions us es ∧
      ((Token.head rest).kind = .symbol .comma → ¬ Opens (Token.head (rest.drop 1)).kind)
  | 0, _, _, _, h => by simp [values, exhausted] at h
  | d + 1, ts, es, rest, h => by
    rw [values] at h
    obtain ⟨e, ts₁, h₁, g₁⟩ := bind_eq_ok_iff.mp h
    obtain ⟨us, rfl, he, _⟩ := expression_sound h₁
    obtain ⟨_, ts₂, h₂, g₂⟩ := bind_eq_ok_iff.mp g₁
    rcases continuingComma_eq_ok_iff.mp h₂ with ⟨rfl, t, ht, rfl, _⟩ | ⟨rfl, rfl, hn⟩
    · obtain ⟨es', ts₃, h₃, g₃⟩ := bind_eq_ok_iff.mp g₂
      obtain ⟨vs, rfl, hes, hn⟩ := values_sound h₃
      obtain ⟨rfl, rfl⟩ := pure_eq_ok_iff.mp g₃
      exact ⟨us ++ t :: vs, by simp, .more he ht hes, hn⟩
    · obtain ⟨rfl, rfl⟩ := pure_eq_ok_iff.mp g₂
      exact ⟨us, rfl, .one he, hn⟩

theorem payload_sound {i : Instruction} {es : List Node} (h : payload d i ts = .ok es rest) :
    ∃ us, ts = us ++ rest ∧ Payload i us es ∧
      (us ≠ [] → (Token.head rest).kind = .symbol .comma →
        ¬ Opens (Token.head (rest.drop 1)).kind) := by
  cases i with
  | breakLoop =>
    obtain ⟨rfl, rfl⟩ := pure_eq_ok_iff.mp h
    exact ⟨[], rfl, .breakLoop, fun hn => absurd rfl hn⟩
  | continueLoop =>
    obtain ⟨rfl, rfl⟩ := pure_eq_ok_iff.mp h
    exact ⟨[], rfl, .continueLoop, fun hn => absurd rfl hn⟩
  | returnValues =>
    simp only [payload, peek_bind] at h
    split at h
    · obtain ⟨us, rfl, hes, hn⟩ := values_sound h
      exact ⟨us, rfl, .returnValues hes, fun _ => hn⟩
    · obtain ⟨rfl, rfl⟩ := pure_eq_ok_iff.mp h
      exact ⟨[], rfl, .returnNothing, fun hn => absurd rfl hn⟩
  | printValues =>
    obtain ⟨us, rfl, hes, hn⟩ := values_sound h
    exact ⟨us, rfl, .printValues hes, fun _ => hn⟩

theorem condition_sound {w : Keyword} {e : Node} (h : condition d w ts = .ok e rest) :
    ∃ o us c, ts = o :: us ++ c :: rest ∧ o.kind = .symbol .leftParen ∧ Expression us e ∧
      c.kind = .symbol .rightParen := by
  rw [condition] at h
  obtain ⟨_, ts₁, h₁, g₁⟩ := bind_eq_ok_iff.mp h
  obtain ⟨o, ho, rfl⟩ := expect_eq_ok_iff.mp h₁
  obtain ⟨e', ts₂, h₂, g₂⟩ := bind_eq_ok_iff.mp g₁
  obtain ⟨us, rfl, he, _⟩ := expression_sound h₂
  obtain ⟨_, ts₃, h₃, g₃⟩ := bind_eq_ok_iff.mp g₂
  obtain ⟨c, hc, rfl⟩ := expect_eq_ok_iff.mp h₃
  obtain ⟨rfl, rfl⟩ := pure_eq_ok_iff.mp g₃
  exact ⟨o, us, c, rfl, ho, he, hc⟩

theorem bounds_sound {b : Bounds Node} (h : bounds d ts = .ok b rest) :
    ∃ us c vs, ts = us ++ c :: vs ++ rest ∧ Expression us b.lower ∧ c.kind = .symbol .colon ∧
      Expression vs b.upper ∧ b.location = c.location ∧ Ends vs (Token.head rest).kind := by
  rw [bounds] at h
  obtain ⟨lower, ts₁, h₁, g₁⟩ := bind_eq_ok_iff.mp h
  obtain ⟨us, rfl, hl, _⟩ := expression_sound h₁
  rw [peek_bind] at g₁
  obtain ⟨_, ts₂, h₂, g₂⟩ := bind_eq_ok_iff.mp g₁
  obtain ⟨c, hc, rfl⟩ := expect_eq_ok_iff.mp h₂
  obtain ⟨upper, ts₃, h₃, g₃⟩ := bind_eq_ok_iff.mp g₂
  obtain ⟨vs, rfl, hu, hs⟩ := expression_sound h₃
  obtain ⟨rfl, rfl⟩ := pure_eq_ok_iff.mp g₃
  exact ⟨us, c, vs, by simp, hl, hc, hu, rfl, hs⟩

theorem expressionStatement_sound {s : Node} (h : expressionStatement d ts = .ok s rest) :
    ∃ us, ts = us ++ rest ∧ ∀ chained k, Statement chained us k s := by
  rw [expressionStatement, peek_bind] at h
  obtain ⟨e, ts₁, h₁, g₁⟩ := bind_eq_ok_iff.mp h
  obtain ⟨us, rfl, he, _⟩ := expression_sound h₁
  obtain ⟨_, ts₂, h₂, g₂⟩ := bind_eq_ok_iff.mp g₁
  obtain ⟨u, hu, rfl⟩ := terminator_eq_ok_iff.mp h₂
  obtain ⟨rfl, rfl⟩ := pure_eq_ok_iff.mp g₂
  refine ⟨us ++ [u], by simp, fun chained k => ?_⟩
  rw [Token.head_append (Chain.starts he).ne_nil]
  exact .expression he hu

/-- Without an assignment operator behind the reference the rule has read nothing yet. -/
theorem assignmentOrExpression_of_ne {r : Reference Node} {us : List Token}
    (h : reference d ts = .ok r us) (hk : ∀ op, (Token.head us).kind ≠ .symbol (.assign op)) :
    assignmentOrExpression d ts = expressionStatement d ts := by
  rw [assignmentOrExpression, remaining_bind, bind_of_eq_ok h, peek_bind]
  cases hu : (Token.head us).kind with
  | symbol m =>
    cases m with
    | assign op => exact absurd hu (hk op)
    | _ => rfl
  | _ => rfl

theorem assignmentOrExpression_sound {s : Node}
    (h : assignmentOrExpression d ts = .ok s rest) :
    ∃ us, ts = us ++ rest ∧ ∀ chained k, Statement chained us k s := by
  obtain ⟨target, ts₁, h₁, g₁⟩ := bind_eq_ok_iff.mp (show (reference d >>= _) ts = _ from h)
  by_cases hk : ∃ op, (Token.head ts₁).kind = .symbol (.assign op)
  · obtain ⟨op, hk⟩ := hk
    obtain ⟨t, ts₂, rfl, ht⟩ := Token.exists_cons_of_kind_head hk (by simp)
    obtain ⟨us, rfl, hr, _⟩ := reference_sound h₁
    simp only [peek_bind, hk, skip_bind_cons] at g₁
    obtain ⟨e, ts₃, h₃, g₃⟩ := bind_eq_ok_iff.mp g₁
    obtain ⟨vs, rfl, he, _⟩ := expression_sound h₃
    obtain ⟨_, ts₄, h₄, g₄⟩ := bind_eq_ok_iff.mp g₃
    obtain ⟨u, hu, rfl⟩ := terminator_eq_ok_iff.mp h₄
    obtain ⟨rfl, rfl⟩ := pure_eq_ok_iff.mp g₄
    exact ⟨us ++ t :: vs ++ [u], by simp, fun chained k => .assignment hr ht he hu⟩
  · rw [assignmentOrExpression_of_ne h₁ fun op hop => hk ⟨op, hop⟩] at h
    exact expressionStatement_sound h

end Parts

mutual

theorem statement_sound : ∀ {d ts s rest}, statement d ts = .ok s rest →
    ∃ us, ts = us ++ rest ∧ Statement true us (Token.head rest).kind s
  | 0, _, _, _, h => by simp [statement, exhausted] at h
  | d + 1, ts, s, rest, h => by
    rw [statement, peek_bind] at h
    have hx (h : expressionStatement d ts = .ok s rest) :
        ∃ us, ts = us ++ rest ∧ Statement true us (Token.head rest).kind s := by
      obtain ⟨us, hu, hs⟩ := expressionStatement_sound h
      exact ⟨us, hu, hs true _⟩
    cases hk : (Token.head ts).kind with
    | keyword w =>
      cases w with
      | ifWord =>
        obtain ⟨t, ts, rfl, ht⟩ := Token.exists_cons_of_kind_head hk (by simp)
        simp only [hk, skip_bind_cons] at h
        obtain ⟨us, rfl, hs⟩ := conditional_sound h ht rfl
        exact ⟨t :: us, rfl, .conditional hs⟩
      | whileWord =>
        obtain ⟨t, ts, rfl, ht⟩ := Token.exists_cons_of_kind_head hk (by simp)
        simp only [hk, skip_bind_cons] at h
        obtain ⟨e, ts₁, h₁, g₁⟩ := bind_eq_ok_iff.mp h
        obtain ⟨o, us, c, rfl, ho, he, hc⟩ := condition_sound h₁
        obtain ⟨b, ts₂, h₂, g₂⟩ := bind_eq_ok_iff.mp g₁
        obtain ⟨vs, rfl, hb⟩ := block_sound h₂
        obtain ⟨rfl, rfl⟩ := pure_eq_ok_iff.mp g₂
        exact ⟨t :: o :: us ++ c :: vs, by simp, .whileLoop ht ho he hc hb⟩
      | forWord =>
        obtain ⟨t, ts, rfl, ht⟩ := Token.exists_cons_of_kind_head hk (by simp)
        simp only [hk, skip_bind_cons, peek_bind] at h
        cases hx : (Token.head ts).kind with
        | name x =>
          obtain ⟨v, ts, rfl, hv⟩ := Token.exists_cons_of_kind_head hx (by simp)
          simp only [hx, skip_bind_cons] at h
          obtain ⟨_, ts₁, h₁, g₁⟩ := bind_eq_ok_iff.mp h
          obtain ⟨q, hq, rfl⟩ := expect_eq_ok_iff.mp h₁
          obtain ⟨⟨lower, upper, l⟩, ts₂, h₂, g₂⟩ := bind_eq_ok_iff.mp g₁
          obtain ⟨us, c, vs, rfl, hl, hc, hu, rfl, hs⟩ := bounds_sound h₂
          obtain ⟨b, ts₃, h₃, g₃⟩ := bind_eq_ok_iff.mp g₂
          obtain ⟨ws, rfl, hb⟩ := block_sound h₃
          obtain ⟨rfl, rfl⟩ := pure_eq_ok_iff.mp g₃
          rw [← follow_kind_head] at hs
          exact ⟨t :: v :: q :: us ++ c :: vs ++ ws, by simp,
            .forLoop ht hv hq hl hc hu hs hb⟩
        | _ => simp [hx, fail] at h
      | instruction i =>
        obtain ⟨t, ts, rfl, ht⟩ := Token.exists_cons_of_kind_head hk (by simp)
        simp only [hk, skip_bind_cons] at h
        obtain ⟨es, ts₁, h₁, g₁⟩ := bind_eq_ok_iff.mp h
        obtain ⟨us, rfl, hes, hn⟩ := payload_sound h₁
        obtain ⟨_, ts₂, h₂, g₂⟩ := bind_eq_ok_iff.mp g₁
        obtain ⟨u, hu, rfl⟩ := terminator_eq_ok_iff.mp h₂
        obtain ⟨rfl, rfl⟩ := pure_eq_ok_iff.mp g₂
        exact ⟨t :: us ++ [u], by simp, .instruction ht hes hu hn⟩
      | elseWord => exact hx (by simpa only [hk] using h)
      | builtin b => exact hx (by simpa only [hk] using h)
    | name x =>
      simp only [hk] at h
      obtain ⟨us, hu, hs⟩ := assignmentOrExpression_sound h
      exact ⟨us, hu, hs true _⟩
    | _ => exact hx (by simpa only [hk] using h)

theorem conditional_sound : ∀ {d t l ts s rest}, conditional d l ts = .ok s rest →
    t.kind = .keyword .ifWord → t.location = l →
    ∃ us, ts = us ++ rest ∧ Conditional true (t :: us) (Token.head rest).kind s
  | 0, _, _, _, _, _, h => by simp [conditional, exhausted] at h
  | d + 1, t, l, ts, s, rest, h => by
    rintro ht rfl
    rw [conditional] at h
    obtain ⟨e, ts₁, h₁, g₁⟩ := bind_eq_ok_iff.mp h
    obtain ⟨o, us, c, rfl, ho, he, hc⟩ := condition_sound h₁
    obtain ⟨b, ts₂, h₂, g₂⟩ := bind_eq_ok_iff.mp g₁
    obtain ⟨vs, rfl, hb⟩ := block_sound h₂
    obtain ⟨a, ts₃, h₃, g₃⟩ := bind_eq_ok_iff.mp g₂
    obtain ⟨ws, rfl, ha⟩ := alternative_sound h₃
    obtain ⟨rfl, rfl⟩ := pure_eq_ok_iff.mp g₃
    rw [← follow_kind_head] at hb
    exact ⟨o :: us ++ c :: vs ++ ws, by simp, .mk ht ho he hc hb ha⟩

theorem alternative_sound : ∀ {d ts a rest}, alternative d ts = .ok a rest →
    ∃ us, ts = us ++ rest ∧ Alternative true us (Token.head rest).kind a
  | 0, _, _, _, h => by simp [alternative, exhausted] at h
  | d + 1, ts, a, rest, h => by
    rw [alternative, peek_bind] at h
    split at h
    next hk =>
      obtain ⟨t, ts, rfl, ht⟩ := Token.exists_cons_of_kind_head hk (by simp)
      rw [skip_bind_cons, peek_bind] at h
      split at h
      next hi =>
        obtain ⟨i, ts, rfl, hi⟩ := Token.exists_cons_of_kind_head hi (by simp)
        rw [skip_bind_cons] at h
        obtain ⟨s, ts₁, h₁, g₁⟩ := bind_eq_ok_iff.mp h
        obtain ⟨us, rfl, hs⟩ := conditional_sound h₁ hi rfl
        obtain ⟨rfl, rfl⟩ := pure_eq_ok_iff.mp g₁
        exact ⟨t :: i :: us, rfl, .elseIf ht hs⟩
      next hi =>
        obtain ⟨b, ts₁, h₁, g₁⟩ := bind_eq_ok_iff.mp h
        obtain ⟨us, rfl, hb⟩ := block_sound h₁
        obtain ⟨rfl, rfl⟩ := pure_eq_ok_iff.mp g₁
        have hm : MayBlock true us := fun _ => by rwa [Token.head_append hb.ne_nil] at hi
        exact ⟨t :: us, rfl, .block ht hm hb⟩
    next hk =>
      obtain ⟨rfl, rfl⟩ := pure_eq_ok_iff.mp h
      exact ⟨[], rfl, .none hk⟩

theorem block_sound : ∀ {d ts b rest}, block d ts = .ok b rest →
    ∃ us, ts = us ++ rest ∧ Block true us (Token.head rest).kind b
  | 0, _, _, _, h => by simp [block, exhausted] at h
  | d + 1, ts, b, rest, h => by
    rw [block, peek_bind] at h
    obtain ⟨_, ts₁, h₁, g₁⟩ := bind_eq_ok_iff.mp h
    rcases accept_eq_ok_iff.mp h₁ with ⟨rfl, o, ho, rfl⟩ | ⟨rfl, hn, rfl⟩
    · obtain ⟨ss, ts₂, h₂, g₂⟩ := bind_eq_ok_iff.mp g₁
      obtain ⟨us, rfl, hs, _⟩ := statements_sound h₂
      obtain ⟨_, ts₃, h₃, g₃⟩ := bind_eq_ok_iff.mp g₂
      obtain ⟨c, hc, rfl⟩ := expect_eq_ok_iff.mp h₃
      obtain ⟨rfl, rfl⟩ := pure_eq_ok_iff.mp g₃
      exact ⟨o :: us ++ [c], by simp, .braced ho hc hs⟩
    · obtain ⟨s, ts₂, h₂, g₂⟩ := bind_eq_ok_iff.mp g₁
      obtain ⟨us, rfl, hs⟩ := statement_sound h₂
      obtain ⟨rfl, rfl⟩ := pure_eq_ok_iff.mp g₂
      rw [Token.head_append hs.ne_nil]
      exact ⟨us, rfl, .bare hs⟩

theorem statements_sound : ∀ {d braced ts ss rest}, statements d braced ts = .ok ss rest →
    ∃ us, ts = us ++ rest ∧ Statements true us (Token.head rest).kind ss ∧
      ((Token.head rest).kind = .endOfInput ∨
        braced ∧ (Token.head rest).kind = .symbol .rightBrace)
  | 0, _, _, _, _, h => by simp [statements, exhausted] at h
  | d + 1, braced, ts, ss, rest, h => by
    rw [statements, peek_bind] at h
    split at h
    next he =>
      obtain ⟨rfl, rfl⟩ := pure_eq_ok_iff.mp h
      exact ⟨[], rfl, .nil, he⟩
    next =>
      obtain ⟨s, ts₁, h₁, g₁⟩ := bind_eq_ok_iff.mp h
      obtain ⟨us, rfl, hs⟩ := statement_sound h₁
      obtain ⟨ss', ts₂, h₂, g₂⟩ := bind_eq_ok_iff.mp g₁
      obtain ⟨vs, rfl, hss, he⟩ := statements_sound h₂
      obtain ⟨rfl, rfl⟩ := pure_eq_ok_iff.mp g₂
      rw [← follow_kind_head] at hs
      exact ⟨us ++ vs, by simp, .cons hs hss, he⟩

end

end MatrixLang.Phrase
