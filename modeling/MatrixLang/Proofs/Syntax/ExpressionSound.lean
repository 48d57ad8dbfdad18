import MatrixLang.Proofs.Syntax.Phrase
import MatrixLang.Proofs.Syntax.Reading

/-! # Expressions that were read

Whatever the rules read is derived by the grammar from the tokens that they passed, and they stop
where the expression cannot go on. Both are shown by induction on the depth; a chain is carried
through its rule as the phrase read so far.
-/

namespace MatrixLang.Phrase

open Grammar Rule

theorem transposes_sound {us ts rest : List Token} {e e' : Node}
    (h : transposes e ts = .ok e' rest) (he : Transposed us e)
    (hi : EndsInName us → (Token.head ts).kind ≠ .symbol .leftBracket) :
    ∃ vs, ts = vs ++ rest ∧ Transposed (us ++ vs) e' ∧
      (Token.head rest).kind ≠ .symbol .transpose ∧
      (EndsInName (us ++ vs) → (Token.head rest).kind ≠ .symbol .leftBracket) := by
  induction ts generalizing us e with
  | nil =>
    obtain ⟨rfl, rfl⟩ : e = e' ∧ [] = rest := by simpa [transposes] using h
    exact ⟨[], rfl, by simpa using he, by simp, by simp⟩
  | cons t ts ih =>
    rw [transposes] at h
    split at h
    next ht =>
      have hn : ¬ EndsInName (us ++ [t]) := not_endsInName_append_singleton (by simp [ht])
      obtain ⟨vs, rfl, hv⟩ := ih h (.transpose he ht) fun h => absurd h hn
      exact ⟨t :: vs, rfl, by simpa using hv⟩
    next ht =>
      obtain ⟨rfl, rfl⟩ : e = e' ∧ t :: ts = rest := by simpa using h
      exact ⟨[], rfl, by simpa using he, ht, by simpa using hi⟩

mutual

theorem chain_sound : ∀ {d l ts e rest}, chain d l ts = .ok e rest →
    ∃ us, ts = us ++ rest ∧ Chain l us e ∧ Stops l.rank us (Token.head rest).kind
  | 0, _, _, _, _, h => by simp [chain, exhausted] at h
  | d + 1, l, ts, e, rest, h => by
    rw [chain] at h
    obtain ⟨left, ts', h₁, h₂⟩ := bind_eq_ok_iff.mp h
    obtain ⟨us, rfl, hl, hs⟩ := operand_sound h₁
    obtain ⟨vs, rfl, he⟩ := chainRest_sound h₂ (.operand hl) hs
    exact ⟨us ++ vs, (List.append_assoc ..).symm, he⟩

theorem operand_sound : ∀ {d l ts e rest}, operand d l ts = .ok e rest →
    ∃ us, ts = us ++ rest ∧ Operand l us e ∧ Stops (l.rank + 1) us (Token.head rest).kind
  | 0, _, _, _, _, h => by simp [operand, exhausted] at h
  | d + 1, .equality, ts, e, rest, h => by
    obtain ⟨us, hu, he, hs⟩ := chain_sound (d := d) (l := .relational) h
    exact ⟨us, hu, .equality he, hs⟩
  | d + 1, .relational, ts, e, rest, h => by
    obtain ⟨us, hu, he, hs⟩ := chain_sound (d := d) (l := .additive) h
    exact ⟨us, hu, .relational he, hs⟩
  | d + 1, .additive, ts, e, rest, h => by
    obtain ⟨us, hu, he, hs⟩ := chain_sound (d := d) (l := .multiplicative) h
    exact ⟨us, hu, .additive he, hs⟩
  | d + 1, .multiplicative, ts, e, rest, h => by
    obtain ⟨us, hu, he, hs⟩ := negation_sound (d := d) h
    exact ⟨us, hu, .multiplicative he, hs⟩

theorem chainRest_sound : ∀ {d l left us ts e rest}, chainRest d l left ts = .ok e rest →
    Chain l us left → Stops (l.rank + 1) us (Token.head ts).kind →
    ∃ vs, ts = vs ++ rest ∧ Chain l (us ++ vs) e ∧
      Stops l.rank (us ++ vs) (Token.head rest).kind
  | 0, _, _, _, _, _, _, h => by simp [chainRest, exhausted] at h
  | d + 1, l, left, us, ts, e, rest, h => by
    intro hl hs
    rw [chainRest, peek_bind] at h
    cases hc : l.connective? (Token.head ts).kind with
    | some c =>
      obtain ⟨hm, hk⟩ := Level.connective?_eq_some_iff.mp hc
      obtain ⟨t, ts, rfl, ht⟩ := Token.exists_cons_of_kind_head hk (by simp)
      simp only [hc, skip_bind_cons] at h
      obtain ⟨right, ts', h₁, h₂⟩ := bind_eq_ok_iff.mp h
      obtain ⟨vs, rfl, hr, hs⟩ := operand_sound h₁
      have hj := chainRest_sound h₂ (.join hl hm ht hr) (hs.append_cons (by simp [ht]))
      obtain ⟨ws, rfl, he, hs⟩ := hj
      exact ⟨t :: vs ++ ws, by simp, by simpa using he, by simpa using hs⟩
    | none =>
      simp only [hc] at h
      obtain ⟨rfl, rfl⟩ := pure_eq_ok_iff.mp h
      exact ⟨[], rfl, by simpa using hl, by simpa using hs.of_connective?_eq_none hc⟩

theorem negation_sound : ∀ {d ts e rest}, negation d ts = .ok e rest →
    ∃ us, ts = us ++ rest ∧ Negation us e ∧ Stops 4 us (Token.head rest).kind
  | 0, _, _, _, h => by simp [negation, exhausted] at h
  | d + 1, ts, e, rest, h => by
    rw [negation, peek_bind] at h
    split at h
    next hk =>
      obtain ⟨t, ts, rfl, ht⟩ := Token.exists_cons_of_kind_head hk (by simp)
      rw [skip_bind_cons] at h
      obtain ⟨operand, ts', h₁, h₂⟩ := bind_eq_ok_iff.mp h
      obtain ⟨us, rfl, hu, hs⟩ := negation_sound h₁
      obtain ⟨rfl, rfl⟩ := pure_eq_ok_iff.mp h₂
      exact ⟨t :: us, rfl, .negate ht hu, hs.cons (by simp [ht])⟩
    next =>
      obtain ⟨e₀, ts', h₁, h₂⟩ := bind_eq_ok_iff.mp h
      obtain ⟨us, rfl, hu, hi⟩ := primary_sound h₁
      obtain ⟨vs, rfl, hv, ht, hi⟩ := transposes_sound h₂ (.primary hu) hi
      refine ⟨us ++ vs, (List.append_assoc ..).symm, .transposed hv, ⟨fun c _ => ?_, ht, hi⟩⟩
      cases c.level <;> simp [Level.rank]

theorem primary_sound : ∀ {d ts e rest}, primary d ts = .ok e rest →
    ∃ us, ts = us ++ rest ∧ Primary us e ∧
      (EndsInName us → (Token.head rest).kind ≠ .symbol .leftBracket)
  | 0, _, _, _, h => by simp [primary, exhausted] at h
  | d + 1, ts, e, rest, h => by
    rw [primary, peek_bind] at h
    cases hk : (Token.head ts).kind with
    | endOfInput => simp [hk, fail] at h
    | integer n =>
      obtain ⟨t, ts, rfl, ht⟩ := Token.exists_cons_of_kind_head hk (by simp)
      simp only [hk, skip_bind_cons] at h
      obtain ⟨rfl, rfl⟩ := pure_eq_ok_iff.mp h
      exact ⟨[t], rfl, .integer ht, by simp [endsInName_singleton_iff, ht]⟩
    | float x =>
      obtain ⟨t, ts, rfl, ht⟩ := Token.exists_cons_of_kind_head hk (by simp)
      simp only [hk, skip_bind_cons] at h
      obtain ⟨rfl, rfl⟩ := pure_eq_ok_iff.mp h
      exact ⟨[t], rfl, .float ht, by simp [endsInName_singleton_iff, ht]⟩
    | string s =>
      obtain ⟨t, ts, rfl, ht⟩ := Token.exists_cons_of_kind_head hk (by simp)
      simp only [hk, skip_bind_cons] at h
      obtain ⟨rfl, rfl⟩ := pure_eq_ok_iff.mp h
      exact ⟨[t], rfl, .string ht, by simp [endsInName_singleton_iff, ht]⟩
    | name x =>
      simp only [hk] at h
      obtain ⟨r, ts', h₁, h₂⟩ := bind_eq_ok_iff.mp h
      obtain ⟨us, rfl, hr, hi⟩ := reference_sound h₁
      obtain ⟨rfl, rfl⟩ := pure_eq_ok_iff.mp h₂
      exact ⟨us, rfl, .reference hr, hi⟩
    | keyword w =>
      cases w with
      | builtin b =>
        obtain ⟨t, ts, rfl, ht⟩ := Token.exists_cons_of_kind_head hk (by simp)
        simp only [hk, skip_bind_cons] at h
        obtain ⟨_, ts₁, h₁, g₁⟩ := bind_eq_ok_iff.mp h
        obtain ⟨o, ho, rfl⟩ := expect_eq_ok_iff.mp h₁
        obtain ⟨es, ts₂, h₂, g₂⟩ := bind_eq_ok_iff.mp g₁
        obtain ⟨us, rfl, hes⟩ := expressions_sound h₂
        obtain ⟨_, ts₃, h₃, g₃⟩ := bind_eq_ok_iff.mp g₂
        obtain ⟨c, hc, rfl⟩ := expect_eq_ok_iff.mp h₃
        obtain ⟨rfl, rfl⟩ := pure_eq_ok_iff.mp g₃
        exact ⟨t :: o :: us ++ [c], by simp, .builtin ht ho hes hc,
          fun hn => absurd hn (not_endsInName_append_singleton (by simp [hc]))⟩
      | _ => simp [hk, fail] at h
    | symbol s =>
      cases s with
      | leftBracket =>
        obtain ⟨o, ts, rfl, ho⟩ := Token.exists_cons_of_kind_head hk (by simp)
        simp only [hk, skip_bind_cons] at h
        obtain ⟨rows, ts₁, h₁, g₁⟩ := bind_eq_ok_iff.mp h
        obtain ⟨us, rfl, hr⟩ := matrixRows_sound h₁
        obtain ⟨_, ts₂, h₂, g₂⟩ := bind_eq_ok_iff.mp g₁
        obtain ⟨c, hc, rfl⟩ := expect_eq_ok_iff.mp h₂
        obtain ⟨rfl, rfl⟩ := pure_eq_ok_iff.mp g₂
        exact ⟨o :: us ++ [c], by simp, .matrix ho hr hc,
          fun hn => absurd hn (not_endsInName_append_singleton (by simp [hc]))⟩
      | leftParen =>
        obtain ⟨o, ts, rfl, ho⟩ := Token.exists_cons_of_kind_head hk (by simp)
        simp only [hk, skip_bind_cons] at h
        obtain ⟨e', ts₁, h₁, g₁⟩ := bind_eq_ok_iff.mp h
        obtain ⟨us, rfl, he, _⟩ := chain_sound h₁
        obtain ⟨_, ts₂, h₂, g₂⟩ := bind_eq_ok_iff.mp g₁
        obtain ⟨c, hc, rfl⟩ := expect_eq_ok_iff.mp h₂
        obtain ⟨rfl, rfl⟩ := pure_eq_ok_iff.mp g₂
        exact ⟨o :: us ++ [c], by simp, .parentheses ho he hc,
          fun hn => absurd hn (not_endsInName_append_singleton (by simp [hc]))⟩
      | _ => simp [hk, fail] at h

theorem reference_sound : ∀ {d ts r rest}, reference d ts = .ok r rest →
    ∃ us, ts = us ++ rest ∧ Variable us r ∧
      (EndsInName us → (Token.head rest).kind ≠ .symbol .leftBracket)
  | 0, _, _, _, h => by simp [reference, exhausted] at h
  | d + 1, ts, r, rest, h => by
    rw [reference, peek_bind] at h
    cases hk : (Token.head ts).kind with
    | name x =>
      obtain ⟨t, ts, rfl, ht⟩ := Token.exists_cons_of_kind_head hk (by simp)
      simp only [hk, skip_bind_cons] at h
      obtain ⟨_, ts₁, h₁, g₁⟩ := bind_eq_ok_iff.mp h
      rcases accept_eq_ok_iff.mp h₁ with ⟨rfl, o, ho, rfl⟩ | ⟨rfl, hn, rfl⟩
      · obtain ⟨es, ts₂, h₂, g₂⟩ := bind_eq_ok_iff.mp g₁
        obtain ⟨us, rfl, hes⟩ := expressions_sound h₂
        obtain ⟨_, ts₃, h₃, g₃⟩ := bind_eq_ok_iff.mp g₂
        obtain ⟨c, hc, rfl⟩ := expect_eq_ok_iff.mp h₃
        obtain ⟨rfl, rfl⟩ := pure_eq_ok_iff.mp g₃
        exact ⟨t :: o :: us ++ [c], by simp, .indexed ht ho hes hc,
          fun hn => absurd hn (not_endsInName_append_singleton (by simp [hc]))⟩
      · obtain ⟨rfl, rfl⟩ := pure_eq_ok_iff.mp g₁
        exact ⟨[t], rfl, .plain ht, fun _ => hn⟩
    | _ => simp [hk, fail] at h

theorem expressions_sound : ∀ {d ts es rest}, expressions d ts = .ok es rest →
    ∃ us, ts = us ++ rest ∧ Expressions us es
  | 0, _, _, _, h => by simp [expressions, exhausted] at h
  | d + 1, ts, es, rest, h => by
    rw [expressions] at h
    obtain ⟨e, ts₁, h₁, g₁⟩ := bind_eq_ok_iff.mp h
    obtain ⟨us, rfl, he, _⟩ := chain_sound h₁
    obtain ⟨_, ts₂, h₂, g₂⟩ := bind_eq_ok_iff.mp g₁
    rcases accept_eq_ok_iff.mp h₂ with ⟨rfl, t, ht, rfl⟩ | ⟨rfl, _, rfl⟩
    · obtain ⟨es', ts₃, h₃, g₃⟩ := bind_eq_ok_iff.mp g₂
      obtain ⟨vs, rfl, hes⟩ := expressions_sound h₃
      obtain ⟨rfl, rfl⟩ := pure_eq_ok_iff.mp g₃
      exact ⟨us ++ t :: vs, by simp, .more he ht hes⟩
    · obtain ⟨rfl, rfl⟩ := pure_eq_ok_iff.mp g₂
      exact ⟨us, rfl, .one he⟩

theorem matrixRows_sound : ∀ {d ts rows rest}, matrixRows d ts = .ok rows rest →
    ∃ us, ts = us ++ rest ∧ Rows us rows
  | 0, _, _, _, h => by simp [matrixRows, exhausted] at h
  | d + 1, ts, rows, rest, h => by
    rw [matrixRows] at h
    obtain ⟨row, ts₁, h₁, g₁⟩ := bind_eq_ok_iff.mp h
    obtain ⟨us, rfl, hr⟩ := expressions_sound h₁
    obtain ⟨_, ts₂, h₂, g₂⟩ := bind_eq_ok_iff.mp g₁
    rcases accept_eq_ok_iff.mp h₂ with ⟨rfl, t, ht, rfl⟩ | ⟨rfl, _, rfl⟩
    · simp only [if_true, peek_bind] at g₂
      split at g₂
      · obtain ⟨rfl, rfl⟩ := pure_eq_ok_iff.mp g₂
        exact ⟨us ++ [t], by simp, .closed hr ht⟩
      · obtain ⟨rows', ts₃, h₃, g₃⟩ := bind_eq_ok_iff.mp g₂
        obtain ⟨vs, rfl, hrs⟩ := matrixRows_sound h₃
        obtain ⟨rfl, rfl⟩ := pure_eq_ok_iff.mp g₃
        exact ⟨us ++ t :: vs, by simp, .more hr ht hrs⟩
    · obtain ⟨rfl, rfl⟩ := pure_eq_ok_iff.mp g₂
      exact ⟨us, rfl, .one hr⟩

end

end MatrixLang.Phrase
