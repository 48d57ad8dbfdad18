import MatrixLang.Tree.Grammar

/-! # Running grammar rules

What the basic rules do with the token in front, and what a rule that gave a value must have read.
The token in front of an exhausted list is an end of input, so any other token in front is really
there.
-/

namespace MatrixLang

namespace Token

@[simp] theorem head_cons (t : Token) (ts : List Token) : head (t :: ts) = t := rfl

theorem head_append {ts : List Token} (h : ts ≠ []) (us : List Token) :
    head (ts ++ us) = head ts := by
  cases ts with
  | nil => exact absurd rfl h
  | cons t ts => rfl

@[simp] theorem kind_head_nil : (head []).kind = .endOfInput := rfl

theorem eq_head_cons {ts : List Token} (h : (head ts).kind ≠ .endOfInput) :
    ts = head ts :: ts.drop 1 := by
  cases ts with
  | nil => exact absurd rfl h
  | cons t ts => rfl

theorem exists_cons_of_kind_head {ts : List Token} {k : Kind} (h : (head ts).kind = k)
    (hk : k ≠ .endOfInput) : ∃ t us, ts = t :: us ∧ t.kind = k :=
  ⟨_, _, eq_head_cons (h ▸ hk), h⟩

end Token

namespace Outcome

variable {α β : Type}

theorem andThen_eq_ok_iff {o : Outcome α} {f : α → List Token → Outcome β} {b : β}
    {rest : List Token} :
    o.andThen f = .ok b rest ↔ ∃ a ts, o = .ok a ts ∧ f a ts = .ok b rest := by
  cases o with
  | ok a ts =>
    constructor
    · intro h
      exact ⟨a, ts, rfl, h⟩
    · rintro ⟨_, _, ⟨⟩, h⟩
      exact h
  | error e ts => simp [andThen]
  | exhausted => simp [andThen]

end Outcome

namespace Rule

variable {α β : Type} {s : Symbol} {x : Expectation} {t : Token} {ts rest : List Token}

@[simp] theorem pure_eq_ok_iff {a b : α} :
    (pure a : Rule α) ts = .ok b rest ↔ a = b ∧ ts = rest := by
  simp [pure_apply]

theorem bind_eq_ok_iff {r : Rule α} {f : α → Rule β} {b : β} :
    (r >>= f) ts = .ok b rest ↔ ∃ a us, r ts = .ok a us ∧ f a us = .ok b rest :=
  Outcome.andThen_eq_ok_iff

@[simp] theorem peek_bind (f : Token → Rule β) (ts : List Token) :
    (peek >>= f) ts = f (Token.head ts) ts := rfl

@[simp] theorem skip_bind_cons (f : Unit → Rule β) (t : Token) (ts : List Token) :
    (skip >>= f) (t :: ts) = f () ts := rfl

@[simp] theorem remaining_bind (f : List Token → Rule β) (ts : List Token) :
    (remaining >>= f) ts = f ts ts := rfl

theorem bind_of_eq_ok {r : Rule α} {a : α} {us : List Token} (h : r ts = .ok a us)
    (f : α → Rule β) : (r >>= f) ts = f a us :=
  congrArg (Outcome.andThen · f) h

theorem expect_cons (h : t.kind = .symbol s) : expect s x (t :: ts) = .ok () ts := by
  simp [expect, h, skip]

theorem expect_eq_ok_iff {u : Unit} :
    expect s x ts = .ok u rest ↔ ∃ t, t.kind = .symbol s ∧ ts = t :: rest := by
  constructor
  · intro h
    simp only [expect, peek_bind] at h
    split at h
    next hk =>
      obtain ⟨t, us, rfl, ht⟩ := Token.exists_cons_of_kind_head hk (by simp)
      obtain rfl : us = rest := by simpa [skip] using h
      exact ⟨t, ht, rfl⟩
    · simp [fail] at h
  · rintro ⟨t, ht, rfl⟩
    exact expect_cons ht

theorem accept_cons (h : t.kind = .symbol s) : accept s (t :: ts) = .ok true ts := by
  simp [accept, h, pure_apply]

theorem accept_of_ne (h : (Token.head ts).kind ≠ .symbol s) : accept s ts = .ok false ts := by
  simp [accept, h, pure_apply]

theorem accept_eq_ok_iff {b : Bool} :
    accept s ts = .ok b rest ↔
      (b = true ∧ ∃ t, t.kind = .symbol s ∧ ts = t :: rest) ∨
      (b = false ∧ (Token.head ts).kind ≠ .symbol s ∧ ts = rest) := by
  by_cases h : (Token.head ts).kind = .symbol s
  · obtain ⟨t, us, rfl, ht⟩ := Token.exists_cons_of_kind_head h (by simp)
    rw [accept_cons ht]
    constructor
    · rintro ⟨⟩
      exact .inl ⟨rfl, t, ht, rfl⟩
    · rintro (⟨rfl, u, hu, he⟩ | ⟨_, hn, _⟩)
      · rw [(List.cons.inj he).2]
      · exact absurd ht hn
  · rw [accept_of_ne h]
    constructor
    · rintro ⟨⟩
      exact .inr ⟨rfl, h, rfl⟩
    · rintro (⟨_, t, ht, rfl⟩ | ⟨rfl, _, rfl⟩)
      · exact absurd ht h
      · rfl

end Rule

end MatrixLang
