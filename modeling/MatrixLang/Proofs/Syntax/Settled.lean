import MatrixLang.Proofs.Syntax.SentenceComplete

/-! # Rules that settle

A rule settles on tokens if one token decides what it does: it passes the tokens in front of that
one or stops there, and so it does whatever comes behind. What stands in front of a token where the
rule stops can still be completed.
-/

namespace MatrixLang.Phrase

open Grammar Rule

section Runs

variable {α : Type} {r : Nat → Rule α} {m n : Nat} {us rest rest' : List Token} {t : Token}
  {o : List Token → Outcome α}

theorem head_append_congr (h : Token.head rest = Token.head rest') (us : List Token) :
    Token.head (us ++ rest) = Token.head (us ++ rest') := by
  cases us with
  | nil => exact h
  | cons u us => rfl

/-- In front of the token `t` the rule passes `us` with the outcome `o`, whatever comes behind. -/
def Runs (r : Nat → Rule α) (n : Nat) (us : List Token) (t : Token)
    (o : List Token → Outcome α) : Prop :=
  ∀ d rest, Suffices d (us ++ rest).length n → Token.head rest = t → r d (us ++ rest) = o rest

theorem Runs.exists_eq (h : Runs r n us (Token.head rest) o) : ∃ d, r d (us ++ rest) = o rest :=
  ⟨rank * (us ++ rest).length + n, h _ rest (Nat.le_refl _) rfl⟩

theorem Suffices.pred {d : Nat} (h : Suffices (d + 1) m (n + 1)) : Suffices d m n :=
  Nat.le_of_succ_le_succ h

theorem Suffices.of_ne_nil {d : Nat} (h : Suffices d (us ++ rest).length n) (hu : us ≠ []) :
    Suffices d rest.length rank := by
  refine h.of_lt ?_
  have hp := List.length_pos_of_ne_nil hu
  rw [List.length_append]
  omega

theorem not_suffices_zero (hn : 0 < n) : ¬ Suffices 0 m n := by
  simp only [Suffices, rank]
  omega

end Runs

/-- Some token decides whether the rule passes the front of the tokens or stops there, and what it
passes before it stops is of the kind `V`. -/
inductive Settles {α : Type} (r : Nat → Rule α) (n : Nat) (V : List Token → Prop)
    (ts : List Token) : Prop
  | passed {us rest a} : ts = us ++ rest → Runs r n us (Token.head rest) (.ok a) →
      Settles r n V ts
  | stuck {us rest x} : ts = us ++ rest → Runs r n us (Token.head rest) (.error x) → V us →
      Settles r n V ts

section Settles

variable {α β : Type} {r r' : Nat → Rule α} {f : Nat → α → Rule β} {m n : Nat}
  {V V' : List Token → Prop} {ps ts : List Token} {t : Token} {s : Symbol} {x : Expectation}

theorem Settles.imp (h : Settles r n V ts) (hV : ∀ us rest, ts = us ++ rest → V us → V' us) :
    Settles r n V' ts := by
  cases h with
  | passed hts h => exact .passed hts h
  | stuck hts h hu => exact .stuck hts h (hV _ _ hts hu)

/-- A rule settles if behind some tokens it ends as one does that settles there. -/
theorem Settles.lift (h : Settles r m (fun us => V (ps ++ us)) ts)
    (hr : ∀ us rest o, ts = us ++ rest → Runs r m us (Token.head rest) o →
      Runs r' n (ps ++ us) (Token.head rest) o) : Settles r' n V (ps ++ ts) := by
  cases h with
  | passed hts h =>
    exact .passed (by rw [hts, List.append_assoc]) (hr _ _ _ hts h)
  | stuck hts h hu =>
    exact .stuck (by rw [hts, List.append_assoc]) (hr _ _ _ hts h) hu

theorem Settles.mono (h : Settles r m V ts) (hn : m ≤ n) : Settles r n V ts :=
  @lift _ r r m n V [] ts h fun _ _ _ _ hr d rest hd ht => hr d rest (hd.mono hn) ht

theorem Settles.congr (h : Settles r n V ts)
    (hr : ∀ d vs, Token.head vs = Token.head ts → r' d vs = r d vs) : Settles r' n V ts := by
  refine @lift _ r r' n n V [] ts h fun us rest o hts hrun d vs hd hv => ?_
  rw [List.nil_append, hr d _ (by rw [hts, head_append_congr hv])]
  exact hrun d vs hd hv

/-- A rule settles if what it does one level deeper does. -/
theorem Settles.succ (hr : ∀ d, r (d + 1) = r' d) (h : Settles r' n V ts) :
    Settles r (n + 1) V ts := by
  refine @lift _ r' r n (n + 1) V [] ts h fun us rest o _ hrun d vs hd hv => ?_
  obtain ⟨d, rfl, hd'⟩ := hd.exists_succ (Nat.succ_pos n)
  rw [hr]
  exact hrun d vs hd' hv

theorem Settles.cons (h : Settles r rank (fun vs => V (t :: vs)) ts)
    (hr : ∀ d vs, Token.head vs = Token.head ts → r' d (t :: vs) = r d vs) :
    Settles r' n V (t :: ts) := by
  refine @lift _ r r' rank n V [t] ts h fun us rest o hts hrun d vs hd hv => ?_
  rw [List.singleton_append, List.cons_append, hr d _ (by rw [hts, head_append_congr hv])]
  exact hrun d vs hd.tail hv

theorem settles_pure (a : α) : Settles (fun _ => pure a) n V ts :=
  .passed (List.nil_append ts).symm fun _ _ _ _ => rfl

theorem settles_fail (hV : V []) : Settles (fun _ => (fail x : Rule α)) n V ts :=
  .stuck (List.nil_append ts).symm (fun _ _ _ _ => rfl) hV

theorem settles_peek {f : Nat → Token → Rule α}
    (h : Settles (fun d => f d (Token.head ts)) n V ts) :
    Settles (fun d => peek >>= f d) n V ts :=
  h.congr fun d vs hv => by rw [peek_bind, hv]

theorem settles_skip (h : Settles r rank (fun vs => V (t :: vs)) ts) :
    Settles (fun d => skip >>= fun _ => r d) n V (t :: ts) :=
  h.cons fun _ _ _ => rfl

theorem settles_expect (hV : V []) (h : ∀ t rest, ts = t :: rest → t.kind = .symbol s →
      Settles r rank (fun vs => V (t :: vs)) rest) :
    Settles (fun d => expect s x >>= fun _ => r d) n V ts := by
  by_cases hk : (Token.head ts).kind = .symbol s
  · obtain ⟨t, rest, rfl, ht⟩ := Token.exists_cons_of_kind_head hk (by simp)
    exact (h t rest rfl ht).cons fun d vs _ => bind_of_eq_ok (expect_cons ht) _
  · refine (settles_fail (x := x) hV).congr fun d vs hv => ?_
    rw [bind_apply, expect, peek_bind, hv, if_neg hk]
    rfl

theorem settles_accept {f : Nat → Bool → Rule α}
    (h : ∀ t rest, ts = t :: rest → t.kind = .symbol s →
      Settles (fun d => f d true) rank (fun vs => V (t :: vs)) rest)
    (h' : (Token.head ts).kind ≠ .symbol s → Settles (fun d => f d false) n V ts) :
    Settles (fun d => accept s >>= f d) n V ts := by
  by_cases hk : (Token.head ts).kind = .symbol s
  · obtain ⟨t, rest, rfl, ht⟩ := Token.exists_cons_of_kind_head hk (by simp)
    exact (h t rest rfl ht).cons fun d vs _ => bind_of_eq_ok (accept_cons ht) _
  · exact (h' hk).congr fun d vs hv => bind_of_eq_ok (accept_of_ne (hv ▸ hk)) _

theorem Runs.bind_error {us : List Token} (h : Runs r n us t (.error x)) :
    Runs (fun d => r d >>= f d) n us t (.error x) := by
  intro d rest hd ht
  dsimp only
  rw [bind_apply, h d rest hd ht]
  rfl

theorem Settles.map (g : α → β) (h : Settles r n V ts) :
    Settles (fun d => r d >>= fun a => pure (g a)) n V ts := by
  cases h with
  | @passed us rest a hts h =>
    exact .passed (a := g a) hts fun d vs hd hv => bind_of_eq_ok (h d vs hd hv) _
  | stuck hts h hu => exact .stuck hts h.bind_error hu

/-- One rule behind another settles if the first one passes some tokens, as a phrase of the kind
`P`, and the second one settles on the others. -/
theorem Settles.bind {P : List Token → α → List Token → Prop}
    (hr : ∀ {d ts a rest}, r d ts = .ok a rest → ∃ us, ts = us ++ rest ∧ P us a rest)
    (h : Settles r n V ts)
    (hf : ∀ a us rest, ts = us ++ rest → P us a rest →
      (us = [] → rank ≤ n) ∧ Settles (fun d => f d a) rank (fun vs => V (us ++ vs)) rest) :
    Settles (fun d => r d >>= f d) n V ts := by
  cases h with
  | stuck hts h hu => exact .stuck hts h.bind_error hu
  | @passed us rest a hts h =>
    obtain rfl := hts
    obtain ⟨d, hd⟩ := h.exists_eq
    obtain ⟨us', hu, hp⟩ := hr hd
    obtain rfl := List.append_cancel_right hu
    obtain ⟨hn, hs⟩ := hf a us rest rfl hp
    refine hs.lift fun vs ws o hrest hrun d xs hd hx => ?_
    rw [List.append_assoc] at hd ⊢
    rw [bind_of_eq_ok (h d (vs ++ xs) hd (by rw [hrest, head_append_congr hx]))]
    refine hrun d xs ?_ hx
    by_cases hu : us = []
    · exact hd.of_append.mono (hn hu)
    · exact hd.of_ne_nil hu

end Settles

end MatrixLang.Phrase
