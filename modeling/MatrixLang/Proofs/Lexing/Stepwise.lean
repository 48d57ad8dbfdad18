import MatrixLang.Proofs.Lexing.Origin
import MatrixLang.Token.Reader

/-! # Reading step by step

A text has one series of tokens, and each comes with the errors on the way to it. Whatever is asked
of a reader, it stands somewhere in this series, and what it answers and keeps on record next
depends on this place alone.
-/

namespace MatrixLang

namespace Reader

open Piece PlacedPiece

/-- A token with the errors that are passed on the way from the token before. -/
structure Stage where
  token : Token
  errors : List LexicalError

namespace Stage

/-- The stages of placed pieces up to the end at `last`, the first with the errors `passed` in
front. -/
def ofPlaced (last : Location) (passed : List LexicalError) : List PlacedPiece → List Stage
  | [] => [⟨⟨.endOfInput, last⟩, passed⟩]
  | p :: ps =>
    match p.token? with
    | some t => ⟨t, passed ++ p.error?.toList⟩ :: ofPlaced last [] ps
    | none => ofPlaced last (passed ++ p.error?.toList) ps

def ofText (l : Location) (cs : List Char) : List Stage :=
  ofPlaced (l.after cs) [] (place l (Piece.ofText cs))

theorem map_token_ofPlaced (last : Location) (passed : List LexicalError)
    (ps : List PlacedPiece) :
    (ofPlaced last passed ps).map (·.token) =
      ps.filterMap (·.token?) ++ [⟨.endOfInput, last⟩] := by
  induction ps generalizing passed with
  | nil => rfl
  | cons p ps ih =>
    rw [ofPlaced]
    cases ht : p.token? with
    | none => rw [ih, List.filterMap_cons_none ht]
    | some t => rw [List.map_cons, ih, List.filterMap_cons_some ht, List.cons_append]

theorem flatMap_errors_ofPlaced (last : Location) (passed : List LexicalError)
    (ps : List PlacedPiece) :
    (ofPlaced last passed ps).flatMap (·.errors) = passed ++ ps.filterMap (·.error?) := by
  have hcons (p : PlacedPiece) (ps : List PlacedPiece) :
      (p :: ps).filterMap (·.error?) = p.error?.toList ++ ps.filterMap (·.error?) := by
    cases he : p.error? <;> simp [he]
  induction ps generalizing passed with
  | nil => simp [ofPlaced]
  | cons p ps ih =>
    rw [ofPlaced, hcons, ← List.append_assoc]
    cases p.token? with
    | none => exact ih _
    | some t => rw [List.flatMap_cons, ih, List.nil_append]

theorem map_token_ofText (cs : List Char) :
    (ofText .start cs).map (·.token) = (Scan.ofText cs).tokens :=
  map_token_ofPlaced ..

theorem flatMap_errors_ofText (cs : List Char) :
    (ofText .start cs).flatMap (·.errors) = (Scan.ofText cs).errors :=
  flatMap_errors_ofPlaced ..

theorem exists_ofText_eq (cs : List Char) :
    ∃ es e, ofText .start cs = es ++ [e] ∧ e.token.kind = .endOfInput ∧
      ∀ e' ∈ es, e'.token.kind ≠ .endOfInput := by
  obtain ⟨ts, hts, htokens⟩ := Scan.exists_tokens_eq cs
  rw [← map_token_ofText, List.map_eq_append_iff] at htokens
  obtain ⟨es, last, hes, rfl, hlast⟩ := htokens
  obtain ⟨e, rfl, he⟩ := List.map_eq_singleton_iff.mp hlast
  refine ⟨es, e, hes, by rw [he], fun e' he' => ?_⟩
  exact hts _ (List.mem_map_of_mem he')

end Stage

theorem kind_ne_endOfInput {c : Char} {cs : List Char} {l : Location} {t : Token}
    (h : token? ⟨first c cs, l⟩ = some t) : t.kind ≠ .endOfInput := by
  obtain ⟨k, hk, rfl⟩ := Option.map_eq_some_iff.mp h
  cases hf : first c cs with
  | lexeme k' us =>
    obtain rfl : k' = k := by simpa [hf, kind?] using hk
    have hcut := cut_first c cs
    rw [hf] at hcut
    cases hcut with
    | lexeme hl =>
      rintro rfl
      cases hl.lexeme
  | _ => simp [hf, kind?] at hk

/-- The first token is that of the first stage, and the other stages are those of what follows it,
of which there are none behind the end of the input. -/
theorem exists_ofPlaced_eq (errors passed : List LexicalError) (l : Location) (cs : List Char) :
    ∃ es, (firstToken errors l cs).2.2.2 = errors ++ es ∧
      Stage.ofPlaced (l.after cs) passed (place l (Piece.ofText cs)) =
        ⟨(firstToken errors l cs).1, passed ++ es⟩ ::
          if (firstToken errors l cs).1.kind = .endOfInput then []
          else Stage.ofText (firstToken errors l cs).2.2.1 (firstToken errors l cs).2.1 := by
  fun_induction firstToken errors l cs generalizing passed with
  | case1 errors l =>
    refine ⟨[], (List.append_nil _).symm, ?_⟩
    rw [Piece.ofText, List.append_nil]
    rfl
  | case2 errors l c cs piece errors' rest l' t ht =>
    have hend : l.after (c :: cs) = l'.after rest := by
      rw [← text_first_append c cs, Location.after_append]
    refine ⟨piece.error?.toList, rfl, ?_⟩
    rw [if_neg (kind_ne_endOfInput ht), hend, Piece.ofText, place, Stage.ofPlaced, ht]
    rfl
  | case3 errors l c cs piece errors' rest l' ht ih =>
    have hend : l.after (c :: cs) = l'.after rest := by
      rw [← text_first_append c cs, Location.after_append]
    obtain ⟨es, herrors, hstages⟩ := ih (passed ++ piece.error?.toList)
    refine ⟨piece.error?.toList ++ es, by rw [herrors, List.append_assoc], ?_⟩
    rw [hend, Piece.ofText, place, Stage.ofPlaced, ht, ← List.append_assoc]
    exact hstages

/-- The stages to come. -/
def pending (r : Reader) : List Stage :=
  if r.finished then [] else Stage.ofText r.location r.rest

/-- From the state `r` to the state `r'` the stages `es` have been passed. -/
structure Reads (es : List Stage) (r r' : Reader) : Prop where
  source : r'.source = r.source
  pending : r.pending = es ++ r'.pending
  errors : r'.errors = r.errors ++ es.flatMap (·.errors)

theorem Reads.refl (r : Reader) : Reads [] r r := ⟨rfl, rfl, (List.append_nil _).symm⟩

theorem Reads.trans {es fs : List Stage} {r r' r'' : Reader} (h : Reads es r r')
    (h' : Reads fs r' r'') : Reads (es ++ fs) r r'' where
  source := h'.source.trans h.source
  pending := by rw [h.pending, h'.pending, List.append_assoc]
  errors := by rw [h'.errors, h.errors, List.flatMap_append, List.append_assoc]

theorem next_cases (r : Reader) :
    (r.pending = [] ∧ r.next = (none, r)) ∨
      ∃ e, r.next.1 = some e.token ∧ Reads [e] r r.next.2 := by
  cases hr : r.finished with
  | true => exact .inl ⟨by rw [pending, if_pos hr], by rw [next, if_pos hr]⟩
  | false =>
    have hpending : r.pending = Stage.ofText r.location r.rest := by simp [pending, hr]
    obtain ⟨es, herrors, hstages⟩ := exists_ofPlaced_eq r.errors [] r.location r.rest
    rw [List.nil_append] at hstages
    refine .inr ⟨⟨(firstToken r.errors r.location r.rest).1, es⟩, by simp [next, hr], ?_, ?_, ?_⟩
    · simp [next, hr]
    · rw [hpending, Stage.ofText, hstages, List.singleton_append]
      simp [next, hr, pending]
    · simp [next, hr, herrors]

theorem drain_eq (r : Reader) :
    r.drain.1 = r.pending.map (·.token) ∧ Reads r.pending r r.drain.2 := by
  fun_induction drain r with
  | case1 r r' h =>
    rcases next_cases r with ⟨hpending, hnext⟩ | ⟨e, hnext, _⟩
    · obtain rfl : r = r' := (Prod.mk.inj (hnext.symm.trans h)).2
      rw [hpending]
      exact ⟨rfl, Reads.refl r⟩
    · rw [h] at hnext
      cases hnext
  | case2 r t r' h ts r'' hdrain ih =>
    rcases next_cases r with ⟨_, hnext⟩ | ⟨e, hnext, hreads⟩
    · rw [hnext] at h
      cases h
    · rw [h] at hnext hreads
      obtain rfl : t = e.token := Option.some.inj hnext
      rw [hdrain] at ih
      have hpending : r.pending = [e] ++ r'.pending := hreads.pending
      constructor
      · have hts : ts = r'.pending.map (·.token) := ih.1
        rw [hpending, hts]
        rfl
      · rw [hpending]
        exact hreads.trans ih.2

/-- Reading all starts anew, whatever has been read. -/
theorem tokenize_eq (r : Reader) :
    r.tokenize.1 = (Stage.ofText .start r.source).map (·.token) ∧
      r.tokenize.2.errors = (Stage.ofText .start r.source).flatMap (·.errors) ∧
      r.tokenize.2.pending = [] ∧ r.tokenize.2.source = r.source := by
  obtain ⟨htokens, hreads⟩ := drain_eq r.reset
  refine ⟨htokens, hreads.errors, ?_, hreads.source⟩
  exact List.append_right_eq_self.mp hreads.pending.symm

section Requests

/-- What can be asked of a reader. -/
inductive Request where
  | next
  | tokenize
  | reset
  | errors
  | takeErrors

def serve (r : Reader) : Request → Reader
  | .next => r.next.2
  | .tokenize => r.tokenize.2
  | .reset => r.reset
  | .errors => r
  | .takeErrors => r.takeErrors.2

def serveAll (r : Reader) (requests : List Request) : Reader := requests.foldl serve r

/-- How often the next token has been asked for since the start or since the text was last rewound,
where reading all of the `n` tokens counts as asking for each. -/
def asked (n k : Nat) : Request → Nat
  | .next => k + 1
  | .tokenize => n
  | .reset => 0
  | .errors | .takeErrors => k

def askedAll (n : Nat) (requests : List Request) : Nat := requests.foldl (asked n) 0

variable {cs : List Char} {k : Nat} {r : Reader}

/-- A reader of the text `cs` that has passed the first `k` of its stages. -/
structure IsAt (cs : List Char) (k : Nat) (r : Reader) : Prop where
  source : r.source = cs
  pending : r.pending = (Stage.ofText .start cs).drop k

theorem isAt_ofText (cs : List Char) : IsAt cs 0 (ofText cs) := ⟨rfl, rfl⟩

theorem IsAt.next (h : IsAt cs k r) : IsAt cs (k + 1) r.next.2 := by
  have htail : (Stage.ofText .start cs).drop (k + 1) = r.pending.tail := by
    rw [h.pending, List.tail_drop]
  rcases next_cases r with ⟨hpending, hnext⟩ | ⟨e, _, hreads⟩
  · rw [hpending] at htail
    rw [hnext]
    exact ⟨h.source, hpending.trans htail.symm⟩
  · rw [hreads.pending] at htail
    exact ⟨hreads.source.trans h.source, htail.symm⟩

theorem IsAt.serve (h : IsAt cs k r) (request : Request) :
    IsAt cs (asked (Stage.ofText .start cs).length k request) (r.serve request) := by
  cases request with
  | next => exact h.next
  | tokenize =>
    obtain ⟨-, -, hpending, hsource⟩ := tokenize_eq r
    exact ⟨hsource.trans h.source, hpending.trans List.drop_length.symm⟩
  | reset =>
    obtain rfl := h.source
    exact isAt_ofText r.source
  | errors => exact h
  | takeErrors => exact ⟨h.source, h.pending⟩

theorem IsAt.serveAll (h : IsAt cs k r) (requests : List Request) :
    IsAt cs (requests.foldl (asked (Stage.ofText .start cs).length) k) (r.serveAll requests) := by
  induction requests generalizing k r with
  | nil => exact h
  | cons request requests ih => exact ih (h.serve request)

/-- The answer to a request for the next token is the stage that the reader stands at. -/
theorem IsAt.next_eq (h : IsAt cs k r) :
    r.next.1 = (Stage.ofText .start cs)[k]?.map (·.token) ∧
      r.next.2.errors =
        r.errors ++ ((Stage.ofText .start cs)[k]?.map (·.errors)).getD [] := by
  rw [← List.head?_drop, ← h.pending]
  rcases next_cases r with ⟨hpending, hnext⟩ | ⟨e, hnext, hreads⟩
  · rw [hnext, hpending]
    exact ⟨rfl, (List.append_nil _).symm⟩
  · rw [hreads.pending]
    refine ⟨hnext, ?_⟩
    rw [hreads.errors, List.flatMap_singleton]
    rfl

/-- A text has one series of stages, the tokens of its scan with the errors between them, that ends
at the end of the input and nowhere before. Whatever has been asked of a reader, the next token is
that of the first stage not passed since the text was last rewound, and adds the errors of that
stage to the record; behind the end there is none and nothing is added. Reading all gives all tokens
and leaves all errors on record. The record is empty behind a rewinding and once it has been
taken. -/
theorem serveAll_answers (cs : List Char) :
    ∃ stages : List Stage,
      (∃ es e, stages = es ++ [e] ∧ e.token.kind = .endOfInput ∧
        ∀ e' ∈ es, e'.token.kind ≠ .endOfInput) ∧
      stages.map (·.token) = (Scan.ofText cs).tokens ∧
      stages.flatMap (·.errors) = (Scan.ofText cs).errors ∧
      ∀ requests : List Request,
        let r := (ofText cs).serveAll requests
        let stage? := stages[askedAll stages.length requests]?
        r.next.1 = stage?.map (·.token) ∧
          r.next.2.errors = r.errors ++ (stage?.map (·.errors)).getD [] ∧
          r.tokenize.1 = stages.map (·.token) ∧
          r.tokenize.2.errors = stages.flatMap (·.errors) ∧
          r.reset.errors = [] ∧
          r.takeErrors.1 = r.errors ∧ r.takeErrors.2.errors = [] := by
  refine ⟨Stage.ofText .start cs, Stage.exists_ofText_eq cs, Stage.map_token_ofText cs,
    Stage.flatMap_errors_ofText cs, fun requests => ?_⟩
  have h := (isAt_ofText cs).serveAll requests
  obtain ⟨hnext, hrecord⟩ := h.next_eq
  obtain ⟨htokens, herrors, -⟩ := tokenize_eq ((ofText cs).serveAll requests)
  rw [h.source] at htokens herrors
  exact ⟨hnext, hrecord, htokens, herrors, rfl, rfl, rfl⟩

end Requests

end Reader

end MatrixLang
