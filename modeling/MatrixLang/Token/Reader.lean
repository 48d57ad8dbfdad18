import MatrixLang.Token.Piece

/-! # Reading tokens one at a time

A reader walks through its text on demand, keeps the errors that it passes, and yields the end of
the input once. It can be rewound, and its record of errors can be taken away.
-/

namespace MatrixLang

structure Reader where
  source : List Char
  rest : List Char
  location : Location
  finished : Bool
  errors : List LexicalError

namespace Reader

def ofText (cs : List Char) : Reader :=
  { source := cs, rest := cs, location := .start, finished := false, errors := [] }

def reset (r : Reader) : Reader := ofText r.source

/-- The first token of the text `cs` at the place `l`, what follows it and where, and the record of
errors with those passed on the way. -/
def firstToken (errors : List LexicalError) (l : Location) :
    List Char → Token × List Char × Location × List LexicalError
  | [] => (⟨.endOfInput, l⟩, [], l, errors)
  | c :: cs =>
    let piece : PlacedPiece := ⟨Piece.first c cs, l⟩
    let errors := errors ++ piece.error?.toList
    let rest := Piece.restAfterFirst c cs
    let l := l.after piece.piece.text
    match piece.token? with
    | some t => (t, rest, l, errors)
    | none => firstToken errors l rest
termination_by cs => cs.length
decreasing_by
  have := Piece.length_restAfterFirst_le c cs
  simp only [List.length_cons]
  omega

/-- The next token, if the end has not been passed. -/
def next (r : Reader) : Option Token × Reader :=
  if r.finished then (none, r)
  else
    let (t, rest, location, errors) := firstToken r.errors r.location r.rest
    (some t, { r with rest, location, errors, finished := t.kind = .endOfInput })

theorem length_firstToken (errors : List LexicalError) (l : Location) (cs : List Char) :
    (firstToken errors l cs).1.kind = .endOfInput ∨
      (firstToken errors l cs).2.1.length < cs.length := by
  fun_induction firstToken errors l cs with
  | case1 => exact .inl rfl
  | case2 errors l c cs =>
    exact .inr (Nat.lt_succ_of_le (Piece.length_restAfterFirst_le c cs))
  | case3 errors l c cs _ _ _ _ _ ih =>
    exact ih.imp_right fun h =>
      Nat.lt_succ_of_lt (Nat.lt_of_lt_of_le h (Piece.length_restAfterFirst_le c cs))

/-- A bound on the number of tokens to come. -/
def remaining (r : Reader) : Nat :=
  if r.finished then 0 else r.rest.length + 1

theorem remaining_next_lt {r r' : Reader} {t : Token} (h : r.next = (some t, r')) :
    r'.remaining < r.remaining := by
  unfold next at h
  split at h
  next => cases h
  next hr =>
    obtain ⟨ht, rfl⟩ := Prod.mk.inj h
    simp only [remaining, hr, decide_eq_true_eq, Bool.false_eq_true, if_false]
    rcases length_firstToken r.errors r.location r.rest with hk | hl
    · rw [if_pos hk]
      exact Nat.zero_lt_succ _
    · split
      · exact Nat.zero_lt_succ _
      · exact Nat.succ_lt_succ hl

/-- The tokens to come, up to the end of the input. -/
def drain (r : Reader) : List Token × Reader :=
  match _ : r.next with
  | (none, r) => ([], r)
  | (some t, r) =>
    let (ts, r) := drain r
    (t :: ts, r)
termination_by r.remaining
decreasing_by exact remaining_next_lt ‹_›

/-- All tokens from the start; afterwards the reader is past the end. -/
def tokenize (r : Reader) : List Token × Reader :=
  r.reset.drain

def takeErrors (r : Reader) : List LexicalError × Reader :=
  (r.errors, { r with errors := [] })

end Reader

end MatrixLang
