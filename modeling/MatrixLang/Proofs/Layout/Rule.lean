import MatrixLang.Proofs.Layout.Moved
import MatrixLang.Proofs.Syntax.Reading
import MatrixLang.Tree.Cursor

/-! # Reading does not look at places

On tokens at other places a rule reads the same tree at other places, or stops with the same error
at the same token. The induction is on the depth, with one case for each rule.
-/

namespace MatrixLang

open Grammar Rule

/-- The tokens end with an end of the input. -/
def Closed (ts : List Token) : Prop := ∃ t ∈ ts.getLast?, t.kind = .endOfInput

section Closed

variable {f : Location → Location} {t : Token} {ts : List Token}

theorem Closed.ne_nil (h : Closed ts) : ts ≠ [] := by
  rintro rfl
  obtain ⟨t, ht, _⟩ := h
  cases ht

theorem Closed.tail (h : Closed (t :: ts)) (ht : t.kind ≠ .endOfInput) : Closed ts := by
  obtain ⟨u, hu, hk⟩ := h
  cases ts with
  | nil =>
    obtain rfl : t = u := by simpa using hu
    exact absurd hk ht
  | cons v ts => exact ⟨u, by simpa using hu, hk⟩

theorem Closed.head_map (h : Closed ts) :
    Token.head (ts.map (.moved f)) = (Token.head ts).moved f := by
  cases ts with
  | nil => exact absurd rfl h.ne_nil
  | cons t ts => rfl

end Closed

/-- The second outcome is the first one at other places, and leaves an end of the input. -/
inductive Outcome.Moves {α β : Type} (f : Location → Location) (g : α → β) :
    Outcome α → Outcome β → Prop
  | ok {a rest} : Closed rest → Moves f g (.ok a rest) (.ok (g a) (rest.map (.moved f)))
  | error {x rest} : Closed rest → Moves f g (.error x rest) (.error x (rest.map (.moved f)))
  | exhausted : Moves f g .exhausted .exhausted

/-- On tokens at other places the second rule does what the first one does. -/
def Rule.Moves {α β : Type} (f : Location → Location) (g : α → β) (r : Rule α) (r' : Rule β) :
    Prop :=
  ∀ ts, Closed ts → Outcome.Moves f g (r ts) (r' (ts.map (.moved f)))

/-- In front of the token `t`, and in front of it at its other place, the rules do the same. -/
def Rule.MovesAt {α β : Type} (f : Location → Location) (t : Token) (g : α → β) (r : Rule α)
    (r' : Rule β) : Prop :=
  ∀ ts, Closed (t :: ts) → Outcome.Moves f g (r (t :: ts)) (r' (t.moved f :: ts.map (.moved f)))

section Moves

variable {α α' β β' : Type} {f : Location → Location} {g : α → α'} {h : β → β'} {r : Rule α}
  {r' : Rule α'} {t : Token}

theorem Rule.Moves.at (hr : Moves f g r r') : MovesAt f t g r r' :=
  fun ts hts => hr (t :: ts) hts

theorem moves_pure {a : α} {b : α'} (hb : g a = b) : Moves f g (pure a) (pure b) := by
  subst hb
  exact fun ts hts => .ok hts

theorem moves_fail (x : Expectation) : Moves f g (fail x) (fail x) := fun _ hts => .error hts

theorem moves_exhausted : Moves f g Rule.exhausted Rule.exhausted := fun _ _ => .exhausted

theorem Rule.Moves.bind {s : α → Rule β} {s' : α' → Rule β'} (hr : Moves f g r r')
    (hs : ∀ a, Moves f h (s a) (s' (g a))) : Moves f h (r >>= s) (r' >>= s') := by
  intro ts hts
  have hts' := hr ts hts
  rw [bind_apply, bind_apply]
  generalize r ts = o at hts' ⊢
  generalize r' (ts.map (.moved f)) = o' at hts' ⊢
  cases hts' with
  | @ok a rest hrest => exact hs a rest hrest
  | error hrest => exact .error hrest
  | exhausted => exact .exhausted

theorem moves_peek {s : Token → Rule α} {s' : Token → Rule α'}
    (hs : ∀ t, MovesAt f t g (s t) (s' (t.moved f))) : Moves f g (peek >>= s) (peek >>= s') := by
  intro ts hts
  cases ts with
  | nil => exact absurd rfl hts.ne_nil
  | cons t ts => exact hs t ts hts

theorem movesAt_skip {s : Unit → Rule α} {s' : Unit → Rule α'} (ht : t.kind ≠ .endOfInput)
    (hs : Moves f g (s ()) (s' ())) : MovesAt f t g (skip >>= s) (skip >>= s') :=
  fun ts hts => hs ts (hts.tail ht)

theorem moves_accept (s : Symbol) : Moves f id (accept s) (accept s) := by
  refine moves_peek fun t => ?_
  rw [Token.kind_moved]
  split
  next ht => exact movesAt_skip (by simp [ht]) (moves_pure rfl)
  next => exact (moves_pure rfl).at

theorem moves_expect (s : Symbol) (x : Expectation) : Moves f id (expect s x) (expect s x) := by
  refine moves_peek fun t => ?_
  rw [Token.kind_moved]
  split
  next ht => exact fun ts hts => .ok (hts.tail (by simp [ht]))
  next => exact (moves_fail x).at

theorem moves_continuingComma : Moves f id continuingComma continuingComma := by
  intro ts hts
  cases ts with
  | nil => exact absurd rfl hts.ne_nil
  | cons t ts =>
    by_cases ht : t.kind = .symbol .comma
    · have htail := hts.tail (by simp [ht])
      have hhead : (Token.head (ts.map (.moved f))).kind = (Token.head ts).kind := by
        rw [htail.head_map, Token.kind_moved]
      simp only [continuingComma, List.map_cons, Token.head_cons, Token.kind_moved, ht, true_and,
        List.drop_one, List.tail_cons, hhead]
      split
      · exact .ok htail
      · exact .ok hts
    · simp only [continuingComma, List.map_cons, Token.head_cons, Token.kind_moved, ht, false_and,
        if_false]
      exact .ok hts

theorem moves_terminator (x : Terminated) : Moves f id (terminator x) (terminator x) := by
  refine (moves_accept _).bind fun more => ?_
  cases more with
  | true => exact moves_pure rfl
  | false => exact moves_expect _ _

end Moves

section Expressions

variable (f : Location → Location)

theorem Connective.moved_join (c : Connective) (left right : Node) (l : Location) :
    (c.join left right l).moved f = c.join (left.moved f) (right.moved f) (f l) := by
  cases c <;> rfl

theorem transposes_moves (e : Node) :
    Moves f (Node.moved f) (transposes e) (transposes (e.moved f)) := by
  intro ts hts
  induction ts generalizing e with
  | nil => exact absurd rfl hts.ne_nil
  | cons t ts ih =>
    rw [List.map_cons, transposes, transposes, Token.kind_moved]
    by_cases ht : t.kind = .symbol .transpose
    · rw [if_pos ht, if_pos ht]
      exact ih (.unary .transpose e t.location) (hts.tail (by simp [ht]))
    · rw [if_neg ht, if_neg ht]
      exact .ok hts

mutual

theorem chain_moves : ∀ d l, Moves f (Node.moved f) (chain d l) (chain d l)
  | 0, _ => moves_exhausted
  | d + 1, l => by
    rw [chain]
    exact (operand_moves d l).bind fun left => chainRest_moves d l left

theorem operand_moves : ∀ d l, Moves f (Node.moved f) (operand d l) (operand d l)
  | 0, _ => moves_exhausted
  | d + 1, l => by
    rw [operand]
    cases l.tighter? with
    | some l => exact chain_moves d l
    | none => exact negation_moves d

theorem chainRest_moves : ∀ d l left,
    Moves f (Node.moved f) (chainRest d l left) (chainRest d l (left.moved f))
  | 0, _, _ => moves_exhausted
  | d + 1, l, left => by
    rw [chainRest, chainRest]
    refine moves_peek fun t => ?_
    rw [Token.kind_moved, Token.location_moved]
    cases hc : l.connective? t.kind with
    | none => exact (moves_pure rfl).at
    | some c =>
      have ht : t.kind ≠ .endOfInput := by
        intro ht
        simp [ht, Level.connective?, Connective.ofKind?] at hc
      refine movesAt_skip ht ((operand_moves d l).bind fun right => ?_)
      rw [← Connective.moved_join]
      exact chainRest_moves d l _

theorem negation_moves : ∀ d, Moves f (Node.moved f) (negation d) (negation d)
  | 0 => moves_exhausted
  | d + 1 => by
    rw [negation]
    refine moves_peek fun t => ?_
    rw [Token.kind_moved, Token.location_moved]
    split
    next ht =>
      exact movesAt_skip (by simp [ht]) ((negation_moves d).bind fun _ => moves_pure rfl)
    next => exact Moves.at ((primary_moves d).bind fun e => transposes_moves f e)

theorem primary_moves : ∀ d, Moves f (Node.moved f) (primary d) (primary d)
  | 0 => moves_exhausted
  | d + 1 => by
    rw [primary]
    refine moves_peek fun t => ?_
    rw [Token.kind_moved, Token.location_moved]
    have hfail : MovesAt f t (Node.moved f) (fail .expression) (fail .expression) :=
      (moves_fail _).at
    cases ht : t.kind with
    | endOfInput => exact hfail
    | integer | float | string => exact movesAt_skip (by simp [ht]) (moves_pure rfl)
    | name => exact Moves.at ((reference_moves d).bind fun _ => moves_pure rfl)
    | keyword w =>
      cases w with
      | builtin b =>
        exact movesAt_skip (by simp [ht]) ((moves_expect _ _).bind fun _ =>
          (expressions_moves d).bind fun _ => (moves_expect _ _).bind fun _ => moves_pure rfl)
      | _ => exact hfail
    | symbol s =>
      cases s with
      | leftBracket =>
        exact movesAt_skip (by simp [ht]) ((matrixRows_moves d).bind fun _ =>
          (moves_expect _ _).bind fun _ => moves_pure rfl)
      | leftParen =>
        exact movesAt_skip (by simp [ht]) ((chain_moves d _).bind fun _ =>
          (moves_expect _ _).bind fun _ => moves_pure rfl)
      | _ => exact hfail

theorem reference_moves : ∀ d, Moves f (Node.movedReference f) (reference d) (reference d)
  | 0 => moves_exhausted
  | d + 1 => by
    rw [reference]
    refine moves_peek fun t => ?_
    rw [Token.kind_moved, Token.location_moved]
    cases ht : t.kind with
    | name x =>
      refine movesAt_skip (by simp [ht]) ((moves_accept _).bind fun more => ?_)
      cases more with
      | true =>
        exact (expressions_moves d).bind fun _ => (moves_expect _ _).bind fun _ => moves_pure rfl
      | false => exact moves_pure rfl
    | _ => exact (moves_fail _).at

theorem expressions_moves : ∀ d, Moves f (Node.movedList f) (expressions d) (expressions d)
  | 0 => moves_exhausted
  | d + 1 => by
    rw [expressions]
    refine (chain_moves d _).bind fun e => (moves_accept _).bind fun more => ?_
    cases more with
    | true => exact (expressions_moves d).bind fun _ => moves_pure rfl
    | false => exact moves_pure rfl

theorem matrixRows_moves : ∀ d, Moves f (Node.movedRows f) (matrixRows d) (matrixRows d)
  | 0 => moves_exhausted
  | d + 1 => by
    rw [matrixRows]
    refine (expressions_moves d).bind fun row => (moves_accept _).bind fun more => ?_
    cases more with
    | true =>
      refine moves_peek fun t => ?_
      rw [Token.kind_moved]
      split
      · exact (moves_pure rfl).at
      · exact Moves.at ((matrixRows_moves d).bind fun _ => moves_pure rfl)
    | false => exact moves_pure rfl

end

theorem expression_moves (d : Nat) : Moves f (Node.moved f) (expression d) (expression d) :=
  chain_moves f d .equality

theorem values_moves : ∀ d, Moves f (Node.movedList f) (values d) (values d)
  | 0 => moves_exhausted
  | d + 1 => by
    rw [values]
    refine (expression_moves f d).bind fun e => moves_continuingComma.bind fun more => ?_
    cases more with
    | true => exact (values_moves d).bind fun _ => moves_pure rfl
    | false => exact moves_pure rfl

end Expressions

section Statements

variable (f : Location → Location)

theorem payload_moves (d : Nat) (i : Instruction) :
    Moves f (Node.movedList f) (payload d i) (payload d i) := by
  cases i with
  | breakLoop | continueLoop => exact moves_pure rfl
  | returnValues =>
    refine moves_peek fun t => ?_
    rw [Token.kind_moved]
    split
    · exact (values_moves f d).at
    · exact (moves_pure rfl).at
  | printValues => exact values_moves f d

theorem condition_moves (d : Nat) (w : Keyword) :
    Moves f (Node.moved f) (condition d w) (condition d w) :=
  (moves_expect _ _).bind fun _ => (expression_moves f d).bind fun _ =>
    (moves_expect _ _).bind fun _ => moves_pure rfl

theorem bounds_moves (d : Nat) : Moves f (Node.movedBounds f) (bounds d) (bounds d) :=
  (expression_moves f d).bind fun _ => moves_peek fun _ => Moves.at <|
    (moves_expect _ _).bind fun _ => (expression_moves f d).bind fun _ => moves_pure rfl

theorem expressionStatement_moves (d : Nat) :
    Moves f (Node.moved f) (expressionStatement d) (expressionStatement d) :=
  moves_peek fun _ => Moves.at <| (expression_moves f d).bind fun _ =>
    (moves_terminator _).bind fun _ => moves_pure rfl

theorem assignmentOrExpression_moves (d : Nat) :
    Moves f (Node.moved f) (assignmentOrExpression d) (assignmentOrExpression d) := by
  intro ts hts
  have hback (t : Token) : MovesAt f t (Node.moved f)
      (resume ts >>= fun _ => expressionStatement d)
      (resume (ts.map (.moved f)) >>= fun _ => expressionStatement d) :=
    fun _ _ => expressionStatement_moves f d ts hts
  simp only [assignmentOrExpression, remaining_bind]
  refine (reference_moves f d).bind (fun target => moves_peek fun t => ?_) ts hts
  rw [Token.kind_moved, Token.location_moved]
  cases ht : t.kind with
  | symbol s =>
    cases s with
    | assign op =>
      exact movesAt_skip (by simp [ht]) ((expression_moves f d).bind fun _ =>
        (moves_terminator _).bind fun _ => moves_pure rfl)
    | _ => exact hback t
  | _ => exact hback t

mutual

theorem statement_moves : ∀ d, Moves f (Node.moved f) (statement d) (statement d)
  | 0 => moves_exhausted
  | d + 1 => by
    rw [statement]
    refine moves_peek fun t => ?_
    rw [Token.kind_moved, Token.location_moved]
    have hother : MovesAt f t (Node.moved f) (expressionStatement d) (expressionStatement d) :=
      (expressionStatement_moves f d).at
    cases ht : t.kind with
    | name => exact (assignmentOrExpression_moves f d).at
    | keyword w =>
      have hk : t.kind ≠ .endOfInput := by simp [ht]
      cases w with
      | ifWord => exact movesAt_skip hk (conditional_moves d t.location)
      | whileWord =>
        exact movesAt_skip hk ((condition_moves f d _).bind fun _ =>
          (block_moves d).bind fun _ => moves_pure rfl)
      | forWord =>
        refine movesAt_skip hk (moves_peek fun v => ?_)
        rw [Token.kind_moved, Token.location_moved]
        cases hv : v.kind with
        | name x =>
          exact movesAt_skip (by simp [hv]) ((moves_expect _ _).bind fun _ =>
            (bounds_moves f d).bind fun _ => (block_moves d).bind fun _ => moves_pure rfl)
        | _ => exact (moves_fail _).at
      | instruction i =>
        exact movesAt_skip hk ((payload_moves f d i).bind fun _ =>
          (moves_terminator _).bind fun _ => moves_pure rfl)
      | _ => exact hother
    | _ => exact hother

theorem conditional_moves : ∀ d l,
    Moves f (Node.moved f) (conditional d l) (conditional d (f l))
  | 0, _ => moves_exhausted
  | d + 1, l => by
    rw [conditional, conditional]
    exact (condition_moves f d _).bind fun _ => (block_moves d).bind fun _ =>
      (alternative_moves d).bind fun _ => moves_pure rfl

theorem alternative_moves : ∀ d,
    Moves f (Node.movedAlternative f) (alternative d) (alternative d)
  | 0 => moves_exhausted
  | d + 1 => by
    rw [alternative]
    refine moves_peek fun t => ?_
    rw [Token.kind_moved]
    split
    next ht =>
      refine movesAt_skip (by simp [ht]) (moves_peek fun u => ?_)
      rw [Token.kind_moved, Token.location_moved]
      split
      next hu =>
        exact movesAt_skip (by simp [hu])
          ((conditional_moves d u.location).bind fun _ => moves_pure rfl)
      next => exact Moves.at ((block_moves d).bind fun _ => moves_pure rfl)
    next => exact (moves_pure rfl).at

theorem block_moves : ∀ d, Moves f (Node.movedBlock f) (block d) (block d)
  | 0 => moves_exhausted
  | d + 1 => by
    rw [block]
    refine moves_peek fun t => ?_
    rw [Token.location_moved]
    refine ((moves_accept _).bind fun more => ?_).at
    cases more with
    | true =>
      exact (statements_moves d true).bind fun _ => (moves_expect _ _).bind fun _ => moves_pure rfl
    | false => exact (statement_moves d).bind fun _ => moves_pure rfl

theorem statements_moves : ∀ d braced,
    Moves f (Node.movedList f) (statements d braced) (statements d braced)
  | 0, _ => moves_exhausted
  | d + 1, braced => by
    rw [statements]
    refine moves_peek fun t => ?_
    rw [Token.kind_moved]
    split
    · exact (moves_pure rfl).at
    · exact Moves.at ((statement_moves d).bind fun _ => (statements_moves d braced).bind fun _ =>
        moves_pure rfl)

end

theorem program_moves (d : Nat) : Moves f (Program.moved f) (program d) (program d) :=
  moves_peek fun _ => Moves.at <| (statements_moves f d false).bind fun _ => moves_pure rfl

end Statements

section Programs

variable {ts : List Token}

theorem closeTokens_of_closed (h : Closed ts) : Cursor.closeTokens ts = ts := by
  obtain ⟨t, ht, hk⟩ := h
  rw [Cursor.closeTokens, Option.mem_def.mp ht]
  exact if_pos hk

theorem Closed.map (h : Closed ts) (f : Location → Location) : Closed (ts.map (.moved f)) := by
  obtain ⟨t, ht, hk⟩ := h
  exact ⟨t.moved f, by simpa using ⟨t, ht, rfl⟩, hk⟩

/-- The program or the error that tokens give moves with them. -/
theorem Program.ofTokens_map_moved (f : Location → Location) (h : Closed ts) :
    ofTokens (ts.map (.moved f)) =
      ((ofTokens ts).map (Program.moved f)).mapError (SyntaxError.moved f) := by
  have hprogram := program_moves f (depthFor ts.length) ts h
  rw [ofTokens, ofTokens, Cursor.readProgram, Cursor.readProgram]
  simp only [Cursor.ofTokens, Cursor.rest, closeTokens_of_closed h, closeTokens_of_closed (h.map f),
    List.drop_zero, List.length_map]
  generalize program (depthFor ts.length) ts = o at hprogram ⊢
  generalize program (depthFor ts.length) (ts.map (.moved f)) = o' at hprogram ⊢
  cases hprogram with
  | ok => rfl
  | error hrest =>
    dsimp only
    rw [hrest.head_map]
    rfl
  | exhausted =>
    dsimp only
    rw [h.head_map]
    rfl

end Programs

end MatrixLang
