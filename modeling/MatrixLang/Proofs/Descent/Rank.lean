import MatrixLang.Proofs.Descent.Script
import MatrixLang.Proofs.Syntax.Phrase

/-! # Ranks of the grammar rules

In front of the token that a rule began with it calls only rules of lower rank, and no rule passes
the end of the input. Both can be read off the scripts, whatever the called rules give.
-/

namespace MatrixLang

namespace Nonterminal

variable {α : Type}

/-- How many rules can be open inside each other in front of one token, from this one on. -/
@[simp] def rank : Nonterminal α → Nat
  | chain l => 11 - 2 * l.rank
  | operand l => 10 - 2 * l.rank
  | chainRest _ _ | transposes _ | reference | condition _ | alternative => 1
  | primary | conditional _ => 2
  | negation => 3
  | expressions | values | bounds | expressionStatement => 12
  | matrixRows | payload _ | assignmentOrExpression => 13
  | statement => 14
  | block | statements _ => 15
  | program => 16

/-- The rule passes a token before it gives a value. -/
@[simp] def advances : Nonterminal α → Bool
  | chainRest _ _ | transposes _ | payload _ | alternative | statements _ | program => false
  | _ => true

theorem rank_pos (m : Nonterminal α) : 0 < m.rank := by
  cases m with
  | chain l | operand l => cases l <;> decide
  | _ => exact Nat.succ_pos _

theorem rank_lt (m : Nonterminal α) : m.rank < Grammar.rank := by
  cases m with
  | chain l | operand l => cases l <;> decide
  | _ =>
    rw [rank, Grammar.rank]
    decide

end Nonterminal

namespace Script

/-- The rest of a script of rank `r` that has passed a token if `moved`, in front of one of the kind
`front?` if that is known. It passes no end of the input, calls only rules of lower rank until it
has passed a token, and gives a value only then if `must`. -/
def Descends (r : Nat) (must : Bool) {α : Type} : Script α → Bool → Option Kind → Prop
  | done _, moved, _ => must = true → moved = true
  | stop _, _, _ => True
  | look next, moved, _ => ∀ t, (next t).Descends r must moved (some t.kind)
  | lookPast next, moved, front? =>
    (next true).Descends r must moved (some (.symbol .comma)) ∧
      (next false).Descends r must moved front?
  | pass next, _, front? => (∃ k ∈ front?, k ≠ .endOfInput) ∧ next.Descends r must true none
  | restart next, _, _ => next.Descends r must false none
  | call m next, moved, _ =>
    (moved = false → m.rank < r) ∧ ∀ a, (next a).Descends r must (moved || m.advances) none

section Steps

variable {α β : Type} {r : Nat} {must moved : Bool} {front? : Option Kind}

@[simp] theorem descends_pure (a : α) :
    (pure a : Script α).Descends r must moved front? ↔ (must = true → moved = true) := .rfl

@[simp] theorem descends_stop (x : Expectation) :
    (stop x : Script α).Descends r must moved front? := trivial

@[simp] theorem descends_restart (p : Script α) :
    (restart p).Descends r must moved front? ↔ p.Descends r must false none := .rfl

@[simp] theorem descends_read (m : Nonterminal α) :
    (read m).Descends r must moved front? ↔
      (moved = false → m.rank < r) ∧ (α → must = true → (moved || m.advances) = true) := .rfl

@[simp] theorem descends_peek_bind (g : Token → Script β) :
    (peek >>= g).Descends r must moved front? ↔
      ∀ t, (g t).Descends r must moved (some t.kind) := .rfl

@[simp] theorem descends_skip_bind (g : Unit → Script β) :
    (skip >>= g).Descends r must moved front? ↔
      (∃ k ∈ front?, k ≠ .endOfInput) ∧ (g ()).Descends r must true none := .rfl

@[simp] theorem descends_read_bind (m : Nonterminal α) (g : α → Script β) :
    (read m >>= g).Descends r must moved front? ↔
      (moved = false → m.rank < r) ∧ ∀ a, (g a).Descends r must (moved || m.advances) none := .rfl

@[simp] theorem descends_accept_bind {s : Symbol} (g : Bool → Script β)
    (h : (g true).Descends r must true none)
    (h' : ∀ k, (g false).Descends r must moved (some k)) :
    (accept s >>= g).Descends r must moved front? := by
  intro t
  show (bind (if t.kind = .symbol s then skip >>= fun _ => pure true else pure false) g).Descends
    r must moved (some t.kind)
  split
  next ht => exact ⟨⟨_, rfl, by simp [ht]⟩, h⟩
  next => exact h' t.kind

@[simp] theorem descends_expect_bind {s : Symbol} {x : Expectation} (g : Unit → Script β)
    (h : (g ()).Descends r must true none) :
    (expect s x >>= g).Descends r must moved front? := by
  intro t
  show (bind (if t.kind = .symbol s then skip else stop x) g).Descends r must moved (some t.kind)
  split
  next ht => exact ⟨⟨_, rfl, by simp [ht]⟩, h⟩
  next => trivial

@[simp] theorem descends_terminator_bind {w : Terminated} (g : Unit → Script β)
    (h : (g ()).Descends r must true none) :
    (terminator w >>= g).Descends r must moved front? := by
  intro t
  show (bind (bind (if t.kind = .symbol .semicolon then skip >>= fun _ => pure true else pure false)
    fun b => if b = true then pure () else expect .comma (.terminator w)) g).Descends
    r must moved (some t.kind)
  split
  next ht => exact ⟨⟨_, rfl, by simp [ht]⟩, h⟩
  next => exact descends_expect_bind g h

@[simp] theorem descends_continuingComma_bind (g : Bool → Script β)
    (h : (g true).Descends r must true none) (h' : (g false).Descends r must moved front?) :
    (continuingComma >>= g).Descends r must moved front? :=
  ⟨⟨⟨_, rfl, nofun⟩, h⟩, h'⟩

end Steps

/-- No rule passes the end of the input, and each calls rules of lower rank until it has passed a
token. -/
theorem descends_script {α : Type} (m : Nonterminal α) :
    m.script.Descends m.rank m.advances false none := by
  cases m with
  | chain l => cases l <;> simp [Nonterminal.script, chain, Level.rank]
  | operand l => cases l <;> simp [Nonterminal.script, operand, Level.tighter?, Level.rank]
  | chainRest l left =>
    simp only [Nonterminal.script, chainRest, descends_peek_bind]
    intro t
    cases hc : l.connective? t.kind with
    | some c =>
      have ht : t.kind = .symbol c.symbol := (Level.connective?_eq_some_iff.mp hc).2
      simp [ht]
    | none => simp
  | negation | transposes e | statements braced =>
    simp only [Nonterminal.script, negation, transposes, statements, descends_peek_bind]
    intro t
    split <;> simp [*]
  | primary | reference =>
    simp only [Nonterminal.script, primary, reference, descends_peek_bind]
    rintro ⟨k, l⟩
    dsimp only
    split <;> simp [expression]
  | expressions => simp [Nonterminal.script, expressions, expression, Level.rank]
  | matrixRows =>
    refine ⟨by simp, fun row => descends_accept_bind _ ?_ (fun k => by simp)⟩
    rw [if_pos rfl, descends_peek_bind]
    intro t
    split <;> simp
  | values => simp [Nonterminal.script, values, expression, Level.rank]
  | payload i =>
    cases i with
    | returnValues =>
      simp only [Nonterminal.script, payload, descends_peek_bind]
      intro t
      split <;> simp
    | printValues | breakLoop | continueLoop => simp [Nonterminal.script, payload]
  | condition w => simp [Nonterminal.script, condition, expression]
  | bounds => simp [Nonterminal.script, bounds, expression, Level.rank]
  | expressionStatement => simp [Nonterminal.script, expressionStatement, expression, Level.rank]
  | assignmentOrExpression =>
    simp only [Nonterminal.script, assignmentOrExpression, descends_read_bind, descends_peek_bind]
    refine ⟨by simp, ?_⟩
    rintro r ⟨k, l⟩
    dsimp only
    split <;> simp [expression]
  | statement =>
    simp only [Nonterminal.script, statement, descends_peek_bind]
    rintro ⟨k, l⟩
    dsimp only
    split
    case h_3 =>
      refine (descends_skip_bind _).mpr ⟨by simp, (descends_peek_bind _).mpr ?_⟩
      rintro ⟨k, l⟩
      dsimp only
      split <;> simp
    all_goals simp
  | conditional l => simp [Nonterminal.script, conditional]
  | alternative =>
    simp only [Nonterminal.script, alternative, descends_peek_bind]
    intro t
    split
    · simp only [descends_skip_bind, descends_peek_bind]
      refine ⟨by simp [*], fun t => ?_⟩
      split <;> simp [*]
    · simp
  | block => simp [Nonterminal.script, block]
  | program => simp [Nonterminal.script, program]

end Script

end MatrixLang
