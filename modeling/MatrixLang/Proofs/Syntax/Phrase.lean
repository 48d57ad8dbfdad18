import Mathlib.Data.List.Basic
import MatrixLang.Tree.Grammar

/-! # The grammar of expressions

Which tokens spell which expression. The operators of a level group to the left and combine phrases
of the next tighter one, a minus stands before its operand and a transpose behind it, and every node
lies at its defining token.
-/

namespace MatrixLang

def Connective.symbol : Connective → Symbol
  | .binary op => .binary op
  | .comparison c => .compare c

namespace Level

def operators : Level → List Connective
  | .equality => [.comparison .equal, .comparison .notEqual]
  | .relational =>
    [.comparison .less, .comparison .lessEqual, .comparison .greater, .comparison .greaterEqual]
  | .additive =>
    [.binary (.plain .add), .binary (.plain .sub), .binary (.elementwise .add),
      .binary (.elementwise .sub)]
  | .multiplicative =>
    [.binary (.plain .mul), .binary (.plain .div), .binary (.elementwise .mul),
      .binary (.elementwise .div)]

/-- The number of looser levels. -/
def rank : Level → Nat
  | .equality => 0
  | .relational => 1
  | .additive => 2
  | .multiplicative => 3

variable {l : Level} {c : Connective} {k : Kind}

theorem mem_operators_iff : c ∈ l.operators ↔ c.level = l := by
  cases c with
  | binary op => rcases op with op | op <;> cases op <;> cases l <;> decide
  | comparison c => cases c <;> cases l <;> decide

theorem ofKind?_eq_some_iff : Connective.ofKind? k = some c ↔ k = .symbol c.symbol := by
  unfold Connective.ofKind?
  split <;> cases c <;> simp_all [Connective.symbol]

theorem connective?_eq_some_iff :
    l.connective? k = some c ↔ c ∈ l.operators ∧ k = .symbol c.symbol := by
  rw [connective?, Option.filter_eq_some_iff, ofKind?_eq_some_iff, mem_operators_iff,
    decide_eq_true_iff, and_comm]

theorem connective?_eq_none_iff :
    l.connective? k = none ↔ ∀ c ∈ l.operators, k ≠ .symbol c.symbol := by
  simp only [Option.eq_none_iff_forall_ne_some, ne_eq, connective?_eq_some_iff, not_and]

end Level

namespace Phrase

mutual

/-- The tokens spell an expression of the level `l` or a tighter one. -/
inductive Chain : Level → List Token → Node → Prop
  | operand {l us e} : Operand l us e → Chain l us e
  | join {l us t vs left right} {c : Connective} : Chain l us left → c ∈ l.operators →
      t.kind = .symbol c.symbol → Operand l vs right →
      Chain l (us ++ t :: vs) (c.join left right t.location)

/-- What the operators of the level `l` combine. -/
inductive Operand : Level → List Token → Node → Prop
  | equality {us e} : Chain .relational us e → Operand .equality us e
  | relational {us e} : Chain .additive us e → Operand .relational us e
  | additive {us e} : Chain .multiplicative us e → Operand .additive us e
  | multiplicative {us e} : Negation us e → Operand .multiplicative us e

inductive Negation : List Token → Node → Prop
  | transposed {us e} : Transposed us e → Negation us e
  | negate {t us e} : t.kind = .symbol (.binary (.plain .sub)) → Negation us e →
      Negation (t :: us) (.unary .negate e t.location)

inductive Transposed : List Token → Node → Prop
  | primary {us e} : Primary us e → Transposed us e
  | transpose {us t e} : Transposed us e → t.kind = .symbol .transpose →
      Transposed (us ++ [t]) (.unary .transpose e t.location)

inductive Primary : List Token → Node → Prop
  | integer {t n} : t.kind = .integer n → Primary [t] (.integer n t.location)
  | float {t x} : t.kind = .float x → Primary [t] (.float x t.location)
  | string {t s} : t.kind = .string s → Primary [t] (.string s t.location)
  | reference {us r} : Variable us r → Primary us (.reference r)
  | builtin {t o us c b es} : t.kind = .keyword (.builtin b) → o.kind = .symbol .leftParen →
      Expressions us es → c.kind = .symbol .rightParen →
      Primary (t :: o :: us ++ [c]) (.builtin b es t.location)
  | matrix {o us c rows} : o.kind = .symbol .leftBracket → Rows us rows →
      c.kind = .symbol .rightBracket → Primary (o :: us ++ [c]) (.matrix rows o.location)
  | parentheses {o us c e} : o.kind = .symbol .leftParen → Chain .equality us e →
      c.kind = .symbol .rightParen → Primary (o :: us ++ [c]) e

inductive Variable : List Token → Reference Node → Prop
  | plain {t x} : t.kind = .name x → Variable [t] ⟨x, [], t.location⟩
  | indexed {t o us c x es} : t.kind = .name x → o.kind = .symbol .leftBracket →
      Expressions us es → c.kind = .symbol .rightBracket →
      Variable (t :: o :: us ++ [c]) ⟨x, es, t.location⟩

inductive Expressions : List Token → List Node → Prop
  | one {us e} : Chain .equality us e → Expressions us [e]
  | more {us t vs e es} : Chain .equality us e → t.kind = .symbol .comma → Expressions vs es →
      Expressions (us ++ t :: vs) (e :: es)

/-- Rows between semicolons; a last one may stand behind them. -/
inductive Rows : List Token → List (List Node) → Prop
  | one {us row} : Expressions us row → Rows us [row]
  | closed {us t row} : Expressions us row → t.kind = .symbol .semicolon → Rows (us ++ [t]) [row]
  | more {us t vs row rows} : Expressions us row → t.kind = .symbol .semicolon → Rows vs rows →
      Rows (us ++ t :: vs) (row :: rows)

end

/-- The tokens spell an expression. -/
def Expression (us : List Token) (e : Node) : Prop := Chain .equality us e

/-- The last of the tokens is a name, which a bracket behind it would index. -/
def EndsInName (us : List Token) : Prop := ∃ t ∈ us.getLast?, ∃ x, t.kind = .name x

/-- An expression that `us` spells cannot go on with a token of the kind `k`. -/
structure Ends (us : List Token) (k : Kind) : Prop where
  operator : ∀ c : Connective, k ≠ .symbol c.symbol
  transpose : k ≠ .symbol .transpose
  index : EndsInName us → k ≠ .symbol .leftBracket

/-- A phrase that `us` spells goes on with a token of the kind `k` at most by an operator of one of
the `n` loosest levels. -/
structure Stops (n : Nat) (us : List Token) (k : Kind) : Prop where
  operator : ∀ c : Connective, k = .symbol c.symbol → c.level.rank < n
  transpose : k ≠ .symbol .transpose
  index : EndsInName us → k ≠ .symbol .leftBracket

section Ends

variable {n : Nat} {us vs : List Token} {t : Token} {k : Kind}

theorem stops_zero_iff : Stops 0 us k ↔ Ends us k := by
  constructor
  · intro h
    refine ⟨fun c hc => ?_, h.transpose, h.index⟩
    exact Nat.not_lt_zero _ (h.operator c hc)
  · intro h
    refine ⟨fun c hc => ?_, h.transpose, h.index⟩
    exact absurd hc (h.operator c)

theorem endsInName_singleton_iff : EndsInName [t] ↔ ∃ x, t.kind = .name x := by
  simp [EndsInName]

theorem endsInName_append (h : vs ≠ []) : EndsInName (us ++ vs) ↔ EndsInName vs := by
  rw [EndsInName, EndsInName, List.getLast?_append_of_ne_nil _ h]

theorem not_endsInName_append_singleton (ht : ∀ x, t.kind ≠ .name x) :
    ¬ EndsInName (us ++ [t]) := by
  rw [endsInName_append (List.cons_ne_nil t []), endsInName_singleton_iff]
  rintro ⟨x, hx⟩
  exact ht x hx

theorem EndsInName.of_append_cons (ht : ∀ x, t.kind ≠ .name x) (h : EndsInName (us ++ t :: vs)) :
    EndsInName vs := by
  cases vs with
  | nil => exact absurd h (not_endsInName_append_singleton ht)
  | cons v vs =>
    rw [endsInName_append (List.cons_ne_nil t (v :: vs))] at h
    exact (@endsInName_append [t] _ (List.cons_ne_nil v vs)).mp h

theorem Stops.append_cons (h : Stops n vs k) (ht : ∀ x, t.kind ≠ .name x) :
    Stops n (us ++ t :: vs) k :=
  ⟨h.operator, h.transpose, fun hn => h.index (hn.of_append_cons ht)⟩

theorem Stops.cons (h : Stops n vs k) (ht : ∀ x, t.kind ≠ .name x) : Stops n (t :: vs) k :=
  @Stops.append_cons n [] vs t k h ht

theorem Stops.of_connective?_eq_none {l : Level} (h : Stops (l.rank + 1) us k)
    (hk : l.connective? k = none) : Stops l.rank us k := by
  refine ⟨fun c hc => ?_, h.transpose, h.index⟩
  have hle := h.operator c hc
  have hne : c.level.rank ≠ l.rank := by
    intro he
    have hl : c.level = l := by
      revert he
      generalize c.level = m
      cases m <;> cases l <;> simp [Level.rank]
    exact Level.connective?_eq_none_iff.mp hk c (Level.mem_operators_iff.mpr hl) hc
  omega

end Ends

end Phrase

end MatrixLang
