import MatrixLang.Proofs.Syntax.Phrase
import MatrixLang.Tree.Cursor

/-! # The grammar of statements

Which tokens spell which statement in front of a token of some kind. That kind settles where the
grammar alone would leave a choice: whether an `else` may still come, whether a comma ends a list of
values, and whether the end bound of a loop is over.
-/

namespace MatrixLang.Phrase

inductive Payload : Instruction → List Token → List Node → Prop
  | breakLoop : Payload .breakLoop [] []
  | continueLoop : Payload .continueLoop [] []
  | returnNothing : Payload .returnValues [] []
  | returnValues {us es} : Expressions us es → Payload .returnValues us es
  | printValues {us es} : Expressions us es → Payload .printValues us es

/-- A token that may end a statement. -/
def Terminates (t : Token) : Prop := t.kind = .symbol .semicolon ∨ t.kind = .symbol .comma

/-- Some expression starts with a token of the kind `k`. -/
def Opens (k : Kind) : Prop := ∃ t us e, t.kind = k ∧ Expression (t :: us) e

/-- The kind of the first token of `us`, in front of a token of the kind `k`. -/
def follow (us : List Token) (k : Kind) : Kind := (us.head?.map (·.kind)).getD k

/-- What an `else` in front of an `if` may be followed by. The grammar has both the next condition
of a chain and a block, one bare conditional; in a `chained` grammar only the former. -/
def MayBlock (chained : Bool) (us : List Token) : Prop :=
  chained = true → (Token.head us).kind ≠ .keyword .ifWord

mutual

inductive Statement (chained : Bool) : List Token → Kind → Node → Prop
  | assignment {us t vs u k r op e} : Variable us r → t.kind = .symbol (.assign op) →
      Expression vs e → Terminates u →
      Statement chained (us ++ t :: vs ++ [u]) k (.assignment r op e t.location)
  | instruction {t us u k i es} : t.kind = .keyword (.instruction i) → Payload i us es →
      Terminates u → (us ≠ [] → u.kind = .symbol .comma → ¬ Opens k) →
      Statement chained (t :: us ++ [u]) k (.instruction i es t.location)
  | expression {us u k e} : Expression us e → Terminates u →
      Statement chained (us ++ [u]) k (.expression e (Token.head us).location)
  | conditional {us k s} : Conditional chained us k s → Statement chained us k s
  | whileLoop {t o us c vs k e b} : t.kind = .keyword .whileWord → o.kind = .symbol .leftParen →
      Expression us e → c.kind = .symbol .rightParen → Block chained vs k b →
      Statement chained (t :: o :: us ++ c :: vs) k (.whileLoop e b t.location)
  | forLoop {t v q us c vs ws k x lower upper b} : t.kind = .keyword .forWord → v.kind = .name x →
      q.kind = .symbol (.assign .plain) → Expression us lower → c.kind = .symbol .colon →
      Expression vs upper → Ends vs (follow ws k) → Block chained ws k b →
      Statement chained (t :: v :: q :: us ++ c :: vs ++ ws) k
        (.forLoop ⟨x, [], v.location⟩ ⟨lower, upper, c.location⟩ b t.location)

inductive Conditional (chained : Bool) : List Token → Kind → Node → Prop
  | mk {t o us c vs ws k e b a} : t.kind = .keyword .ifWord → o.kind = .symbol .leftParen →
      Expression us e → c.kind = .symbol .rightParen → Block chained vs (follow ws k) b →
      Alternative chained ws k a →
      Conditional chained (t :: o :: us ++ c :: vs ++ ws) k (.conditional e b a t.location)

/-- What may follow the first block of a conditional. Nothing does only where no `else` does, so
that an `else` belongs to the nearest conditional. -/
inductive Alternative (chained : Bool) :
    List Token → Kind → Option (MatrixLang.Alternative Node) → Prop
  | none {k} : k ≠ .keyword .elseWord → Alternative chained [] k none
  | elseIf {t us k s} : t.kind = .keyword .elseWord → Conditional chained us k s →
      Alternative chained (t :: us) k (some (.elseIf s))
  | block {t us k b} : t.kind = .keyword .elseWord → MayBlock chained us → Block chained us k b →
      Alternative chained (t :: us) k (some (.block b))

inductive Block (chained : Bool) : List Token → Kind → MatrixLang.Block Node → Prop
  | braced {o us c k ss} : o.kind = .symbol .leftBrace → c.kind = .symbol .rightBrace →
      Statements chained us c.kind ss → Block chained (o :: us ++ [c]) k ⟨ss, o.location⟩
  | bare {us k s} : Statement chained us k s →
      Block chained us k ⟨[s], (Token.head us).location⟩

inductive Statements (chained : Bool) : List Token → Kind → List Node → Prop
  | nil {k} : Statements chained [] k []
  | cons {us vs k s ss} : Statement chained us (follow vs k) s → Statements chained vs k ss →
      Statements chained (us ++ vs) k (s :: ss)

end

/-- The tokens in front of the first end of input spell the program. -/
def Spells (chained : Bool) (ts : List Token) (p : Program) : Prop :=
  Statements chained (ts.takeWhile (·.kind ≠ .endOfInput)) .endOfInput p.statements ∧
    p.location = (Token.head ts).location

section Follow

theorem follow_kind_head (us rest : List Token) :
    follow us (Token.head rest).kind = (Token.head (us ++ rest)).kind := by
  cases us with
  | nil => rfl
  | cons u us => rfl

end Follow

section Nonempty

variable {chained : Bool} {us : List Token} {k : Kind}

theorem Statement.ne_nil {s : Node} (h : Statement chained us k s) : us ≠ [] := by
  cases h with
  | conditional h =>
    cases h
    simp
  | _ => simp

theorem Block.ne_nil {b : MatrixLang.Block Node} (h : Block chained us k b) : us ≠ [] := by
  cases h with
  | braced => simp
  | bare h => exact h.ne_nil

end Nonempty

end MatrixLang.Phrase
