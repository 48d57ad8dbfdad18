import MatrixLang.Proofs.Syntax.SentenceComplete

/-! # Programs

Reading a program succeeds exactly on the tokens that spell one in front of the first end of input,
and a program that is spelled is the only one.
-/

namespace MatrixLang.Phrase

open Grammar Rule

section EndOfInput

def Inner (us : List Token) : Prop := ∀ t ∈ us, t.kind ≠ .endOfInput

variable {us vs : List Token} {t : Token}

@[simp] theorem inner_nil : Inner [] := nofun

@[simp] theorem inner_cons_iff : Inner (t :: us) ↔ t.kind ≠ .endOfInput ∧ Inner us :=
  List.forall_mem_cons

@[simp] theorem inner_append_iff : Inner (us ++ vs) ↔ Inner us ∧ Inner vs :=
  List.forall_mem_append

/-- None of the tokens is an end of input, or a keyword other than a builtin. -/
def Wordless (us : List Token) : Prop :=
  ∀ t ∈ us, t.kind ≠ .endOfInput ∧ ∀ w, t.kind = .keyword w → ∃ b, w = .builtin b

@[simp] theorem wordless_cons_iff :
    Wordless (t :: us) ↔
      (t.kind ≠ .endOfInput ∧ ∀ w, t.kind = .keyword w → ∃ b, w = .builtin b) ∧ Wordless us :=
  List.forall_mem_cons

@[simp] theorem wordless_nil : Wordless [] := nofun

@[simp] theorem wordless_append_iff : Wordless (us ++ vs) ↔ Wordless us ∧ Wordless vs :=
  List.forall_mem_append

theorem Wordless.inner (h : Wordless us) : Inner us := fun t ht => (h t ht).1

mutual

theorem Chain.wordless {l us e} : Chain l us e → Wordless us
  | .operand h => h.wordless
  | .join h _ ht h' => by simp [h.wordless, ht, h'.wordless]

theorem Operand.wordless {l us e} : Operand l us e → Wordless us
  | .equality h | .relational h | .additive h => h.wordless
  | .multiplicative h => h.wordless

theorem Negation.wordless {us e} : Negation us e → Wordless us
  | .transposed h => h.wordless
  | .negate ht h => by simp [ht, h.wordless]

theorem Transposed.wordless {us e} : Transposed us e → Wordless us
  | .primary h => h.wordless
  | .transpose h ht => by simp [h.wordless, ht]

theorem Primary.wordless {us e} : Primary us e → Wordless us
  | .integer ht => by simp [ht]
  | .float ht => by simp [ht]
  | .string ht => by simp [ht]
  | .reference h => h.wordless
  | .builtin ht ho h hc => by simp [ht, ho, h.wordless, hc]
  | .matrix ho h hc => by simp [ho, h.wordless, hc]
  | .parentheses ho h hc => by simp [ho, h.wordless, hc]

theorem Variable.wordless {us r} : Variable us r → Wordless us
  | .plain ht => by simp [ht]
  | .indexed ht ho h hc => by simp [ht, ho, h.wordless, hc]

theorem Expressions.wordless {us es} : Expressions us es → Wordless us
  | .one h => h.wordless
  | .more h ht h' => by simp [h.wordless, ht, h'.wordless]

theorem Rows.wordless {us rows} : Rows us rows → Wordless us
  | .one h => h.wordless
  | .closed h ht => by simp [h.wordless, ht]
  | .more h ht h' => by simp [h.wordless, ht, h'.wordless]

end

theorem Terminates.kind_ne (h : Terminates t) : t.kind ≠ .endOfInput := by
  rcases h with h | h <;> simp [h]

theorem Payload.wordless {i : Instruction} {es : List Node} (h : Payload i us es) :
    Wordless us := by
  cases h with
  | returnValues h => exact h.wordless
  | printValues h => exact h.wordless
  | _ => exact wordless_nil

theorem Expression.wordless {e : Node} (h : Expression us e) : Wordless us := Chain.wordless h

theorem Expression.inner {e : Node} (h : Expression us e) : Inner us := h.wordless.inner

mutual

theorem Statement.inner {chained us k s} : Statement chained us k s → Inner us
  | .assignment h ht h' hu => by simp [h.wordless.inner, ht, h'.inner, hu.kind_ne]
  | .instruction ht h hu _ => by simp [ht, h.wordless.inner, hu.kind_ne]
  | .expression h hu => by simp [h.inner, hu.kind_ne]
  | .conditional h => h.inner
  | .whileLoop ht ho h hc h' => by simp [ht, ho, h.inner, hc, h'.inner]
  | .forLoop ht hv hq hl hc hu _ h => by
    simp [ht, hv, hq, hl.inner, hc, hu.inner, h.inner]

theorem Conditional.inner {chained us k s} : Conditional chained us k s → Inner us
  | .mk ht ho h hc h' ha => by simp [ht, ho, h.inner, hc, h'.inner, ha.inner]

theorem Alternative.inner {chained us k a} : Alternative chained us k a → Inner us
  | .none _ => inner_nil
  | .elseIf ht h => by simp [ht, h.inner]
  | .block ht _ h => by simp [ht, h.inner]

theorem Block.inner {chained us k b} : Block chained us k b → Inner us
  | .braced ho hc h => by simp [ho, hc, h.inner]
  | .bare h => h.inner

theorem Statements.inner {chained us k ss} : Statements chained us k ss → Inner us
  | .nil => inner_nil
  | .cons h h' => by simp [h.inner, h'.inner]

end

end EndOfInput

section Program

variable {ts us rest : List Token} {p : Program}

theorem takeWhile_append_of_inner (h : Inner us) (hk : (Token.head rest).kind = .endOfInput) :
    (us ++ rest).takeWhile (·.kind ≠ .endOfInput) = us := by
  rw [List.takeWhile_append_of_pos fun t ht => by simpa using h t ht]
  cases rest with
  | nil => simp
  | cons t rest => simp [show t.kind = .endOfInput from hk]

theorem kind_head_dropWhile :
    (Token.head (ts.dropWhile (·.kind ≠ .endOfInput))).kind = .endOfInput := by
  induction ts with
  | nil => rfl
  | cons t ts ih =>
    rw [List.dropWhile_cons]
    split
    · exact ih
    · simp_all

theorem program_sound {d : Nat} (h : program d ts = .ok p rest) : Spells true ts p := by
  rw [program, peek_bind] at h
  obtain ⟨ss, ts₁, h₁, g₁⟩ := bind_eq_ok_iff.mp h
  obtain ⟨us, rfl, hs, he⟩ := statements_sound h₁
  obtain ⟨rfl, rfl⟩ := pure_eq_ok_iff.mp g₁
  have hk : (Token.head ts₁).kind = .endOfInput := by simpa using he
  refine ⟨?_, rfl⟩
  rw [takeWhile_append_of_inner hs.inner hk, ← hk]
  exact hs

theorem Spells.read (h : Spells true ts p) :
    program (depthFor ts.length) ts = .ok p (ts.dropWhile (·.kind ≠ .endOfInput)) := by
  obtain ⟨hs, hl⟩ := h
  have hd : Suffices (depthFor ts.length) ts.length 13 := suffices_depthFor (by decide)
  have hts : ts.takeWhile (·.kind ≠ .endOfInput) ++ ts.dropWhile (·.kind ≠ .endOfInput) = ts :=
    List.takeWhile_append_dropWhile
  have hr : statements (depthFor ts.length) false
      (ts.takeWhile (·.kind ≠ .endOfInput) ++ ts.dropWhile (·.kind ≠ .endOfInput)) =
      .ok p.statements (ts.dropWhile (·.kind ≠ .endOfInput)) :=
    hs.read (by rwa [hts]) kind_head_dropWhile (.inl rfl)
  rw [hts] at hr
  rw [program, peek_bind, bind_of_eq_ok hr, ← hl]
  rfl

theorem takeWhile_append_endOfInput {t : Token} (ht : t.kind = .endOfInput) :
    (ts ++ [t]).takeWhile (·.kind ≠ .endOfInput) = ts.takeWhile (·.kind ≠ .endOfInput) := by
  induction ts with
  | nil => simp [ht]
  | cons u ts ih => rw [List.cons_append, List.takeWhile_cons, List.takeWhile_cons, ih]

/-- An end of input that is added behind the tokens changes nothing. -/
theorem spells_closeTokens_iff {chained : Bool} :
    Spells chained (Cursor.closeTokens ts) p ↔ Spells chained ts p := by
  unfold Spells Cursor.closeTokens
  cases hl : ts.getLast? with
  | none =>
    obtain rfl := List.getLast?_eq_none_iff.mp hl
    rfl
  | some t =>
    have hne : ts ≠ [] := by
      rintro rfl
      simp at hl
    dsimp only
    split
    · rfl
    · rw [takeWhile_append_endOfInput rfl, Token.head_append hne]

theorem rest_ofTokens : (Cursor.ofTokens ts).rest = Cursor.closeTokens ts := rfl

theorem ofTokens_eq_ok_iff : Program.ofTokens ts = .ok p ↔ Spells true ts p := by
  rw [← spells_closeTokens_iff, Program.ofTokens, Cursor.readProgram, rest_ofTokens]
  constructor
  · intro h
    cases hp : program (depthFor (Cursor.closeTokens ts).length) (Cursor.closeTokens ts) with
    | ok q rest =>
      obtain rfl : q = p := by simpa [hp] using h
      exact program_sound hp
    | error e rest => simp [hp] at h
    | exhausted => simp [hp] at h
  · intro h
    rw [h.read]

/-- A list of tokens gives the program that the tokens in front of the first end of input spell, if
there is one, and they spell no other. -/
theorem ofTokens_iff_spells (ts : List Token) (p : Program) :
    (Program.ofTokens ts = .ok p ↔ Spells true ts p) ∧
      ∀ q, Spells true ts p ∧ Spells true ts q → p = q := by
  refine ⟨ofTokens_eq_ok_iff, fun q ⟨hp, hq⟩ => ?_⟩
  have h := (ofTokens_eq_ok_iff.mpr hp).symm.trans (ofTokens_eq_ok_iff.mpr hq)
  exact Except.ok.inj h

end Program

section ElseIf

def tokenAt (k : Kind) (column : Nat) : Token := ⟨k, ⟨1, column⟩⟩

def conditionalTokens (x y : String) (column : Nat) : List Token :=
  [tokenAt (.keyword .ifWord) column, tokenAt (.symbol .leftParen) (column + 3),
    tokenAt (.name x) (column + 4), tokenAt (.symbol .rightParen) (column + 5),
    tokenAt (.name y) (column + 7), tokenAt (.symbol .semicolon) (column + 8)]

/-- The tokens of `if (a) b; else if (c) d;`. -/
def chainTokens : List Token :=
  conditionalTokens "a" "b" 1 ++ tokenAt (.keyword .elseWord) 11 :: conditionalTokens "c" "d" 16

def variableAt (x : String) (column : Nat) : Node := .reference ⟨x, [], ⟨1, column⟩⟩

def conditionalAt (x y : String) (column : Nat) (a : Option (MatrixLang.Alternative Node)) : Node :=
  .conditional (variableAt x (column + 4))
    ⟨[.expression (variableAt y (column + 7)) ⟨1, column + 7⟩], ⟨1, column + 7⟩⟩ a ⟨1, column⟩

/-- The second condition as the next one of a chain. -/
def linkedProgram : Program :=
  ⟨[conditionalAt "a" "b" 1 (some (.elseIf (conditionalAt "c" "d" 16 none)))], ⟨1, 1⟩⟩

/-- The second condition as a statement of its own behind the `else`. -/
def nestedProgram : Program :=
  ⟨[conditionalAt "a" "b" 1 (some (.block ⟨[conditionalAt "c" "d" 16 none], ⟨1, 16⟩⟩))], ⟨1, 1⟩⟩

variable {chained : Bool} {us : List Token} {k : Kind}

theorem conditional_conditionalTokens {a : Option (MatrixLang.Alternative Node)} (x y : String)
    (column : Nat) (ha : Alternative chained us k a) :
    Conditional chained (conditionalTokens x y column ++ us) k (conditionalAt x y column a) := by
  have hv (z : String) (c : Nat) : Expression [tokenAt (.name z) c] (variableAt z c) :=
    (Primary.reference (.plain rfl)).expression
  have hs : Statement chained [tokenAt (.name y) (column + 7), tokenAt (.symbol .semicolon) _]
      (follow us k) (.expression (variableAt y _) _) :=
    @Statement.expression chained [_] (tokenAt (.symbol .semicolon) (column + 8)) _ _
      (hv y (column + 7)) (.inl rfl)
  exact @Conditional.mk chained _ _ [_] _ _ us k _ _ a rfl rfl (hv x (column + 4)) rfl (.bare hs) ha

theorem spells_of_conditional {s : Node} (h : Conditional chained us .endOfInput s) :
    Spells chained us ⟨[s], (Token.head us).location⟩ := by
  have hu : us.takeWhile (·.kind ≠ .endOfInput) = us := by
    simpa using @takeWhile_append_of_inner us [] h.inner rfl
  have hs : Statements chained (us ++ []) .endOfInput [s] := .cons (.conditional h) .nil
  rw [List.append_nil] at hs
  exact ⟨hu.symm ▸ hs, rfl⟩

/-- Unless an `if` behind an `else` has to go on with the chain, a program need not be the only one
that its tokens spell. -/
theorem spells_linked_and_nested :
    Spells false chainTokens linkedProgram ∧ Spells false chainTokens nestedProgram ∧
      linkedProgram ≠ nestedProgram ∧ Program.ofTokens chainTokens = .ok linkedProgram := by
  have hi : Conditional false (conditionalTokens "c" "d" 16) .endOfInput _ :=
    conditional_conditionalTokens "c" "d" 16 (.none nofun)
  have he : (tokenAt (.keyword .elseWord) 11).kind = .keyword .elseWord := rfl
  have hl := conditional_conditionalTokens "a" "b" 1 (.elseIf he hi)
  have hm : MayBlock false (conditionalTokens "c" "d" 16) := by simp [MayBlock]
  have hn := conditional_conditionalTokens "a" "b" 1 (.block he hm (.bare (.conditional hi)))
  refine ⟨spells_of_conditional hl, spells_of_conditional hn, ?_, rfl⟩
  intro h
  injection h with h
  injection h with h
  injection h with _ _ h
  injection h with h
  injection h

end ElseIf

end MatrixLang.Phrase
