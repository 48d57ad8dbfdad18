import MatrixLang.Proofs.Lexing.Munch
import MatrixLang.Proofs.Number.Text
import MatrixLang.Proofs.Outline.Indent
import MatrixLang.Proofs.Report.Line

/-! # Labels

A label is a literal, a name or the word for a construct. The labels of literals and names differ in
their first characters, except that a float has a point or an exponent and an integer has not, and
those of constructs differ but for the minus, which has one operand or two.
-/

namespace MatrixLang

/-- The literals and names that a label shows as they are: floats are finite, and nothing has a line
break. -/
def Kind.IsReadable : Kind → Prop
  | .integer value => 0 ≤ value
  | .float value => Binary64.IsFloatText value.text.toList
  | .string text => '\n' ∉ text.toList
  | .name text => IsWord text.toList
  | .keyword _ | .symbol _ | .endOfInput => False

/-- What the label of a node stands for, if it is neither a literal nor a name. -/
inductive Construct where
  | element
  | matrix
  | builtin (b : Builtin)
  | binary (op : BinaryOperator)
  | comparison (c : Comparison)
  | unary (op : UnaryOperator)
  | assignment (op : AssignOperator)
  | instruction (i : Instruction)
  | conditional
  | whileLoop
  | forLoop
  deriving DecidableEq

namespace Construct

def label : Construct → String
  | .element => "REF"
  | .matrix => "MATRIX"
  | .builtin b => b.text
  | .binary op => op.text
  | .comparison c => c.text
  | .unary op => op.label
  | .assignment op => op.text
  | .instruction i => i.name
  | .conditional => "IF"
  | .whileLoop => "WHILE"
  | .forLoop => "FOR"

def arity : Construct → Option Nat
  | .binary _ | .comparison _ => some 2
  | .unary _ => some 1
  | _ => none

/-- The label is that of a statement. -/
def OfStatement : Construct → Prop
  | .assignment _ | .instruction _ | .conditional | .whileLoop | .forLoop => True
  | _ => False

def all : List Construct :=
  [.element, .matrix, .conditional, .whileLoop, .forLoop] ++
    [Builtin.zeros, .ones, .eye].map .builtin ++
    Symbol.allArithmetic.map (.binary <| .plain ·) ++
    Symbol.allArithmetic.map (.binary <| .elementwise ·) ++
    [Comparison.equal, .notEqual, .less, .lessEqual, .greater, .greaterEqual].map .comparison ++
    [UnaryOperator.negate, .transpose].map .unary ++
    .assignment .plain :: Symbol.allArithmetic.map (.assignment <| .compound ·) ++
    [Instruction.breakLoop, .continueLoop, .returnValues, .printValues].map .instruction

theorem mem_all : ∀ c : Construct, c ∈ all
  | .element | .matrix | .conditional | .whileLoop | .forLoop => by decide
  | .builtin b => by cases b <;> decide
  | .binary (.plain op) | .binary (.elementwise op) => by cases op <;> decide
  | .comparison c => by cases c <;> decide
  | .unary op => by cases op <;> decide
  | .assignment .plain => by decide
  | .assignment (.compound op) => by cases op <;> decide
  | .instruction i => by cases i <;> decide

/-- A label tells the construct, up to the number of operands. -/
theorem eq_or_arity_ne {c c' : Construct} (h : c.label = c'.label) :
    c = c' ∨ ∃ j ∈ c.arity, ∃ k ∈ c'.arity, j ≠ k := by
  have hall : ∀ c ∈ all, ∀ c' ∈ all, c.label = c'.label →
      c = c' ∨ ∃ j ∈ c.arity, ∃ k ∈ c'.arity, j ≠ k := by decide +kernel
  exact hall c (mem_all c) c' (mem_all c') h

theorem label_ne_else (c : Construct) : c.label ≠ "ELSE" := by
  have hall : ∀ c ∈ all, c.label ≠ "ELSE" := by decide +kernel
  exact hall c (mem_all c)

theorem isLabel_label (c : Construct) : IsLabel c.label := by
  have hall : ∀ c ∈ all, '\n' ∉ c.label.toList ∧ c.label.toList.head? ≠ some '|' := by
    decide +kernel
  exact ⟨(hall c (mem_all c)).1, (hall c (mem_all c)).2⟩

end Construct

namespace Kind

variable {k k' : Kind}

def Opens : Kind → Char → Prop
  | .integer _, c | .float _, c => c.isDigit = true
  | .string _, c => c = '"'
  | .name _, c => c.isAlpha = true ∨ c = '_'
  | .keyword _, _ | .symbol _, _ | .endOfInput, _ => False

/-- Numbers, strings and names, told apart by the first character. -/
def group : Kind → Nat
  | .integer _ | .float _ => 0
  | .string _ => 1
  | _ => 2

theorem Opens.group_eq {c : Char} (h : k.Opens c) :
    (if c.isDigit then 0 else if c = '"' then 1 else 2) = k.group := by
  cases k with
  | integer | float => exact if_pos h
  | string =>
    obtain rfl : c = '"' := h
    rfl
  | name =>
    have hdigit : ¬ c.isDigit = true := by
      rcases h with h | rfl
      · exact fun hd => not_isAlpha_of_isDigit hd h
      · decide
    have hquote : c ≠ '"' := by
      rintro rfl
      revert h
      simp only [Opens]
      decide
    rw [if_neg hdigit, if_neg hquote]
    rfl
  | keyword | symbol | endOfInput => exact h.elim

theorem IsReadable.exists_opens (h : k.IsReadable) :
    ∃ c cs, k.spelling.toList = c :: cs ∧ k.Opens c := by
  cases k with
  | integer n =>
    obtain ⟨n, rfl⟩ := Int.eq_ofNat_of_zero_le h
    have hdigits : (toString n).toList ≠ [] := by
      rw [Nat.toString_eq_repr, Nat.toList_repr]
      exact Nat.toDigits_ne_nil
    obtain ⟨c, cs, hcs⟩ := List.exists_cons_of_ne_nil hdigits
    exact ⟨c, cs, hcs, isDigit_of_mem_toString (hcs ▸ List.mem_cons_self)⟩
  | float x =>
    obtain ⟨c, hc, hdigit⟩ := h.head
    obtain ⟨cs, hcs⟩ := List.head?_eq_some_iff.mp hc
    exact ⟨c, cs, hcs, hdigit⟩
  | string s => exact ⟨'"', s.toList ++ ['"'], by simp [spelling], rfl⟩
  | name x =>
    have hword : IsWord x.toList := h
    revert hword
    generalize hx : x.toList = cs
    rintro ⟨hc, _⟩
    exact ⟨_, _, hx, hc⟩
  | keyword | symbol | endOfInput => exact h.elim

theorem IsReadable.eq_name {l : String} (h : k.IsReadable) (hl : k.spelling = l)
    (hletter : l.toList.head?.any Char.isAlpha = true) : k = .name l := by
  obtain ⟨c, cs, hcs, hopens⟩ := h.exists_opens
  have hc : c.isAlpha = true := by
    rw [← hl, hcs] at hletter
    exact hletter
  have hgroup : k.group = 2 := by
    have hdigit : ¬ c.isDigit = true := fun hd => not_isAlpha_of_isDigit hd hc
    have hquote : c ≠ '"' := by
      rintro rfl
      exact absurd hc (by decide)
    rw [← hopens.group_eq, if_neg hdigit, if_neg hquote]
  cases k with
  | name x => exact congrArg name hl
  | keyword | symbol | endOfInput => exact h.elim
  | _ => cases hgroup

theorem IsReadable.isLabel_spelling (h : k.IsReadable) : IsLabel k.spelling := by
  refine ⟨?_, ?_⟩
  · cases k with
    | integer n => exact lineBreak_notMem_toString n
    | float x => exact x.lineBreak_notMem_text
    | string s =>
      have hs : '\n' ∉ s.toList := h
      simpa [spelling] using hs
    | name x => exact (IsWord.unbroken h).isLine.1
    | keyword | symbol | endOfInput => exact h.elim
  · obtain ⟨c, cs, hcs, hopens⟩ := h.exists_opens
    rw [hcs, List.head?_cons, ne_eq, Option.some.injEq]
    rintro rfl
    cases k <;> revert hopens <;> simp only [Opens] <;> decide

end Kind

/-- What the label of a node stands for. -/
inductive Head where
  | leaf (k : Kind)
  | branch (c : Construct)

namespace Head

def label : Head → String
  | .leaf k => k.spelling
  | .branch c => c.label

/-- The two are the same, or floats that are written alike. -/
inductive Matches : Head → Head → Prop
  | same {h} : Matches h h
  | float {x y : Binary64} : x.text = y.text → Matches (.leaf (.float x)) (.leaf (.float y))

theorem Matches.symm {h h' : Head} (hm : h.Matches h') : h'.Matches h := by
  cases hm with
  | same => exact .same
  | float htext => exact .float htext.symm

theorem toString_ne_text {n : Nat} {x : Binary64} (hx : Binary64.IsFloatText x.text.toList) :
    toString n ≠ x.text := by
  intro h
  rw [← h] at hx
  rcases hx.mark with hmem | hmem
  · exact absurd (isDigit_of_mem_toString hmem) (by decide)
  · exact absurd (isDigit_of_mem_toString hmem) (by decide)

theorem matches_leaf {k k' : Kind} (hk : k.IsReadable) (hk' : k'.IsReadable)
    (h : k.spelling = k'.spelling) : Matches (.leaf k) (.leaf k') := by
  obtain ⟨c, cs, hcs, hopens⟩ := hk.exists_opens
  obtain ⟨c', cs', hcs', hopens'⟩ := hk'.exists_opens
  obtain ⟨rfl, rfl⟩ := List.cons.inj (hcs.symm.trans (h ▸ hcs'))
  have hgroup := hopens.group_eq.symm.trans hopens'.group_eq
  cases k with
  | integer n =>
    obtain ⟨n, rfl⟩ := Int.eq_ofNat_of_zero_le hk
    cases k' with
    | integer n' =>
      obtain ⟨n', rfl⟩ := Int.eq_ofNat_of_zero_le hk'
      obtain rfl : n = n' := toString_nat_inj h
      exact .same
    | float x => exact absurd h (toString_ne_text hk')
    | _ => cases hgroup
  | float x =>
    cases k' with
    | integer n =>
      obtain ⟨n, rfl⟩ := Int.eq_ofNat_of_zero_le hk'
      exact absurd h.symm (toString_ne_text hk)
    | float y => exact .float h
    | _ => cases hgroup
  | string s =>
    cases k' with
    | string s' =>
      obtain rfl : s = s' := by simpa [Kind.spelling] using h
      exact .same
    | _ => cases hgroup
  | name x =>
    cases k' with
    | name y =>
      obtain rfl : x = y := h
      exact .same
    | keyword | symbol | endOfInput => exact hk'.elim
    | _ => cases hgroup
  | keyword | symbol | endOfInput => exact hk.elim

def IsReadable : Head → Prop
  | .leaf k => k.IsReadable
  | .branch _ => True

/-- What may stand below a label. -/
inductive Carries : Head → List Outline → Prop
  | leaf {k} : Carries (.leaf k) []
  | bare {i} : i ≠ .printValues → Carries (.branch (.instruction i)) []
  | branch {c o os} : (∀ k ∈ c.arity, k = os.length + 1) → Carries (.branch c) (o :: os)

/-- The first is no name that is spelled like the second, an instruction without values. -/
def Apart (h h' : Head) : Prop :=
  ∀ x i, h = .leaf (.name x) → h' = .branch (.instruction i) → i ≠ .printValues → x ≠ i.name

theorem not_apart_of_spelling {k : Kind} {i : Instruction} (hk : k.IsReadable)
    (hi : i ≠ .printValues) (h : k.spelling = i.name) :
    ¬ Apart (.leaf k) (.branch (.instruction i)) := by
  obtain rfl : k = .name i.name := hk.eq_name h (by cases i <;> decide)
  exact fun hapart => hapart _ i rfl rfl hi rfl

/-- A label and what stands below it tell what the label stands for. -/
theorem matches_of_carries {h h' : Head} {os : List Outline} (hc : h.Carries os)
    (hc' : h'.Carries os) (hlabel : h.label = h'.label) (hr : h.IsReadable) (hr' : h'.IsReadable)
    (hapart : Apart h h') (hapart' : Apart h' h) : h.Matches h' := by
  cases hc with
  | leaf =>
    cases hc' with
    | leaf => exact matches_leaf hr hr' hlabel
    | bare hi => exact absurd hapart (not_apart_of_spelling hr hi hlabel)
  | @bare i hi =>
    cases hc' with
    | leaf => exact absurd hapart' (not_apart_of_spelling hr' hi hlabel.symm)
    | @bare i' hi' =>
      obtain rfl : i = i' := by
        revert hlabel
        cases i <;> cases i' <;> simp only [label, Construct.label] <;> decide
      exact .same
  | @branch c o os hk =>
    cases hc' with
    | @branch c' _ _ hk' =>
      rcases Construct.eq_or_arity_ne hlabel with rfl | ⟨j, hj, j', hj', hne⟩
      · exact .same
      · exact absurd ((hk j hj).trans (hk' j' hj').symm) hne

end Head

end MatrixLang
