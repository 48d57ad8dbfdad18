import MatrixLang.Proofs.Checking.Procedure
import MatrixLang.Proofs.Typing.Complete

/-! # Procedures that no text leads to

Some of what the procedures of a check do is for trees that no text gives: a statement among
operands, a matrix without rows, the argument of a builtin that is a negative literal. A check of
the program of a text comes to none of it, since each procedure hands on what the grammar admits.
-/

namespace MatrixLang

section Calls

/-- `p.Calls s m c`: done from the state `s`, the plan calls the procedure `m` in the state `c`. -/
inductive Plan.Calls {α : Type} :
    Plan α → Checker Scopes → {β : Type} → Procedure β → Checker Scopes → Prop
  | here {β : Type} {m : Procedure β} {next s} : Calls (.call m next) s m s
  | act {β γ : Type} {d : Check Scopes γ} {next s} {m : Procedure β} {c} :
      Calls (next (d s).1) (d s).2 m c → Calls (.act d next) s m c
  | call {β γ : Type} {m' : Procedure γ} {next s} {m : Procedure β} {c} :
      Calls (next (m'.check s).1) (m'.check s).2 m c → Calls (.call m' next) s m c

/-- `m.ComesTo s m' c`: done from the state `s`, the procedure `m` comes to do `m'` in the state
`c`, itself or by what it calls. -/
inductive Procedure.ComesTo {α : Type} (m : Procedure α) (s : Checker Scopes) :
    {β : Type} → Procedure β → Checker Scopes → Prop
  | here : ComesTo m s m s
  | call {β γ : Type} {m' : Procedure β} {m'' : Procedure γ} {c d} :
      ComesTo m s m' c → m'.plan.Calls c m'' d → ComesTo m s m'' d

def Program.ComesTo (p : Program) (s : Checker Scopes) {α : Type} (m : Procedure α)
    (c : Checker Scopes) : Prop :=
  (Procedure.statements p.statements).ComesTo s m c

/-- What the procedures do only for trees that no text gives. -/
inductive Procedure.IsDefensive : {α : Type} → Procedure α → Prop
  | command {n} : n.isCommand = true → IsDefensive (.expression n)
  | operand {n} : n.isCommand = false → IsDefensive (.statement n)
  | elseIf {e b n l} : (∀ e' b' a' l', n ≠ .conditional e' b' a' l') →
      IsDefensive (.statement (.conditional e b (some (.elseIf n)) l))
  | counter {r bounds b l} : r.indices ≠ [] → IsDefensive (.statement (.forLoop r bounds b l))
  | noRows {l} : IsDefensive (.matrix [] l)
  | noColumns {rows l} : IsDefensive (.matrix ([] :: rows) l)
  | noArguments {b l} : IsDefensive (.builtin b [] l)
  | rejection {l} : IsDefensive (.rejection l)

end Calls

section Regular

open Node

/-- The procedure is given what the grammar admits for it. -/
def Procedure.IsRegular {α : Type} : Procedure α → Prop
  | statements ns => ∀ n ∈ ns, n.IsStatement
  | statement n => n.IsStatement
  | expression n => n.IsExpression
  | reference r => (Node.reference r).IsExpression
  | matrix rows l => (Node.matrix rows l).IsExpression
  | matrixRows _ rows => ∀ row ∈ rows, ∀ e ∈ row, e.IsExpression
  | builtin b es l => (Node.builtin b es l).IsExpression
  | indices es | elements _ _ es | arguments es | payload es => ∀ e ∈ es, e.IsExpression
  | rejection _ => False

/-- All procedures that the plan may call, whatever they give, are regular. -/
def Plan.IsRegular {α : Type} : Plan α → Prop
  | done _ => True
  | act _ next => ∀ a, (next a).IsRegular
  | call m next => m.IsRegular ∧ ∀ a, (next a).IsRegular

namespace Plan

variable {α β : Type}

theorem isRegular_pure (a : α) : (pure a : Plan α).IsRegular := trivial

theorem isRegular_step (c : Check Scopes α) : (step c).IsRegular := fun _ => trivial

theorem isRegular_perform {m : Procedure α} (hm : m.IsRegular) : (perform m).IsRegular :=
  ⟨hm, fun _ => trivial⟩

theorem isRegular_ite {p : Prop} [Decidable p] {q q' : Plan α} (hq : q.IsRegular)
    (hq' : q'.IsRegular) : (if p then q else q').IsRegular := by
  split
  · exact hq
  · exact hq'

theorem IsRegular.bind {p : Plan α} {g : α → Plan β} (hp : p.IsRegular)
    (hg : ∀ a, (g a).IsRegular) : (p >>= g).IsRegular := by
  show (p.bind g).IsRegular
  induction p with
  | done a => exact hg a
  | act c next ih => exact fun a => ih a (hp a)
  | call m next ih => exact ⟨hp.1, fun a => ih a (hp.2 a)⟩

theorem IsRegular.of_calls {p : Plan α} (hp : p.IsRegular) {s c : Checker Scopes}
    {m : Procedure β} (h : p.Calls s m c) : m.IsRegular := by
  induction h with
  | here => exact hp.1
  | act _ ih => exact ih (hp _)
  | call _ ih => exact ih (hp.2 _)

section Parts

variable {e : Node} {b : Block Node}

theorem isRegular_condition (he : e.IsExpression) : (condition e).IsRegular :=
  .bind (isRegular_perform he) fun _ => isRegular_step _

theorem isRegular_bounds {b : Bounds Node} (hl : b.lower.IsExpression)
    (hu : b.upper.IsExpression) : (bounds b).IsRegular :=
  .bind (isRegular_perform hl) fun _ => .bind (isRegular_perform hu) fun _ => isRegular_step _

theorem isRegular_block (hb : ∀ n ∈ b.statements, n.IsStatement) : (block b).IsRegular :=
  .bind (isRegular_step _) fun _ => .bind (isRegular_perform hb) fun _ => isRegular_step _

theorem isRegular_body (hb : ∀ n ∈ b.statements, n.IsStatement) : (body b).IsRegular :=
  .bind (isRegular_step _) fun _ => .bind (isRegular_block hb) fun _ => isRegular_step _

theorem isRegular_assigned {r : Reference Node} (hr : ∀ i ∈ r.indices, i.IsExpression)
    (line : Nat) (op : AssignOperator) (t : Option Ty) : (assigned r line op t).IsRegular :=
  isRegular_ite (isRegular_step _) <|
    .bind (isRegular_perform (.reference hr)) fun _ => isRegular_step _

end Parts

section Plans

variable {n : Node}

theorem isRegular_statement (hn : n.IsStatement) : (statement n).IsRegular := by
  cases hn with
  | assignment hr he =>
    exact .bind (isRegular_perform he) fun _ => isRegular_assigned hr _ _ _
  | instruction he =>
    exact .bind (isRegular_step _) fun _ => .bind (isRegular_perform he) fun _ =>
      isRegular_ite (isRegular_pure ()) (isRegular_step _)
  | expression he => exact .bind (isRegular_perform he) fun _ => isRegular_pure ()
  | conditional he hb =>
    exact .bind (isRegular_condition he) fun _ => .bind (isRegular_block hb) fun _ =>
      isRegular_pure ()
  | elseIf he hb hn =>
    exact .bind (isRegular_condition he) fun _ => .bind (isRegular_block hb) fun _ =>
      isRegular_perform hn
  | elseBlock he hb hb' =>
    exact .bind (isRegular_condition he) fun _ => .bind (isRegular_block hb) fun _ =>
      isRegular_block hb'
  | whileLoop he hb => exact .bind (isRegular_condition he) fun _ => isRegular_body hb
  | forLoop hl hu hb =>
    exact (isRegular_bounds hl hu).bind fun _ => .bind (isRegular_step _) fun _ =>
      isRegular_body hb

theorem isRegular_expression (hn : n.IsExpression) : (expression n).IsRegular := by
  cases hn with
  | integer | float | string => exact isRegular_pure _
  | reference hi => exact isRegular_perform (.reference hi)
  | matrix hne hrow he => exact isRegular_perform (.matrix hne hrow he)
  | builtin hne he => exact isRegular_perform (.builtin hne he)
  | binary hl hr =>
    exact .bind (isRegular_perform hl) fun _ => .bind (isRegular_perform hr) fun _ =>
      isRegular_step _
  | comparison hl hr =>
    exact .bind (isRegular_perform hl) fun _ => .bind (isRegular_perform hr) fun _ =>
      isRegular_pure _
  | @unary op _ _ he =>
    cases op with
    | transpose => exact .bind (isRegular_perform he) fun _ => isRegular_step _
    | negate => exact .bind (isRegular_perform he) fun _ => isRegular_step _

/-- No literal among the arguments is negative, so that each of them gives an extent. -/
theorem isRegular_builtin {es : List Node} (hes : ∀ e ∈ es, e.IsExpression) (l : Location) :
    (builtin es l).IsRegular := by
  obtain ⟨ms, hms⟩ := mapM_extent?_eq hes
  refine .bind (isRegular_perform hes) fun _ =>
    isRegular_ite ?_ (.bind (isRegular_step _) fun _ => isRegular_pure none)
  rw [hms]
  exact isRegular_pure _

end Plans

end Plan

namespace Procedure

variable {α β : Type} {m : Procedure α} {m' : Procedure β} {s c : Checker Scopes}

open Plan

theorem IsRegular.plan (hm : m.IsRegular) : m.plan.IsRegular := by
  cases m with
  | statements ns =>
    cases ns with
    | nil => exact isRegular_pure ()
    | cons n ns =>
      obtain ⟨hn, hns⟩ := List.forall_mem_cons.mp hm
      exact .bind (isRegular_perform hn) fun _ => isRegular_perform hns
  | statement n => exact isRegular_statement hm
  | expression n => exact isRegular_expression hm
  | reference r =>
    cases hm with
    | reference hi => exact .bind (isRegular_perform hi) fun _ => isRegular_step _
  | indices es =>
    cases es with
    | nil => exact isRegular_pure ()
    | cons e es =>
      obtain ⟨he, hes⟩ := List.forall_mem_cons.mp hm
      exact .bind (isRegular_perform he) fun _ => .bind (isRegular_step _) fun _ =>
        isRegular_perform hes
  | matrix rows l =>
    cases hm with
    | matrix _ _ he =>
      exact .bind (isRegular_step _) fun _ => .bind (isRegular_perform he) fun _ => isRegular_pure _
  | matrixRows line rows =>
    cases rows with
    | nil => exact isRegular_pure ()
    | cons row rows =>
      obtain ⟨hrow, hrows⟩ := List.forall_mem_cons.mp hm
      exact .bind (isRegular_perform hrow) fun _ => isRegular_perform hrows
  | elements line reported es =>
    cases es with
    | nil => exact isRegular_pure ()
    | cons e es =>
      obtain ⟨he, hes⟩ := List.forall_mem_cons.mp hm
      have hrest (reported : Bool) : (perform (.elements line reported es)).IsRegular :=
        isRegular_perform hes
      exact .bind (isRegular_perform he) fun _ => isRegular_ite (hrest reported) <|
        isRegular_ite (.bind (isRegular_step _) fun _ => hrest true) (hrest true)
  | builtin b es l =>
    cases hm with
    | builtin _ he => exact isRegular_builtin he l
  | arguments es =>
    cases es with
    | nil => exact isRegular_pure true
    | cons e es =>
      obtain ⟨he, hes⟩ := List.forall_mem_cons.mp hm
      exact .bind (isRegular_perform he) fun _ => .bind (isRegular_perform hes) fun _ =>
        isRegular_pure _
  | rejection l => exact hm.elim
  | payload es =>
    cases es with
    | nil => exact isRegular_pure true
    | cons e es =>
      obtain ⟨he, hes⟩ := List.forall_mem_cons.mp hm
      exact .bind (isRegular_perform he) fun _ =>
        isRegular_ite (isRegular_pure false) (isRegular_perform hes)

/-- What a check comes to from a regular procedure is regular. -/
theorem ComesTo.isRegular (h : m.ComesTo s m' c) (hm : m.IsRegular) : m'.IsRegular := by
  induction h with
  | here => exact hm
  | call _ hc ih => exact ih.plan.of_calls hc

theorem IsRegular.not_isDefensive (hm : m.IsRegular) : ¬ m.IsDefensive := by
  intro h
  cases h with
  | command hn => cases hm <;> cases hn
  | operand hn => cases hm <;> cases hn
  | elseIf hn =>
    cases hm with
    | elseIf => exact hn _ _ _ _ rfl
  | counter hr =>
    cases hm with
    | forLoop => exact hr rfl
  | noRows =>
    cases hm with
    | matrix hne => exact hne rfl
  | noColumns =>
    cases hm with
    | matrix _ hrow => exact hrow [] List.mem_cons_self rfl
  | noArguments =>
    cases hm with
    | builtin hne => exact hne rfl
  | rejection => exact hm

end Procedure

end Regular

namespace Program

variable {α : Type} (s : Checker Scopes)

theorem comesTo_statement (n : Node) (l : Location) : ComesTo ⟨[n], l⟩ s (.statement n) s :=
  .call .here .here

theorem comesTo_expression (n : Node) (l : Location) :
    ComesTo ⟨[.expression n l], l⟩ s (.expression n) s :=
  .call (comesTo_statement s _ l) .here

theorem comesTo_matrix (rows : List (List Node)) (l : Location) :
    ComesTo ⟨[.expression (.matrix rows l) l], l⟩ s (.matrix rows l) s :=
  .call (comesTo_expression s (.matrix rows l) l) .here

theorem comesTo_builtin (b : Builtin) (es : List Node) (l : Location) :
    ComesTo ⟨[.expression (.builtin b es l) l], l⟩ s (.builtin b es l) s :=
  .call (comesTo_expression s (.builtin b es l) l) .here

theorem comesTo_rejection (l : Location) :
    ComesTo ⟨[.expression (.builtin .zeros [.integer (-1) l] l) l], l⟩ s (.rejection l) s := by
  refine .call (comesTo_builtin s .zeros [.integer (-1) l] l) ?_
  exact @Plan.Calls.call _ _ _ (.arguments [.integer (-1) l]) _ _ _ _ .here

/-- Some tree leads to each of the defensive procedures. -/
theorem exists_comesTo {m : Procedure α} (h : m.IsDefensive) :
    ∃ p c, Program.ComesTo p s m c := by
  cases h with
  | command => exact ⟨_, _, comesTo_expression s _ .start⟩
  | operand | elseIf | counter => exact ⟨_, _, comesTo_statement s _ .start⟩
  | noRows | noColumns => exact ⟨_, _, comesTo_matrix s _ _⟩
  | noArguments => exact ⟨_, _, comesTo_builtin s _ _ _⟩
  | rejection => exact ⟨_, _, comesTo_rejection s _⟩

/-- Whatever has been checked before, the check of the program of a text does what the plans of its
procedures say, and it comes to no defensive one: to no statement among operands, no operand among
statements, no `else if` without a conditional, no indexed loop variable, no matrix without rows or
columns, no builtin without arguments and no negative extent. Other trees lead to each of these. -/
theorem not_isDefensive_of_comesTo {cs : List Char} {p : Program} (h : ofText cs = .ok p) :
    s.program p = ((Procedure.statements p.statements).plan.run s).2 ∧
      (∀ {α : Type} (m : Procedure α) c, p.ComesTo s m c →
        m.check = m.plan.run ∧ ¬ m.IsDefensive) ∧
      ∀ {α : Type} (m : Procedure α), m.IsDefensive → ∃ q c, Program.ComesTo q s m c := by
  have hp := isStatement_of_ofText h
  refine ⟨?_, fun m c hc => ⟨m.check_eq, (hc.isRegular hp).not_isDefensive⟩,
    fun m => exists_comesTo s⟩
  rw [← Procedure.check_eq, Checker.program, Node.checkBlock]
  rfl

section Negated

def negatedText : List Char := "x = zeros(-1);".toList

def negatedTokens : List Token :=
  [⟨.name "x", ⟨1, 1⟩⟩, ⟨.symbol (.assign .plain), ⟨1, 3⟩⟩, ⟨.keyword (.builtin .zeros), ⟨1, 5⟩⟩,
    ⟨.symbol .leftParen, ⟨1, 10⟩⟩, ⟨.symbol (.binary (.plain .sub)), ⟨1, 11⟩⟩,
    ⟨.integer 1, ⟨1, 12⟩⟩, ⟨.symbol .rightParen, ⟨1, 13⟩⟩, ⟨.symbol .semicolon, ⟨1, 14⟩⟩,
    ⟨.endOfInput, ⟨1, 15⟩⟩]

def negatedArguments : List Node := [.unary .negate (.integer 1 ⟨1, 12⟩) ⟨1, 11⟩]

def negatedProgram : Program :=
  ⟨[.assignment ⟨"x", [], ⟨1, 1⟩⟩ .plain (.builtin .zeros negatedArguments ⟨1, 5⟩) ⟨1, 3⟩], ⟨1, 1⟩⟩

theorem ofText_negatedText : ofText negatedText = .ok negatedProgram := by
  have ht : (Scan.ofText negatedText).tokens = negatedTokens := by decide +kernel
  rw [ofText, ht]
  rfl

theorem not_isDefensive_negatedProgram :
    ofText negatedText = .ok negatedProgram ∧
      negatedProgram.ComesTo .initial (.builtin .zeros negatedArguments ⟨1, 5⟩) .initial ∧
      ¬ (Procedure.builtin .zeros negatedArguments ⟨1, 5⟩).IsDefensive ∧
      (∀ c, ¬ negatedProgram.ComesTo .initial (.rejection ⟨1, 5⟩) c) ∧
      ∃ q c, Program.ComesTo q .initial (.rejection ⟨1, 5⟩) c := by
  obtain ⟨-, hcomes, hothers⟩ := not_isDefensive_of_comesTo .initial ofText_negatedText
  have hbuiltin : negatedProgram.ComesTo .initial (.builtin .zeros negatedArguments ⟨1, 5⟩)
      .initial :=
    .call (.call (comesTo_statement _ _ _) .here) .here
  refine ⟨ofText_negatedText, hbuiltin, (hcomes _ _ hbuiltin).2, fun c hc => ?_,
    hothers _ .rejection⟩
  exact (hcomes _ c hc).2 .rejection

end Negated

end Program

end MatrixLang
