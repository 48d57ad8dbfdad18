import MatrixLang.Proofs.Descent.Rank
import MatrixLang.Proofs.Syntax.Program

/-! # Calls of the grammar rules

The scripts tell which rules are called, and in front of which tokens. A call is in front of fewer
tokens than the calling rule began with, or of the same ones and of lower rank, so that calls open
inside each other are at most as many as the depth that a rule is given.
-/

namespace MatrixLang

open Phrase (Inner inner_append_iff inner_cons_iff inner_nil)

section Leaves

/-- The tokens `us` are left of `ts` behind others, none of which ends the input, and behind at
least one if `moved`. -/
def Leaves (moved : Bool) (ts us : List Token) : Prop :=
  ∃ ps, ts = ps ++ us ∧ Inner ps ∧ (moved = true → ps ≠ [])

variable {moved moved' : Bool} {ts us vs : List Token}

theorem Leaves.refl (ts : List Token) : Leaves false ts ts := ⟨[], rfl, inner_nil, nofun⟩

theorem Leaves.trans (h : Leaves moved ts us) (h' : Leaves moved' us vs) :
    Leaves (moved || moved') ts vs := by
  obtain ⟨ps, rfl, hp, hm⟩ := h
  obtain ⟨qs, rfl, hq, hm'⟩ := h'
  refine ⟨ps ++ qs, (List.append_assoc ..).symm, inner_append_iff.mpr ⟨hp, hq⟩, fun hor => ?_⟩
  rw [ne_eq, List.append_eq_nil_iff, not_and_or]
  exact ((Bool.or_eq_true ..).mp hor).imp hm hm'

theorem Leaves.mono (h : Leaves moved ts us) (hm : moved' = true → moved = true) :
    Leaves moved' ts us := by
  obtain ⟨ps, hts, hp, hne⟩ := h
  exact ⟨ps, hts, hp, hne ∘ hm⟩

theorem Leaves.suffix (h : Leaves moved ts us) : us <:+ ts := by
  obtain ⟨ps, rfl, _⟩ := h
  exact List.suffix_append ps us

theorem Leaves.length_lt (h : Leaves true ts us) : us.length < ts.length := by
  obtain ⟨ps, rfl, _, hne⟩ := h
  have hpos := List.length_pos_of_ne_nil (hne rfl)
  rw [List.length_append]
  omega

theorem Leaves.drop_one (h : Leaves moved ts us) (hk : (Token.head us).kind ≠ .endOfInput) :
    Leaves true ts (us.drop 1) := by
  have hfirst : Leaves true us (us.drop 1) :=
    ⟨[Token.head us], Token.eq_head_cons hk, by simpa using hk, fun _ => List.cons_ne_nil _ _⟩
  simpa using h.trans hfirst

end Leaves

/-- What a rule leaves of the tokens `ts`, with a value or where it stops. -/
def Outcome.Within {α : Type} (moved : Bool) (ts : List Token) : Outcome α → Prop
  | .ok _ rest => Leaves moved ts rest
  | .error _ rest => Leaves false ts rest
  | .exhausted => True

namespace Nonterminal

variable {α β : Type}

/-- A rule is called in front of tokens that are left of `ts`, with a rank below `r` if these are
all of them. -/
def Below (r : Nat) (ts : List Token) (m : Nonterminal β) (us : List Token) : Prop :=
  Leaves false ts us ∧ (us.length < ts.length ∨ us = ts ∧ m.rank < r)

/-- A depth that the rule does not exhaust. -/
def weight (m : Nonterminal α) (ts : List Token) : Nat := Grammar.rank * ts.length + m.rank

theorem weight_le_depthFor (m : Nonterminal α) (ts : List Token) :
    m.weight ts ≤ Grammar.depthFor ts.length := by
  have := m.rank_lt
  unfold weight Grammar.depthFor
  rw [Nat.mul_succ]
  omega

theorem Below.weight_lt {m : Nonterminal α} {m' : Nonterminal β} {ts us : List Token}
    (h : m'.Below m.rank ts us) : m'.weight us < m.weight ts := by
  have hpos := m.rank_pos
  have hlt := m'.rank_lt
  unfold weight
  rcases h.2 with hlen | ⟨rfl, hrank⟩
  · have hmul := Nat.mul_le_mul_left Grammar.rank (Nat.succ_le_of_lt hlen)
    rw [Nat.mul_succ] at hmul
    omega
  · omega

/-- What holds of a rule if it holds of all that it may call holds of every rule. -/
theorem below_induction {P : {α : Type} → Nonterminal α → List Token → Prop}
    (step : ∀ {α} (m : Nonterminal α) ts,
      (∀ {β} (m' : Nonterminal β) us, m'.Below m.rank ts us → P m' us) → P m ts)
    (m : Nonterminal α) (ts : List Token) : P m ts := by
  induction hn : m.weight ts using Nat.strongRecOn generalizing α m ts with
  | _ n ih =>
    subst hn
    exact step m ts fun m' us h => ih _ h.weight_lt m' us rfl

end Nonterminal

namespace Script

section Reaches

/-- The script comes to stand in front of other tokens, with the rest of it to do. -/
inductive Reaches (f : {β : Type} → Nonterminal β → Rule β) (start : List Token) {α : Type} :
    Script α → List Token → Script α → List Token → Prop
  | here {p ts} : Reaches f start p ts p ts
  | look {next ts q us} : Reaches f start (next (Token.head ts)) ts q us →
      Reaches f start (look next) ts q us
  | lookPast {next ts q us} : Reaches f start (next (decide (CommaContinues ts))) ts q us →
      Reaches f start (lookPast next) ts q us
  | pass {next ts q us} : Reaches f start next (ts.drop 1) q us →
      Reaches f start (pass next) ts q us
  | restart {next ts q us} : Reaches f start next start q us →
      Reaches f start (restart next) ts q us
  | call {β} {m : Nonterminal β} {next ts a rest q us} : f m ts = .ok a rest →
      Reaches f start (next a) rest q us → Reaches f start (call m next) ts q us

/-- How a run ends that has come to the script: it is done or stops, or it calls a rule that does
not give a value. -/
inductive Ends (f : {β : Type} → Nonterminal β → Rule β) {α : Type} :
    Script α → List Token → Outcome α → Prop
  | done {a ts} : Ends f (done a) ts (.ok a ts)
  | stop {x ts} : Ends f (stop x) ts (.error x ts)
  | error {β} {m : Nonterminal β} {next ts x rest} : f m ts = .error x rest →
      Ends f (call m next) ts (.error x rest)
  | exhausted {β} {m : Nonterminal β} {next ts} : f m ts = .exhausted →
      Ends f (call m next) ts .exhausted

variable {α : Type} {f g : {β : Type} → Nonterminal β → Rule β} {start ts us rest : List Token}
  {p q : Script α}

theorem exists_reaches_ends (f : {β : Type} → Nonterminal β → Rule β) (start : List Token)
    (p : Script α) (ts : List Token) :
    ∃ q us, Reaches f start p ts q us ∧ Ends f q us (p.run f start ts) := by
  induction p generalizing ts with
  | done a => exact ⟨_, ts, .here, .done⟩
  | stop x => exact ⟨_, ts, .here, .stop⟩
  | look next ih =>
    obtain ⟨q, us, hr, he⟩ := ih (Token.head ts) ts
    exact ⟨q, us, .look hr, he⟩
  | lookPast next ih =>
    obtain ⟨q, us, hr, he⟩ := ih (decide (CommaContinues ts)) ts
    exact ⟨q, us, .lookPast hr, he⟩
  | pass next ih =>
    obtain ⟨q, us, hr, he⟩ := ih (ts.drop 1)
    exact ⟨q, us, .pass hr, he⟩
  | restart next ih =>
    obtain ⟨q, us, hr, he⟩ := ih start
    exact ⟨q, us, .restart hr, he⟩
  | call m next ih =>
    rw [run]
    cases hm : f m ts with
    | ok a rest =>
      obtain ⟨q, us, hr, he⟩ := ih a rest
      exact ⟨q, us, .call hm hr, he⟩
    | error x rest => exact ⟨_, ts, .here, .error hm⟩
    | exhausted => exact ⟨_, ts, .here, .exhausted hm⟩

theorem run_congr (h : ∀ {β} {m : Nonterminal β} {next us},
      Reaches f start p ts (call m next) us → f m us = g m us) :
    p.run f start ts = p.run g start ts := by
  induction p generalizing ts with
  | done a => rfl
  | stop x => rfl
  | look next ih => exact ih _ fun hr => h (.look hr)
  | lookPast next ih => exact ih _ fun hr => h (.lookPast hr)
  | pass next ih => exact ih fun hr => h (.pass hr)
  | restart next ih => exact ih fun hr => h (.restart hr)
  | call m next ih =>
    rw [run, run, ← h .here]
    cases hm : f m ts with
    | ok a rest => exact ih a fun hr => h (.call hm hr)
    | error x rest => rfl
    | exhausted => rfl

end Reaches

section Holds

def Holds (r : Nat) (must : Bool) (start : List Token) {α : Type} (p : Script α)
    (ts : List Token) : Prop :=
  ∃ moved front?, p.Descends r must moved front? ∧ Leaves moved start ts ∧
    ∀ k ∈ front?, (Token.head ts).kind = k

variable {α β : Type} {r : Nat} {must : Bool} {start ts us : List Token} {p q : Script α}
  {f : {β : Type} → Nonterminal β → Rule β}

theorem Holds.leaves (h : Holds r must start p ts) : Leaves false start ts := by
  obtain ⟨_, _, _, hl, _⟩ := h
  exact hl.mono nofun

theorem Holds.below {m : Nonterminal β} {next : β → Script α}
    (h : Holds r must start (call m next) ts) : m.Below r start ts := by
  refine ⟨h.leaves, ?_⟩
  obtain ⟨moved, _, ⟨hrank, _⟩, hl, _⟩ := h
  cases moved with
  | true => exact .inl hl.length_lt
  | false =>
    rcases Nat.lt_or_eq_of_le hl.suffix.length_le with hlt | heq
    · exact .inl hlt
    · exact .inr ⟨hl.suffix.eq_of_length heq, hrank rfl⟩

/-- What a script comes to is left of the same script, if the rules that it calls pass tokens as
they should. -/
theorem Reaches.holds (hf : ∀ {β} (m : Nonterminal β) us, m.Below r start us →
      (f m us).Within m.advances us)
    (h : Reaches f start p ts q us) (hp : Holds r must start p ts) : Holds r must start q us := by
  induction h with
  | here => exact hp
  | look _ ih =>
    obtain ⟨moved, front?, hd, hl, _⟩ := hp
    exact ih ⟨moved, _, hd _, hl, fun k hk => Option.some.inj hk⟩
  | @lookPast next ts q us _ ih =>
    obtain ⟨moved, front?, ⟨hcomma, hother⟩, hl, hk⟩ := hp
    by_cases hc : CommaContinues ts
    · rw [decide_eq_true hc] at ih
      exact ih ⟨moved, _, hcomma, hl, fun k hk => hc.1.trans (Option.some.inj hk)⟩
    · rw [decide_eq_false hc] at ih
      exact ih ⟨moved, front?, hother, hl, hk⟩
  | pass _ ih =>
    obtain ⟨moved, front?, ⟨⟨k, hmem, hne⟩, hd⟩, hl, hk⟩ := hp
    exact ih ⟨true, none, hd, hl.drop_one (hk k hmem ▸ hne), nofun⟩
  | restart _ ih =>
    obtain ⟨_, _, hd, _⟩ := hp
    exact ih ⟨false, none, hd, .refl start, nofun⟩
  | @call β m next ts a rest q us hm _ ih =>
    have hwithin := hf m ts hp.below
    rw [hm] at hwithin
    obtain ⟨moved, _, ⟨_, hd⟩, hl, _⟩ := hp
    exact ih ⟨moved || m.advances, none, hd a, hl.trans hwithin, nofun⟩

theorem Holds.within_run (hf : ∀ {β} (m : Nonterminal β) us, m.Below r start us →
      (f m us).Within m.advances us)
    (hp : Holds r must start p ts) : (p.run f start ts).Within must start := by
  obtain ⟨q, us, hr, he⟩ := exists_reaches_ends f start p ts
  have hq := hr.holds hf hp
  generalize p.run f start ts = o at he
  cases he with
  | done =>
    obtain ⟨moved, _, hd, hl, _⟩ := hq
    exact hl.mono hd
  | stop => exact hq.leaves
  | @error _ m next _ x rest hm =>
    have hwithin := hf m us hq.below
    rw [hm] at hwithin
    exact hq.leaves.trans hwithin
  | exhausted => trivial

end Holds

end Script

namespace Nonterminal

variable {α β : Type}

theorem holds_script (m : Nonterminal α) (ts : List Token) :
    m.script.Holds m.rank m.advances ts ts :=
  ⟨false, none, Script.descends_script m, .refl ts, nofun⟩

theorem rule_zero (m : Nonterminal α) (ts : List Token) :
    m.cost = 0 ∨ m.cost = 1 ∧ m.rule 0 ts = .exhausted := by
  cases m <;> first | exact .inl rfl | exact .inr ⟨rfl, rfl⟩

theorem rule_cases (d : Nat) (m : Nonterminal α) (ts : List Token) :
    d = 0 ∧ m.rule d ts = .exhausted ∨
      ∃ d', d ≤ d' + 1 ∧ m.rule d ts = m.script.run (rule d') ts ts := by
  rcases m.rule_zero ts with hc | ⟨hc, hz⟩
  · have heq := m.rule_eq d ts
    rw [hc] at heq
    exact .inr ⟨d, Nat.le_succ d, heq⟩
  · cases d with
    | zero => exact .inl ⟨rfl, hz⟩
    | succ d =>
      have heq := m.rule_eq d ts
      rw [hc] at heq
      exact .inr ⟨d, Nat.le_refl _, heq⟩

/-- A rule passes no end of the input, and some token if it has to. -/
theorem within_rule (m : Nonterminal α) (ts : List Token) :
    ∀ d, (m.rule d ts).Within m.advances ts := by
  refine below_induction (P := fun m ts => ∀ d, (m.rule d ts).Within m.advances ts) ?_ m ts
  intro α m ts ih d
  rcases m.rule_cases d ts with ⟨_, heq⟩ | ⟨d', _, heq⟩
  · rw [heq]
    trivial
  · rw [heq]
    exact (m.holds_script ts).within_run fun m' us h => ih m' us h d'

def read (m : Nonterminal α) : Rule α := fun ts => m.rule (Grammar.depthFor ts.length) ts

theorem within_read (m : Nonterminal α) (ts : List Token) : (m.read ts).Within m.advances ts :=
  m.within_rule ts _

/-- At a depth that suffices for the rule its script is run at one that suffices for the calls. -/
theorem exists_run_eq {d : Nat} {m : Nonterminal α} {ts : List Token} (h : m.weight ts ≤ d) :
    ∃ d', m.rule d ts = m.script.run (rule d') ts ts ∧
      ∀ {β} (m' : Nonterminal β) us, m'.Below m.rank ts us → m'.weight us ≤ d' := by
  have hpos := m.rank_pos
  have hw : m.rank ≤ m.weight ts := Nat.le_add_left _ _
  rcases m.rule_cases d ts with ⟨rfl, _⟩ | ⟨d', hd, heq⟩
  · omega
  · refine ⟨d', heq, fun m' us hbelow => ?_⟩
    have hlt := hbelow.weight_lt
    omega

/-- A greater depth changes nothing. -/
theorem rule_eq_rule (m : Nonterminal α) (ts : List Token) :
    ∀ d e, m.weight ts ≤ d → m.weight ts ≤ e → m.rule d ts = m.rule e ts := by
  refine below_induction
    (P := fun m ts => ∀ d e, m.weight ts ≤ d → m.weight ts ≤ e → m.rule d ts = m.rule e ts) ?_ m ts
  intro α m ts ih d e hd he
  obtain ⟨d', heq, hd'⟩ := exists_run_eq hd
  obtain ⟨e', heq', he'⟩ := exists_run_eq he
  rw [heq, heq']
  refine Script.run_congr fun {β m' next us} hr => ?_
  have hbelow := (hr.holds (fun m us _ => m.within_rule us d') (m.holds_script ts)).below
  exact ih m' us hbelow d' e' (hd' m' us hbelow) (he' m' us hbelow)

theorem rule_eq_read {d : Nat} {m : Nonterminal α} {ts : List Token} (h : m.weight ts ≤ d) :
    m.rule d ts = m.read ts :=
  m.rule_eq_rule ts d _ h (m.weight_le_depthFor ts)

/-- The rules do what their scripts say. -/
theorem read_eq (m : Nonterminal α) (ts : List Token) : m.read ts = m.script.run read ts ts := by
  obtain ⟨d, heq, hd⟩ := exists_run_eq (m.weight_le_depthFor ts)
  rw [read, heq]
  refine Script.run_congr fun {β m' next us} hr => ?_
  have hbelow := (hr.holds (fun m us _ => m.within_rule us d) (m.holds_script ts)).below
  exact rule_eq_read (hd m' us hbelow)

section Calls

/-- The rule `m` in front of `ts` calls the rule `m'` in front of `us`. -/
def Calls (m : Nonterminal α) (ts : List Token) (m' : Nonterminal β) (us : List Token) : Prop :=
  ∃ next, Script.Reaches read ts m.script ts (.call m' next) us

/-- So many calls are open inside each other. -/
inductive Nests : {α : Type} → Nonterminal α → List Token → Nat → Prop
  | none {α : Type} {m : Nonterminal α} {ts} : Nests m ts 0
  | call {α β : Type} {m : Nonterminal α} {m' : Nonterminal β} {ts us n} : m.Calls ts m' us →
      Nests m' us n → Nests m ts (n + 1)

/-- The rule `m'` goes on with the loop of the rule `m`. -/
inductive Repeats : {α β : Type} → Nonterminal α → Nonterminal β → Prop
  | operators {l e e'} : Repeats (chainRest l e) (chainRest l e')
  | transposes {e e'} : Repeats (transposes e) (transposes e')
  | indices : Repeats expressions expressions
  | rows : Repeats matrixRows matrixRows
  | values : Repeats values values
  | statements {braced} : Repeats (statements braced) (statements braced)

/-- A rule or one that it calls comes to stand in front of other tokens. -/
inductive Visits : {α : Type} → Nonterminal α → List Token → List Token → Prop
  | own {α : Type} {m : Nonterminal α} {ts p us} : Script.Reaches read ts m.script ts p us →
      Visits m ts us
  | call {α β : Type} {m : Nonterminal α} {m' : Nonterminal β} {ts us vs} : m.Calls ts m' us →
      Visits m' us vs → Visits m ts vs

variable {m : Nonterminal α} {m' : Nonterminal β} {ts us : List Token} {n : Nat}

theorem holds_of_reaches {p : Script α} (h : Script.Reaches read ts m.script ts p us) :
    p.Holds m.rank m.advances ts us :=
  h.holds (fun m us _ => m.within_read us) (m.holds_script ts)

theorem Calls.below (h : m.Calls ts m' us) : m'.Below m.rank ts us := by
  obtain ⟨next, hr⟩ := h
  exact (holds_of_reaches hr).below

theorem Visits.leaves (h : m.Visits ts us) : Leaves false ts us := by
  induction h with
  | own hr => exact (holds_of_reaches hr).leaves
  | call hc _ ih => exact hc.below.1.trans ih

theorem Nests.lt_weight (h : m.Nests ts n) : n < m.weight ts := by
  induction h with
  | @none _ m ts => exact Nat.lt_of_lt_of_le m.rank_pos (Nat.le_add_left _ _)
  | call hc _ ih =>
    have hlt := hc.below.weight_lt
    omega

theorem Repeats.rank_eq (h : m.Repeats m') : m'.rank = m.rank := by
  cases h <;> rfl

theorem read_ne_exhausted (m : Nonterminal α) (ts : List Token) : m.read ts ≠ .exhausted := by
  refine below_induction (P := fun m ts => m.read ts ≠ .exhausted) ?_ m ts
  intro α m ts ih h
  obtain ⟨q, us, hr, he⟩ := Script.exists_reaches_ends read ts m.script ts
  rw [← read_eq, h] at he
  cases he with
  | @exhausted _ m' next _ hm => exact ih m' us (Calls.below ⟨next, hr⟩) hm

/-- Recursive descent ends. A rule that gives a value has passed tokens, at least one if it
advances, as those for statements, blocks, expressions and primaries do. The calls of its script are
in front of fewer tokens than it began with, or of the same ones and of lower rank, and a loop goes
on in front of fewer tokens. So calls are open inside each other only up to a depth that is linear
in the number of tokens, and there no rule is exhausted. -/
theorem descends (m : Nonterminal α) (ts : List Token) :
    (∀ d, m.rule (d + m.cost) ts = m.script.run (rule d) ts ts) ∧
    (∀ d a rest, m.rule d ts = .ok a rest →
      rest <:+ ts ∧ (m.advances = true → rest.length < ts.length)) ∧
    (∀ {β : Type} (m' : Nonterminal β) us, m.Calls ts m' us →
      us <:+ ts ∧ (us.length < ts.length ∨ us = ts ∧ m'.rank < m.rank) ∧
        (m.Repeats m' → us.length < ts.length)) ∧
    (∀ n, m.Nests ts n → n < Grammar.rank * (ts.length + 1)) ∧
    ∀ d, Grammar.depthFor ts.length ≤ d → m.rule d ts = m.read ts ∧ m.rule d ts ≠ .exhausted := by
  refine ⟨fun d => m.rule_eq d ts, fun d a rest h => ?_, fun m' us h => ?_,
    fun n h => Nat.lt_of_lt_of_le h.lt_weight (m.weight_le_depthFor ts), fun d h => ?_⟩
  · have hwithin := m.within_rule ts d
    rw [h] at hwithin
    refine ⟨Leaves.suffix hwithin, fun hm => ?_⟩
    exact Leaves.length_lt (hwithin.mono fun _ => hm)
  · refine ⟨h.below.1.suffix, h.below.2, fun hloop => ?_⟩
    rcases h.below.2 with hlt | ⟨_, hrank⟩
    · exact hlt
    · exact absurd hloop.rank_eq (Nat.ne_of_lt hrank)
  · have heq : m.rule d ts = m.read ts := rule_eq_read (Nat.le_trans (m.weight_le_depthFor ts) h)
    exact ⟨heq, heq ▸ m.read_ne_exhausted ts⟩

/-- The tokens of `a + 1;`, which start with a variable but not with an assignment. -/
def sumTokens : List Token :=
  [Phrase.tokenAt (.name "a") 1, Phrase.tokenAt (.symbol (.binary (.plain .add))) 3,
    Phrase.tokenAt (.integer 1) 5, Phrase.tokenAt (.symbol .semicolon) 6]

def sumStatement : Node :=
  .expression (.binary (.plain .add) (.reference ⟨"a", [], ⟨1, 1⟩⟩) (.integer 1 ⟨1, 5⟩) ⟨1, 3⟩)
    ⟨1, 1⟩

theorem calls_sumTokens : assignmentOrExpression.Calls sumTokens expressionStatement sumTokens := by
  have href : reference.read sumTokens = .ok ⟨"a", [], ⟨1, 1⟩⟩ (sumTokens.drop 1) := rfl
  exact ⟨_, .call href (.look (.restart .here))⟩

/-- The statement is read again from its first token, by a rule of lower rank. -/
theorem descends_sumTokens :
    statement.rule (Grammar.depthFor 4) sumTokens = .ok sumStatement [] ∧
      ([] : List Token).length < sumTokens.length ∧
      assignmentOrExpression.Calls sumTokens expressionStatement sumTokens ∧
      expressionStatement.rank < assignmentOrExpression.rank := by
  have hread : statement.rule (Grammar.depthFor 4) sumTokens = .ok sumStatement [] := rfl
  obtain ⟨-, hpasses, -⟩ := descends statement sumTokens
  obtain ⟨-, -, hcalls, -⟩ := descends assignmentOrExpression sumTokens
  obtain ⟨-, hlower, -⟩ := hcalls expressionStatement sumTokens calls_sumTokens
  have hrank := hlower.resolve_left (Nat.lt_irrefl _)
  exact ⟨hread, (hpasses _ _ _ hread).2 rfl, calls_sumTokens, hrank.2⟩

end Calls

end Nonterminal

end MatrixLang
