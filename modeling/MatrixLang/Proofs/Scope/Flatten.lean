import Mathlib.Data.List.Nodup
import MatrixLang.Typing.Scopes

/-! # Scopes are one flat table

The names of an enclosing table come first in every table inside it, in the same order. So closing
a block writes back what the enclosing table lacks and nothing else, and a stack of scopes answers
like the innermost table alone, on which opening and closing do nothing.
-/

namespace MatrixLang

namespace Table

/-- The bound names in the order in which they were first put. -/
def names (t : Table) : List String := t.bindings.map (·.name)

@[simp] theorem names_mk (bs : List Binding) : (⟨bs⟩ : Table).names = bs.map (·.name) := rfl

theorem map_name_putInto (b : Binding) (bs : List Binding) :
    (putInto b bs).map (·.name) =
      if b.name ∈ bs.map (·.name) then bs.map (·.name) else bs.map (·.name) ++ [b.name] := by
  induction bs with
  | nil => rfl
  | cons c cs ih =>
    by_cases hc : c.name = b.name
    · simp [putInto, hc]
    · have hc' : b.name ≠ c.name := fun h => hc h.symm
      simp only [putInto, hc, if_false, List.map_cons, ih, List.mem_cons, hc', false_or]
      split <;> rfl

theorem names_put (t : Table) (b : Binding) :
    (t.put b).names = if b.name ∈ t.names then t.names else t.names ++ [b.name] :=
  map_name_putInto b t.bindings

theorem nodup_names_put {t : Table} (h : t.names.Nodup) (b : Binding) :
    (t.put b).names.Nodup := by
  rw [names_put]
  split
  · exact h
  next hb => exact List.nodup_append.2 ⟨h, by simp, by rintro a ha _ (_ | ⟨_, ⟨⟩⟩) rfl; exact hb ha⟩

theorem names_prefix_put (t : Table) (b : Binding) : t.names <+: (t.put b).names := by
  rw [names_put]
  split
  · exact List.prefix_rfl
  · exact List.prefix_append _ _

theorem putInto_append {b : Binding} {bs : List Binding} (h : b.name ∉ bs.map (·.name))
    (cs : List Binding) : putInto b (bs ++ cs) = bs ++ putInto b cs := by
  induction bs with
  | nil => rfl
  | cons c bs ih =>
    simp only [List.map_cons, List.mem_cons, not_or] at h
    have hc : c.name ≠ b.name := fun he => h.1 he.symm
    simp [putInto, hc, ih h.2]

theorem foldl_put_append {bs cs ds : List Binding}
    (hp : cs.map (·.name) <+: ds.map (·.name)) (hn : ((bs ++ ds).map (·.name)).Nodup) :
    ds.foldl put ⟨bs ++ cs⟩ = ⟨bs ++ ds⟩ := by
  induction ds generalizing bs cs with
  | nil =>
    obtain rfl : cs = [] := by simpa using hp
    rfl
  | cons d ds ih =>
    have hd : d.name ∉ bs.map (·.name) := by
      simp only [List.map_append, List.map_cons] at hn
      intro h
      exact (List.nodup_append.1 hn).2.2 _ h _ List.mem_cons_self rfl
    have hn' : ((bs ++ [d] ++ ds).map (·.name)).Nodup := by simpa using hn
    rw [List.foldl_cons]
    cases cs with
    | nil =>
      have hput : put ⟨bs ++ []⟩ d = ⟨bs ++ [d] ++ []⟩ := by
        rw [put, putInto_append hd []]
        simp [putInto]
      rw [hput, ih (by simp) hn']
      simp
    | cons c cs =>
      simp only [List.map_cons, List.cons_prefix_cons] at hp
      have hput : put ⟨bs ++ c :: cs⟩ d = ⟨bs ++ [d] ++ cs⟩ := by
        simp [put, putInto_append hd, putInto, hp.1]
      rw [hput, ih hp.2 hn']
      simp

/-- A table whose names all come first in `u` is overwritten by `u`. -/
theorem putAll_eq {t u : Table} (hp : t.names <+: u.names) (hn : u.names.Nodup) :
    t.putAll u = u :=
  @foldl_put_append [] _ _ hp hn

theorem find?_eq_some_of_mem {t : Table} (hn : t.names.Nodup) {b : Binding}
    (hb : b ∈ t.bindings) : t.find? b.name = some b := by
  obtain ⟨bs⟩ := t
  induction bs with
  | nil => simp at hb
  | cons c cs ih =>
    simp only [names_mk, List.map_cons, List.nodup_cons] at hn
    simp only [find?, List.find?_cons]
    rcases List.mem_cons.mp hb with rfl | hb
    · simp
    · have hc : c.name ≠ b.name := fun h => hn.1 (h ▸ List.mem_map_of_mem hb)
      rw [beq_eq_false_iff_ne.2 hc]
      exact ih hn.2 hb

theorem filterMap_find?_names {t : Table} (h : t.names.Nodup) :
    t.names.filterMap t.find? = t.bindings := by
  rw [names, List.filterMap_map]
  calc t.bindings.filterMap (t.find? ∘ (·.name))
      = t.bindings.filterMap some :=
        List.filterMap_congr fun _ hb => find?_eq_some_of_mem h hb
    _ = t.bindings := List.filterMap_some

/-- A table is told by its names in order and by what it finds. -/
theorem eq_of_find? {t u : Table} (ht : t.names.Nodup) (hn : t.names = u.names)
    (hf : ∀ name, t.find? name = u.find? name) : t = u := by
  have hb : t.bindings = u.bindings := by
    rw [← filterMap_find?_names ht, ← filterMap_find?_names (hn ▸ ht), hn, funext hf]
  exact congrArg Table.mk hb

theorem find?_eq_none {t : Table} {name : String} (h : name ∉ t.names) : t.find? name = none := by
  refine List.find?_eq_none.2 fun b hb => ?_
  rw [beq_iff_eq]
  exact fun he => h (he ▸ List.mem_map_of_mem hb)

section History

/-- The last of some bindings that binds `name`. -/
def latest? (bs : List Binding) (name : String) : Option Binding :=
  bs.reverse.find? (·.name == name)

theorem find?_foldl_put (bs : List Binding) (t : Table) (name : String) :
    (bs.foldl put t).find? name = (latest? bs name).or (t.find? name) := by
  induction bs generalizing t with
  | nil => rfl
  | cons b bs ih =>
    rw [List.foldl_cons, ih, find?_put]
    simp only [latest?, List.reverse_cons, List.find?_append, List.find?_singleton, beq_iff_eq,
      Option.or_assoc]
    split <;> rfl

theorem names_foldl_put (bs : List Binding) (t : Table) :
    (bs.foldl put t).names =
      t.names ++ ((bs.map (·.name)).filter (· ∉ t.names)).eraseDups := by
  induction bs generalizing t with
  | nil => simp
  | cons b bs ih =>
    rw [List.foldl_cons, ih, names_put]
    by_cases hb : b.name ∈ t.names
    · simp [hb]
    · have hf : (bs.map (·.name)).filter (· ∉ t.names ++ [b.name]) =
          ((bs.map (·.name)).filter (· ∉ t.names)).filter (fun name => !name == b.name) := by
        rw [List.filter_filter]
        exact List.filter_congr fun name _ => by
          by_cases h : name ∈ t.names <;> by_cases h' : name = b.name <;> simp [h, h']
      simp only [if_neg hb, hf, List.map_cons, List.filter_cons_of_pos (p := (· ∉ t.names))
        (by simpa using hb), List.eraseDups_cons, List.append_assoc, List.singleton_append]

end History

end Table

namespace Scopes

/-- A stack of scopes with the innermost table `t`, such that the names of every enclosing table
come first in the tables inside it. -/
structure Flattens (s : Scopes) (t : Table) : Prop where
  innermost : s.innermost = t
  nodup : t.names.Nodup
  nested : (t :: s.enclosing).Pairwise fun u v => v.names <+: u.names

variable {s : Scopes} {t : Table}

theorem flattens_empty : Flattens .empty .empty :=
  ⟨rfl, List.nodup_nil, List.pairwise_singleton _ _⟩

theorem Flattens.find? (h : s.Flattens t) (name : String) : s.find? name = t.find? name := by
  rw [Scopes.find?, h.innermost]

theorem Flattens.put (h : s.Flattens t) (b : Binding) : (s.put b).Flattens (t.put b) where
  innermost := by rw [Scopes.put, h.innermost]
  nodup := Table.nodup_names_put h.nodup b
  nested := by
    obtain ⟨ho, hn⟩ := List.pairwise_cons.1 h.nested
    exact List.pairwise_cons.2 ⟨fun u hu => (ho u hu).trans (Table.names_prefix_put t b), hn⟩

theorem Flattens.push (h : s.Flattens t) : s.push.Flattens t where
  innermost := h.innermost
  nodup := h.nodup
  nested := by
    obtain ⟨ho, _⟩ := List.pairwise_cons.1 h.nested
    rw [Scopes.push, h.innermost]
    refine List.pairwise_cons.2 ⟨fun u hu => ?_, h.nested⟩
    rcases List.mem_cons.mp hu with rfl | hu
    · exact List.prefix_rfl
    · exact ho u hu

theorem Flattens.pop (h : s.Flattens t) : s.pop.Flattens t := by
  obtain ⟨v, us⟩ := s
  obtain rfl : v = t := h.innermost
  cases us with
  | nil => exact h
  | cons u us =>
    have hu : u.names <+: v.names := (List.pairwise_cons.1 h.nested).1 u List.mem_cons_self
    exact ⟨Table.putAll_eq hu h.nodup, h.nodup,
      h.nested.sublist ((List.sublist_cons_self u us).cons_cons v)⟩

theorem closeAll_eq {us : List Table} (hn : t.names.Nodup)
    (h : ∀ u ∈ us, u.names <+: t.names) : closeAll t us = t := by
  induction us with
  | nil => rfl
  | cons u us ih =>
    rw [closeAll, Table.putAll_eq (h u List.mem_cons_self) hn]
    exact ih fun w hw => h w (List.mem_cons_of_mem u hw)

theorem Flattens.toTable (h : s.Flattens t) : s.toTable = t := by
  rw [Scopes.toTable, h.innermost]
  exact closeAll_eq h.nodup (List.pairwise_cons.1 h.nested).1

@[simp] theorem depth_push (s : Scopes) : s.push.depth = s.depth + 1 := rfl

theorem depth_pop (s : Scopes) : s.pop.depth = max (s.depth - 1) 1 := by
  obtain ⟨v, us⟩ := s
  cases us <;> simp [pop, depth]

end Scopes

/-- A step of a client of scopes. -/
inductive ScopeStep where
  | put (b : Binding)
  | push
  | pop
  | get (name : String)

namespace ScopeStep

variable {ε : Type} [Environment ε]

def next (s : ε) : ScopeStep → ε
  | .put b => Environment.put s b
  | .push => Environment.enter s
  | .pop => Environment.leave s
  | .get _ => s

def run (s : ε) (steps : List ScopeStep) : ε := steps.foldl next s

/-- What the gets of a run answer, in order. -/
def answers (s : ε) : List ScopeStep → List (Option Binding)
  | [] => []
  | .get name :: steps => Environment.find? s name :: answers s steps
  | step :: steps => answers (step.next s) steps

/-- The bindings that a run puts, in order. -/
def puts (steps : List ScopeStep) : List Binding :=
  steps.filterMap fun
    | .put b => some b
    | _ => none

variable {s : Scopes} {t : Table}

theorem flattens_next (h : s.Flattens t) : ∀ step : ScopeStep, (step.next s).Flattens (step.next t)
  | .put b => h.put b
  | .push => h.push
  | .pop => h.pop
  | .get _ => h

theorem flattens_run (h : s.Flattens t) (steps : List ScopeStep) :
    (run s steps).Flattens (run t steps) := by
  induction steps generalizing s t with
  | nil => exact h
  | cons step steps ih => exact ih (flattens_next h step)

theorem answers_eq (h : s.Flattens t) (steps : List ScopeStep) :
    answers s steps = answers t steps := by
  induction steps generalizing s t with
  | nil => rfl
  | cons step steps ih =>
    cases step with
    | get name => exact congrArg₂ List.cons (h.find? name) (ih h)
    | put b => exact ih (h.put b)
    | push => exact ih h.push
    | pop => exact ih h.pop

theorem run_table (t : Table) (steps : List ScopeStep) :
    run t steps = (puts steps).foldl Table.put t := by
  induction steps generalizing t with
  | nil => rfl
  | cons step steps ih => cases step <;> exact ih _

end ScopeStep

end MatrixLang
