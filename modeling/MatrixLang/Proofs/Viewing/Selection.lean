import Mathlib.Data.Int.ModEq
import Mathlib.Data.List.Induction
import MatrixLang.Proofs.Viewing.Run

/-! # The selected problem

Which problem is selected is told by the steps alone, forward and backward around the ends of the
list. The status tells the selected problem from the first step on.
-/

namespace MatrixLang.Viewer

def steps (es : List Event) : List Bool := es.filterMap (·.step?)

/-- The position that steps lead to, as if the list had no ends. The first step forward leads from
nowhere to the first entry, and the first one backward to the last. -/
def position (ds : List Bool) : Int :=
  (ds.count true : Int) - ds.count false - if ds.head? = some true then 1 else 0

/-- The index that steps lead to in a list of `count` entries. -/
def selection (count : Nat) (ds : List Bool) : Option Nat :=
  if count = 0 ∨ ds = [] then none else some (position ds % count).toNat

/-- The status of a session with the problems `ps` after steps that have led to an index. -/
inductive Tells (ps : List Problem) : List Bool → Option Nat → String → Prop
  | initial : Tells ps [] none (Session.initialStatus ps.length)
  | nothing {ds} : ds ≠ [] → ps = [] → Tells ps ds none "No problems to show"
  | selected {ds i p} : ds ≠ [] → ps[i]? = some p →
      Tells ps ds (some i)
        (toString (i + 1) ++ "/" ++ toString ps.length ++ ": line " ++ toString p.line)

section Steps

variable {count : Nat} {ds : List Bool} {d : Bool}

theorem steps_append_singleton (es : List Event) (e : Event) :
    steps (es ++ [e]) = steps es ++ e.step?.toList := by
  rw [steps, List.filterMap_append, steps]
  cases h : e.step? <;> simp [h]

theorem position_append_singleton (h : ds ≠ []) (d : Bool) :
    position (ds ++ [d]) = position ds + if d then 1 else -1 := by
  have hhead : (ds ++ [d]).head? = ds.head? := by
    cases ds with
    | nil => exact absurd rfl h
    | cons => rfl
  unfold position
  rw [hhead, List.count_append, List.count_append]
  cases d <;> simp <;> omega

/-- From the index of a position a step leads to that of the next or the previous position. -/
theorem step_emod (hc : 0 < count) (d : Bool) (z : Int) :
    Session.step d count (some (z % count).toNat) = ((z + if d then 1 else -1) % count).toNat := by
  have hcast (y : Int) : ((y % count).toNat : Int) = y % count :=
    Int.toNat_of_nonneg (Int.emod_nonneg y (by omega))
  apply Int.ofNat.inj
  cases d with
  | true =>
    calc (((z % count).toNat + 1) % count : Nat) = ((z % count) + 1) % (count : Int) := by
          rw [Int.natCast_mod, Int.natCast_add, hcast]
          rfl
      _ = (z + 1) % count := Int.emod_add_emod ..
      _ = _ := (hcast _).symm
  | false =>
    have hsub : ((z % count).toNat + count - 1 : Nat) = (z % count) + -1 + (count : Int) := by
      have h := hcast z
      omega
    calc (((z % count).toNat + count - 1) % count : Nat) =
          ((z % count) + -1 + (count : Int)) % (count : Int) := by
          rw [Int.natCast_mod, hsub]
      _ = (z + -1) % count := by rw [Int.add_emod_right, Int.emod_add_emod]
      _ = _ := (hcast _).symm

/-- A step leads from the index of the steps before it to that of all steps. -/
theorem selection_append_singleton (hc : 0 < count) (d : Bool) :
    selection count (ds ++ [d]) = some (Session.step d count (selection count ds)) := by
  have hne : ¬ (count = 0 ∨ ds ++ [d] = []) := by simp; omega
  rw [selection, if_neg hne]
  by_cases hds : ds = []
  · subst hds
    cases d with
    | true => simp [selection, position, Session.step]
    | false =>
      have hlast : (-1 : Int) % count = (count - 1 : Nat) := by
        rw [← Int.add_emod_right, Int.emod_eq_of_lt] <;> omega
      simp [selection, position, Session.step, hlast]
  · rw [selection, if_neg (by simp [hds]; omega), step_emod hc, position_append_singleton hds]

example : selection 3 [false, true, true, true] = some 2 := by decide

end Steps

namespace Session

/-- What a session on the text `cs` shows after some events. -/
structure Reflects (cs : List Char) (es : List Event) (s : Session) : Prop where
  source : s.source = cs
  analysis : s.analysis = Analysis.ofText cs
  problems : s.problems = Problem.ofAnalysis s.analysis
  selected : s.selected? = selection s.problems.length (steps es)
  tells : Tells s.problems (steps es) s.selected? s.status

section Runs

variable {t : Terminal} {cs : List Char} {es : List Event} {s : Session}

theorem Reflects.select (h : Reflects cs es s) {e : Event} {forward : Bool}
    (he : e.step? = some forward) : Reflects cs (es ++ [e]) (s.select forward) := by
  have hsteps : steps (es ++ [e]) = steps es ++ [forward] := by
    rw [steps_append_singleton, he, Option.toList_some]
  rcases s.select_cases forward with ⟨hnone, hs⟩ | ⟨i, p, hi, hp, hs⟩
  · have hselected : s.selected? = none := by
      rw [h.selected, hnone]
      rfl
    rw [hs]
    constructor
    · exact h.source
    · exact h.analysis
    · exact h.problems
    · show s.selected? = _
      rw [hselected, hnone]
      rfl
    · show Tells s.problems _ s.selected? "No problems to show"
      rw [hselected]
      exact .nothing (by simp [hsteps]) hnone
  · have hcount : 0 < s.problems.length :=
      (List.getElem?_eq_some_iff.mp hp).elim fun hlt _ => Nat.zero_lt_of_lt hlt
    rw [hs]
    constructor
    · exact h.source
    · exact h.analysis
    · exact h.problems
    · show some i = _
      rw [hsteps, selection_append_singleton hcount, ← h.selected, hi]
    · exact .selected (by simp [hsteps]) hp

theorem Reflects.next (h : Reflects cs es s) (t : Terminal) (e : Event) :
    Reflects cs (es ++ [e]) (s.next t e) := by
  rcases s.next_cases t e with ⟨forward, he, -, hs⟩ | ⟨he, focus, offsets, quit, hs, -⟩
  · rw [hs]
    exact h.select he
  · have hsteps : steps (es ++ [e]) = steps es := by
      rw [steps_append_singleton, he, Option.toList_none, List.append_nil]
    rw [hs]
    constructor
    · exact h.source
    · exact h.analysis
    · exact h.problems
    · rw [hsteps]
      exact h.selected
    · rw [hsteps]
      exact h.tells

theorem reflects_run (t : Terminal) (cs : List Char) (es : List Event) :
    Reflects cs es (run t cs es) := by
  induction es using List.reverseRecOn with
  | nil =>
    constructor
    · rfl
    · rfl
    · rfl
    · simp [run, after, ofText, steps, selection]
    · exact .initial
  | append_singleton es e ih =>
    rw [run_append_singleton]
    exact ih.next t e

theorem Reflects.selected_lt (h : Reflects cs es s) {i : Nat} (hi : s.selected? = some i) :
    i < s.problems.length := by
  rw [h.selected, selection] at hi
  split at hi
  · cases hi
  · rename_i hne
    obtain rfl := Option.some.inj hi
    have hpos : (0 : Int) < s.problems.length := by omega
    have hlt := Int.emod_lt_of_pos (position (steps es)) hpos
    have hnonneg := Int.emod_nonneg (position (steps es)) hpos.ne'
    omega

theorem quit_next (t : Terminal) (s : Session) (e : Event) (h : s.quit = true) :
    (s.next t e).quit = true := by
  rcases s.next_cases t e with ⟨forward, -, -, hs⟩ | ⟨-, focus, offsets, quit, hs, hquit, -⟩
  · rcases s.select_cases forward with ⟨-, hselect⟩ | ⟨i, p, -, -, hselect⟩ <;>
      rw [hs, hselect] <;> exact h
  · rw [hs]
    exact hquit h

theorem quit_after (t : Terminal) (s : Session) (es : List Event) (h : s.quit = true) :
    (s.after t es).quit = true := by
  induction es generalizing s with
  | nil => exact h
  | cons e es ih => exact ih (s.next t e) (s.quit_next t e h)

theorem place_next (t : Terminal) (s : Session) (e : Event) :
    ((s.next t e).focus.place : Int) = (s.focus.place + e.turn) % 4 := by
  rcases s.next_cases t e with ⟨forward, -, hturn, hs⟩ | ⟨-, focus, offsets, quit, hs, -, -, hplace⟩
  · have hfocus : (s.select forward).focus = s.focus := by
      rcases s.select_cases forward with ⟨-, hselect⟩ | ⟨i, p, -, -, hselect⟩ <;> rw [hselect]
    rw [hs, hfocus, hturn]
    exact s.focus.place_emod
  · rw [hs]
    exact hplace

theorem place_run (t : Terminal) (cs : List Char) (es : List Event) :
    ((run t cs es).focus.place : Int) = (es.map (·.turn)).sum % 4 := by
  induction es using List.reverseRecOn with
  | nil => rfl
  | append_singleton es e ih =>
    rw [run_append_singleton, place_next, ih, List.map_append, List.sum_append, List.map_singleton,
      List.sum_singleton, Int.emod_add_emod]

/-- In every run the steps alone tell which problem is selected, and the status tells that problem.
The focus goes around the panes with the tabulators. An arrow up or down moves the focused pane by
one line and changes nothing else, and a session that was ended stays so. -/
theorem selected_run (t : Terminal) (cs : List Char) (es : List Event) :
    let s := run t cs es
    s.problems = Problem.ofAnalysis (Analysis.ofText cs) ∧
      s.selected? = selection s.problems.length (steps es) ∧
      (∀ i ∈ s.selected?, i < s.problems.length) ∧
      Tells s.problems (steps es) s.selected? s.status ∧
      (s.focus.place : Int) = (es.map (·.turn)).sum % 4 ∧
      (∀ k ∈ [Key.tab, .backTab], { s.press k with focus := s.focus } = s) ∧
      (∀ m ∈ [(Key.up, (· - 1)), (.down, (· + 1)), (.left, id), (.right, id)],
        { s.press m.1 with offsets := s.offsets } = s ∧
          (s.press m.1).offsets.source.followed = s.offsets.source.followed ∧
          ∀ p, (s.press m.1).offset p = if p = s.focus then m.2 (s.offset p) else s.offset p) ∧
      ∀ es', s.quit = true → (run t cs (es ++ es')).quit = true := by
  intro s
  have h := reflects_run t cs es
  split_ands
  · rw [h.problems, h.analysis]
  · exact h.selected
  · intro i hi
    exact h.selected_lt hi
  · exact h.tells
  · exact place_run t cs es
  · intro k hk
    simp only [List.mem_cons, List.not_mem_nil, or_false] at hk
    rcases hk with rfl | rfl <;> rfl
  · intro m hm
    simp only [List.mem_cons, List.not_mem_nil, or_false] at hm
    rcases hm with rfl | rfl | rfl | rfl
    · exact ⟨rfl, (s.scroll_cases _).2.1, (s.scroll_cases _).2.2⟩
    · exact ⟨rfl, (s.scroll_cases _).2.1, (s.scroll_cases _).2.2⟩
    · exact ⟨rfl, rfl, fun p => (ite_self _).symm⟩
    · exact ⟨rfl, rfl, fun p => (ite_self _).symm⟩
  · intro es' hquit
    rw [run, after, List.foldl_append]
    exact quit_after t _ es' hquit

end Runs

end Session

end MatrixLang.Viewer
