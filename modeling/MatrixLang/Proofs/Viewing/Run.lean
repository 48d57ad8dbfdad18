import MatrixLang.Viewer.Session

/-! # Runs of viewing sessions

Keys and draws come in any order. A key steps to another problem, or it leaves the selection alone
like a draw; no event changes the text with its analysis and its problems.
-/

namespace MatrixLang.Viewer

inductive Event where
  | press (k : Key)
  | draw (width height : Nat)
  deriving DecidableEq, Repr

/-- Whether an event steps through the problems, and if so whether it steps forward. -/
def Event.step? : Event → Option Bool
  | .press (.char c) => if c = 'n' then some true else if c = 'p' then some false else none
  | _ => none

def Event.isDraw : Event → Bool
  | .draw .. => true
  | .press _ => false

/-- How many panes an event moves the focus on. -/
def Event.turn : Event → Int
  | .press .tab => 1
  | .press .backTab => -1
  | _ => 0

def Pane.place : Pane → Nat
  | .source => 0
  | .problems => 1
  | .tree => 2
  | .bindings => 3

namespace Pane

theorem place_emod (p : Pane) : (p.place : Int) = (p.place + 0) % 4 := by cases p <;> rfl

theorem place_next (p : Pane) : (p.next.place : Int) = (p.place + 1) % 4 := by cases p <;> rfl

theorem place_previous (p : Pane) : (p.previous.place : Int) = (p.place + -1) % 4 := by
  cases p <;> rfl

end Pane

namespace Session

/-- The session after an event. -/
def next (t : Terminal) (s : Session) : Event → Session
  | .press k => s.press k
  | .draw width height => (s.drawOn t width height).2

def after (t : Terminal) (s : Session) (es : List Event) : Session := es.foldl (next t) s

/-- A session on a text after some events. -/
def run (t : Terminal) (cs : List Char) (es : List Event) : Session := (ofText cs).after t es

/-- The offset of a pane. -/
def offset (s : Session) : Pane → Nat
  | .source => s.offsets.source.offset
  | .problems => s.offsets.problems
  | .tree => s.offsets.tree
  | .bindings => s.offsets.bindings

theorem run_append_singleton (t : Terminal) (cs : List Char) (es : List Event) (e : Event) :
    run t cs (es ++ [e]) = (run t cs es).next t e :=
  List.foldl_append

theorem step_lt (forward : Bool) {count : Nat} (h : 0 < count) (i? : Option Nat) :
    step forward count i? < count := by
  cases i? with
  | none =>
    cases forward
    · exact Nat.sub_lt h Nat.one_pos
    · exact h
  | some i => cases forward <;> exact Nat.mod_lt _ h

section Events

variable (t : Terminal) (s : Session)

/-- Scrolling changes the offset of the focused pane, and nothing else. -/
theorem scroll_cases (f : Nat → Nat) :
    { s.scroll f with offsets := s.offsets } = s ∧
      (s.scroll f).offsets.source.followed = s.offsets.source.followed ∧
      ∀ p, (s.scroll f).offset p = if p = s.focus then f (s.offset p) else s.offset p := by
  refine ⟨rfl, ?_, fun p => ?_⟩
  · unfold scroll
    cases s.focus <;> rfl
  · unfold scroll
    cases hf : s.focus <;> cases p <;> rfl

/-- Without problems a step only says so. Otherwise it selects one and says which. -/
theorem select_cases (forward : Bool) :
    s.problems = [] ∧ s.select forward = { s with status := "No problems to show" } ∨
      ∃ i p, i = step forward s.problems.length s.selected? ∧ s.problems[i]? = some p ∧
        s.select forward =
          { s with
            selected? := some i
            status := toString (i + 1) ++ "/" ++ toString s.problems.length ++ ": line " ++
              toString p.line } := by
  by_cases hp : s.problems = []
  · refine .inl ⟨hp, ?_⟩
    simp [select, hp]
  · have hpos : 0 < s.problems.length := List.length_pos_iff.mpr hp
    have hlt := step_lt forward hpos s.selected?
    refine .inr ⟨_, s.problems[step forward s.problems.length s.selected?], rfl,
      List.getElem?_eq_getElem hlt, ?_⟩
    simp only [select, List.getElem?_eq_getElem hlt]

/-- An event steps through the problems, or it changes the focus and the offsets at most and may end
the session. Only a draw tells the source pane which line is followed. -/
theorem next_cases (e : Event) :
    (∃ forward, e.step? = some forward ∧ e.turn = 0 ∧ s.next t e = s.select forward) ∨
      e.step? = none ∧ ∃ focus offsets quit,
        s.next t e = { s with focus, offsets, quit } ∧ (s.quit = true → quit = true) ∧
          (e.isDraw = false → offsets.source.followed = s.offsets.source.followed) ∧
          (focus.place : Int) = (s.focus.place + e.turn) % 4 := by
  have hfocus := s.focus.place_emod
  cases e with
  | draw width height =>
    refine .inr ⟨rfl, s.focus, _, s.quit, rfl, id, ?_, hfocus⟩
    rintro ⟨⟩
  | press k =>
    cases k with
    | tab => exact .inr ⟨rfl, _, s.offsets, s.quit, rfl, id, fun _ => rfl, s.focus.place_next⟩
    | backTab =>
      exact .inr ⟨rfl, _, s.offsets, s.quit, rfl, id, fun _ => rfl, s.focus.place_previous⟩
    | left | right | enter | other =>
      exact .inr ⟨rfl, s.focus, s.offsets, s.quit, rfl, id, fun _ => rfl, hfocus⟩
    | up =>
      exact .inr ⟨rfl, s.focus, (s.scroll (· - 1)).offsets, s.quit, rfl, id,
        fun _ => (s.scroll_cases _).2.1, hfocus⟩
    | down =>
      exact .inr ⟨rfl, s.focus, (s.scroll (· + 1)).offsets, s.quit, rfl, id,
        fun _ => (s.scroll_cases _).2.1, hfocus⟩
    | escape => exact .inr ⟨rfl, s.focus, s.offsets, true, rfl, fun _ => rfl, fun _ => rfl, hfocus⟩
    | char c =>
      by_cases hn : c = 'n'
      · subst hn
        exact .inl ⟨true, rfl, rfl, rfl⟩
      by_cases hp : c = 'p'
      · subst hp
        exact .inl ⟨false, rfl, rfl, rfl⟩
      have hstep : (Event.press (.char c)).step? = none := by simp [Event.step?, hn, hp]
      refine .inr ⟨hstep, s.focus, s.offsets, ?_⟩
      by_cases hq : c = 'q' ∨ c = 'Q'
      · exact ⟨true, by simp [next, press, hq], fun _ => rfl, fun _ => rfl, hfocus⟩
      · exact ⟨s.quit, by simp [next, press, hq, hn, hp], id, fun _ => rfl, hfocus⟩

end Events

end Session

end MatrixLang.Viewer
