import MatrixLang.Viewer.Window

/-! # What a window shows

Following a line brings it into the window, and settling the window keeps it there. Neither moves a
window that is settled and shows the line, and neither subtracts a greater number from a lesser one.
-/

namespace MatrixLang.Viewer.Window

/-- The line number `i` is one of the `n` lines from an offset on. -/
def Shows (offset n i : Nat) : Prop := offset ≤ i ∧ i < offset + n

section Moves

variable {offset total n i : Nat}

theorem settle_le (offset total n : Nat) : settle offset total n ≤ total - n :=
  Nat.min_le_right ..

@[simp] theorem settle_settle : settle (settle offset total n) total n = settle offset total n :=
  Nat.min_eq_left (settle_le ..)

theorem Shows.settle (h : Shows offset n i) (hi : i < total) :
    Shows (settle offset total n) n i := by
  rcases h with ⟨hle, hlt⟩
  unfold Window.settle
  constructor <;> omega

theorem shows_reveal (hn : 0 < n) : Shows (reveal offset i n) n i :=
  ⟨reveal_le hn, lt_reveal_add hn⟩

theorem reveal_of_shows (h : Shows offset n i) : reveal offset i n = offset := by
  rcases h with ⟨hle, hlt⟩
  rw [reveal, if_neg (by omega), if_neg (by omega)]

theorem shows_centre (hn : 0 < n) : Shows (centre offset i n) n i := by
  unfold centre
  by_cases h : i < offset ∨ offset + n ≤ i
  · rw [if_pos h]
    constructor <;> omega
  · rw [if_neg h]
    constructor <;> omega

end Moves

section Checked

def difference? (a b : Nat) : Option Nat := if b ≤ a then some (a - b) else none

theorem difference?_eq {a b : Nat} (h : b ≤ a) : difference? a b = some (a - b) := if_pos h

/-- Settles an offset with a difference that is only taken if more lines are there than fit. -/
def settle? (offset total n : Nat) : Option Nat :=
  if n < total then (difference? total n).map (min offset) else some 0

def reveal? (offset i n : Nat) : Option Nat :=
  if i < offset then some i else if offset + n ≤ i then difference? (i + 1) n else some offset

/-- Brings a numbered line near the middle. A line without a number stays where it is. -/
def centre? (offset line n : Nat) : Option Nat :=
  if line = 0 then some offset else (difference? line 1).map fun i => centre offset i n

theorem settle?_eq (offset total n : Nat) :
    settle? offset total n = some (settle offset total n) := by
  unfold settle? settle
  by_cases h : n < total
  · rw [if_pos h, difference?_eq (by omega)]
    rfl
  · rw [if_neg h, Nat.sub_eq_zero_of_le (by omega), Nat.min_zero]

theorem reveal?_eq (offset i n : Nat) : reveal? offset i n = some (reveal offset i n) := by
  unfold reveal? reveal
  by_cases h₁ : i < offset
  · rw [if_pos h₁, if_pos h₁]
  · rw [if_neg h₁, if_neg h₁]
    by_cases h₂ : offset + n ≤ i
    · rw [if_pos h₂, if_pos h₂, difference?_eq (by omega)]
    · rw [if_neg h₂, if_neg h₂]

theorem centre?_succ (offset i n : Nat) : centre? offset (i + 1) n = some (centre offset i n) := by
  rw [centre?, if_neg (by omega), difference?_eq (by omega)]
  rfl

end Checked

end MatrixLang.Viewer.Window
