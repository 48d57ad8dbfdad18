/-! # Windows on lists of lines

A window shows as many lines as fit, from an offset on. Settling the offset keeps the window on the
lines, following a line brings it into the window, and both leave a window that needs nothing.
-/

namespace MatrixLang.Viewer.Window

/-- The number of lines in a pane of the given height, which has a border; at least one. -/
def capacity (height : Nat) : Nat := max 1 (height - 2)

/-- The offset brought back so far that no more lines could be shown. -/
def settle (offset total capacity : Nat) : Nat := min offset (total - capacity)

/-- The least move of the offset that shows the line number `i`. -/
def reveal (offset i capacity : Nat) : Nat :=
  if i < offset then i
  else if offset + capacity ≤ i then i + 1 - capacity
  else offset

/-- An offset that shows the line number `i` near the middle, unless it is shown already. -/
def centre (offset i capacity : Nat) : Nat :=
  if i < offset ∨ offset + capacity ≤ i then i - capacity / 2 else offset

def shown {α : Type} (offset capacity : Nat) (ls : List α) : List α :=
  (ls.drop offset).take capacity

theorem capacity_pos (height : Nat) : 0 < capacity height := by
  simp only [capacity]; omega

theorem settle_add_le {offset total n : Nat} (h : n ≤ total) :
    settle offset total n + n ≤ total := by
  simp only [settle]; omega

theorem reveal_le {offset i n : Nat} (h : 0 < n) : reveal offset i n ≤ i := by
  grind [reveal]

theorem lt_reveal_add {offset i n : Nat} (h : 0 < n) : i < reveal offset i n + n := by
  grind [reveal]

end MatrixLang.Viewer.Window
