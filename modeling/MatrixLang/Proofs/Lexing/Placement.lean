import Mathlib.Data.List.Basic
import MatrixLang.Token.Cover

/-! # Where pieces lie

The place behind a text is told by its line breaks and by what follows the last of them. It grows
with the text, so the pieces of a text lie one behind the other.
-/

namespace MatrixLang

namespace Location

/-- The place of whatever follows the text `cs`. -/
def behind (cs : List Char) : Location :=
  ⟨1 + cs.count '\n', 1 + (cs.reverse.takeWhile (· != '\n')).length⟩

/-- The place `l` comes before the place `m` in the order of reading. -/
def Before (l m : Location) : Prop :=
  l.line < m.line ∨ l.line = m.line ∧ l.column < m.column

def below (n : Nat) (l : Location) : Location := ⟨l.line + n, l.column⟩

variable {l m k : Location} {cs ds : List Char} {n : Nat}

theorem Before.trans (h : l.Before m) (h' : m.Before k) : l.Before k := by
  unfold Before at *
  omega

theorem not_before_self (l : Location) : ¬ l.Before l := by
  unfold Before
  omega

theorem before_next (l : Location) (c : Char) : l.Before (l.next c) := by
  unfold Before next
  split
  · exact .inl (Nat.lt_succ_self _)
  · exact .inr ⟨rfl, Nat.lt_succ_self _⟩

theorem before_after (l : Location) (h : cs ≠ []) : l.Before (l.after cs) := by
  induction cs generalizing l with
  | nil => exact absurd rfl h
  | cons c cs ih =>
    rw [after_cons]
    cases cs with
    | nil => exact before_next l c
    | cons d cs => exact (before_next l c).trans (ih (l.next c) (List.cons_ne_nil d cs))

theorem next_behind (cs : List Char) (c : Char) : (behind cs).next c = behind (cs ++ [c]) := by
  unfold behind next
  by_cases h : c = '\n'
  · simp [h, Nat.add_assoc]
  · simp [h]
    omega

theorem after_behind (cs ds : List Char) : (behind cs).after ds = behind (cs ++ ds) := by
  induction ds generalizing cs with
  | nil => rw [after_nil, List.append_nil]
  | cons d ds ih => rw [after_cons, next_behind, ih, List.append_assoc, List.singleton_append]

theorem after_start (cs : List Char) : start.after cs = behind cs := after_behind [] cs

theorem after_below (n : Nat) (l : Location) (cs : List Char) :
    (l.below n).after cs = (l.after cs).below n := by
  induction cs generalizing l with
  | nil => rfl
  | cons c cs ih =>
    have hc : (l.below n).next c = (l.next c).below n := by
      unfold next below
      split
      · simp [Nat.add_right_comm]
      · rfl
    rw [after_cons, after_cons, hc, ih]

theorem after_of_not_mem (h : '\n' ∉ cs) (l : Location) :
    l.after cs = ⟨l.line, l.column + cs.length⟩ := by
  induction cs generalizing l with
  | nil => rfl
  | cons c cs ih =>
    rw [List.mem_cons, not_or] at h
    rw [after_cons, ih h.2, next, if_neg (Ne.symm h.1), List.length_cons, Nat.add_assoc,
      Nat.add_comm 1]

theorem behind_lineBreak (cs : List Char) :
    behind (cs ++ ['\n']) = start.below (1 + cs.count '\n') := by
  simp [behind, below, start]
  omega

end Location

namespace Piece

theorem text_first_ne_nil (c : Char) (rest : List Char) : (first c rest).text ≠ [] := by
  obtain ⟨ds, h, _⟩ := text_first c rest
  rw [h]
  exact List.cons_ne_nil c ds

theorem text_ne_nil_of_mem {p : Piece} {cs : List Char} (h : p ∈ ofText cs) : p.text ≠ [] := by
  fun_induction ofText cs with
  | case1 => simp at h
  | case2 c rest ih =>
    rcases List.mem_cons.mp h with rfl | h
    · exact text_first_ne_nil c rest
    · exact ih h

def firstOfText : Nat → List Char → List Piece
  | 0, _ => []
  | _ + 1, [] => []
  | d + 1, c :: rest => first c rest :: firstOfText d (restAfterFirst c rest)

/-- The pieces of a concrete text can be computed with its length as a bound. -/
theorem ofText_eq_firstOfText {d : Nat} {cs : List Char} (h : cs.length ≤ d) :
    ofText cs = firstOfText d cs := by
  induction d generalizing cs with
  | zero =>
    obtain rfl := List.eq_nil_of_length_eq_zero (Nat.le_zero.mp h)
    rw [ofText, firstOfText]
  | succ d ih =>
    cases cs with
    | nil => rw [ofText, firstOfText]
    | cons c rest =>
      have hr := Nat.le_trans (length_restAfterFirst_le c rest) (Nat.le_of_succ_le_succ h)
      rw [ofText, firstOfText, ih hr]

end Piece

namespace PlacedPiece

open Piece

variable {l : Location} {ps qs : List Piece} {q : PlacedPiece}

theorem piece_mem_of_mem_place (hq : q ∈ place l ps) : q.piece ∈ ps := by
  induction ps generalizing l with
  | nil => cases hq
  | cons p ps ih =>
    rcases List.mem_cons.mp hq with rfl | hq
    · exact List.mem_cons_self
    · exact List.mem_cons_of_mem p (ih hq)

theorem place_append (l : Location) (ps qs : List Piece) :
    place l (ps ++ qs) = place l ps ++ place (l.after (ps.flatMap text)) qs := by
  induction ps generalizing l with
  | nil => rfl
  | cons p ps ih =>
    rw [List.cons_append, place, place, ih, List.flatMap_cons, Location.after_append,
      List.cons_append]

def below (n : Nat) (q : PlacedPiece) : PlacedPiece := ⟨q.piece, q.location.below n⟩

theorem place_below (n : Nat) (l : Location) (ps : List Piece) :
    place (l.below n) ps = (place l ps).map (below n) := by
  induction ps generalizing l with
  | nil => rfl
  | cons p ps ih => rw [place, place, List.map_cons, Location.after_below, ih]; rfl

theorem before_of_mem_place (hp : ∀ p ∈ ps, p.text ≠ []) (hq : q ∈ place l ps) :
    q.location = l ∨ l.Before q.location := by
  induction ps generalizing l with
  | nil => simp [place] at hq
  | cons p ps ih =>
    rw [List.forall_mem_cons] at hp
    rcases List.mem_cons.mp hq with rfl | hq
    · exact .inl rfl
    · have hl := Location.before_after l hp.1
      rcases ih hp.2 hq with h | h
      · exact .inr (h ▸ hl)
      · exact .inr (hl.trans h)

/-- Pieces that cover something lie one behind the other. -/
theorem pairwise_before_place (l : Location) (hp : ∀ p ∈ ps, p.text ≠ []) :
    (place l ps).Pairwise (·.location.Before ·.location) := by
  induction ps generalizing l with
  | nil => exact .nil
  | cons p ps ih =>
    rw [List.forall_mem_cons] at hp
    refine .cons (fun q hq => ?_) (ih _ hp.2)
    have hl := Location.before_after l hp.1
    rcases before_of_mem_place hp.2 hq with h | h
    · exact h ▸ hl
    · exact hl.trans h

theorem before_end_of_mem_place (hp : ∀ p ∈ ps, p.text ≠ []) (hq : q ∈ place l ps) :
    q.location.Before (l.after (ps.flatMap text)) := by
  induction ps generalizing l with
  | nil => simp [place] at hq
  | cons p ps ih =>
    rw [List.forall_mem_cons] at hp
    rw [List.flatMap_cons, Location.after_append]
    rcases List.mem_cons.mp hq with rfl | hq
    · have hl := Location.before_after l hp.1
      by_cases hn : ps.flatMap text = []
      · rwa [hn, Location.after_nil]
      · exact hl.trans (Location.before_after _ hn)
    · exact ih hp.2 hq

end PlacedPiece

end MatrixLang
