import Mathlib.Data.List.Basic
import MatrixLang.Proofs.Lexing.Lexeme
import MatrixLang.Text.Line

/-! # Lines and line breaks

A text has as many lines as line breaks, and one more if something stands behind the last of them.
Texts without line breaks, each closed by one, are the lines of what they make up.
-/

namespace MatrixLang

namespace Text

/-- A text that can be a line: it has no line break, and no carriage return joins it to the one
behind it. -/
def IsLine (l : List Char) : Prop := '\n' ∉ l ∧ l.getLast? ≠ some '\r'

section Lines

variable {c : Char} {l cs : List Char}

theorem lines_cons (hc : c ≠ '\n') (hr : c = '\r' → cs.head? ≠ some '\n') :
    lines (c :: cs) = prepend c (lines cs) := by
  rw [lines]
  · exact hc
  · rintro ds rfl rfl
    exact hr rfl rfl

theorem lines_append_lineBreak (h : IsLine l) (cs : List Char) :
    lines (l ++ '\n' :: cs) = l :: lines cs := by
  induction l with
  | nil => rfl
  | cons c l ih =>
    obtain ⟨hn, hr⟩ := h
    rw [List.mem_cons, not_or] at hn
    have hl : IsLine l := by
      refine ⟨hn.2, fun h => hr ?_⟩
      rw [List.getLast?_cons, h, Option.getD_some]
    rw [List.cons_append, lines_cons (Ne.symm hn.1), ih hl, prepend]
    rintro rfl
    cases l with
    | nil => exact absurd rfl hr
    | cons d l => simpa using fun h => hn.2 (by simp [h])

/-- Texts that can be lines are the lines of what they make up. -/
theorem lines_flatMap {ls : List (List Char)} (h : ∀ l ∈ ls, IsLine l) :
    lines (ls.flatMap (· ++ ['\n'])) = ls := by
  induction ls with
  | nil => rfl
  | cons l ls ih =>
    rw [List.forall_mem_cons] at h
    rw [List.flatMap_cons, List.append_assoc, List.singleton_append, lines_append_lineBreak h.1,
      ih h.2]

theorem lines_ne_nil (h : cs ≠ []) : lines cs ≠ [] := by
  fun_cases lines cs with
  | case1 => exact absurd rfl h
  | case2 | case3 => exact List.cons_ne_nil _ _
  | case4 c cs => cases lines cs <;> exact List.cons_ne_nil _ _

theorem length_prepend {ls : List (List Char)} (c : Char) (h : ls ≠ []) :
    (prepend c ls).length = ls.length := by
  cases ls with
  | nil => exact absurd rfl h
  | cons l ls => rfl

/-- A text has a line for each line break, and one for what stands behind the last of them. -/
theorem length_lines (h : cs ≠ []) :
    (lines cs).length = cs.count '\n' + if cs.getLast? = some '\n' then 0 else 1 := by
  have hcons (c : Char) {cs : List Char} (hcs : cs ≠ []) :
      (c :: cs).getLast? = cs.getLast? := by
    obtain ⟨d, ds, rfl⟩ := List.exists_cons_of_ne_nil hcs
    rfl
  fun_induction lines cs with
  | case1 => exact absurd rfl h
  | case2 cs ih =>
    by_cases hcs : cs = []
    · subst hcs
      rfl
    · rw [List.length_cons, ih hcs, hcons _ hcs, List.count_cons_self, Nat.add_right_comm]
  | case3 cs ih =>
    by_cases hcs : cs = []
    · subst hcs
      rfl
    · rw [List.length_cons, ih hcs, hcons _ (List.cons_ne_nil _ _), hcons _ hcs,
        List.count_cons_of_ne (by decide), List.count_cons_self, Nat.add_right_comm]
  | case4 c cs hc hr ih =>
    by_cases hcs : cs = []
    · subst hcs
      have hc' : c ≠ '\n' := hc
      simp [lines, prepend, hc']
    · rw [length_prepend c (lines_ne_nil hcs), ih hcs, hcons _ hcs, List.count_cons_of_ne hc]

theorem line_behind_le_length {es : List Char} (ds : List Char) (h : es ≠ []) :
    (Location.behind ds).line ≤ (lines (ds ++ es)).length := by
  rw [length_lines (List.append_ne_nil_of_right_ne_nil ds h), List.count_append,
    List.getLast?_append_of_ne_nil ds h, Location.behind]
  split
  next hlast =>
    have hpos : 0 < es.count '\n' := List.count_pos_iff.mpr (List.mem_of_getLast? hlast)
    dsimp only
    omega
  next =>
    dsimp only
    omega

/-- The end of a text lies on its last line, or behind it if the text ends with a line break. -/
theorem line_behind_eq (h : cs ≠ []) :
    (Location.behind cs).line =
      (lines cs).length + if cs.getLast? = some '\n' then 1 else 0 := by
  rw [length_lines h, Location.behind]
  dsimp only
  split <;> omega

end Lines

/-- A text without line breaks and carriage returns. -/
def Unbroken (cs : List Char) : Prop := ∀ c ∈ cs, c ≠ '\n' ∧ c ≠ '\r'

instance (cs : List Char) : Decidable (Unbroken cs) :=
  List.decidableBAll (fun c => c ≠ '\n' ∧ c ≠ '\r') cs

section Unbroken

variable {cs ds : List Char}

@[simp] theorem unbroken_append_iff : Unbroken (cs ++ ds) ↔ Unbroken cs ∧ Unbroken ds :=
  List.forall_mem_append

theorem Unbroken.isLine (h : Unbroken cs) : IsLine cs :=
  ⟨fun hmem => (h _ hmem).1 rfl, fun hlast => (h _ (List.mem_of_getLast? hlast)).2 rfl⟩

theorem unbroken_of_isAlphanum (h : ∀ c ∈ cs, c.isAlphanum = true ∨ c = '_') : Unbroken cs := by
  intro c hc
  constructor <;> (rintro rfl; exact absurd (h _ hc) (by decide))

theorem IsLine.append_singleton {c : Char} (h : '\n' ∉ cs) (hn : c ≠ '\n') (hr : c ≠ '\r') :
    IsLine (cs ++ [c]) := by
  refine ⟨?_, ?_⟩
  · rw [List.mem_append, List.mem_singleton, not_or]
    exact ⟨h, Ne.symm hn⟩
  · rw [List.getLast?_concat]
    exact fun heq => hr (Option.some.inj heq)

end Unbroken

end Text

theorem IsWord.unbroken {cs : List Char} (h : IsWord cs) : Text.Unbroken cs :=
  Text.unbroken_of_isAlphanum h.isAlphanum_of_mem

end MatrixLang
