import Mathlib.Data.List.Basic
import MatrixLang.Tree.Outline

/-! # Indentation

A tree of labels is written with one label on each line, deeper by one guide for each level. Labels
without line breaks that start with no guide can be read back from the lines, and the depths tell
which label stands below which.
-/

namespace MatrixLang

/-- A label, and what stands below it one level deeper. -/
inductive Outline where
  | mk (label : String) (branches : List Outline)

namespace Outline

def label : Outline → String
  | ⟨label, _⟩ => label

def branches : Outline → List Outline
  | ⟨_, branches⟩ => branches

mutual

def entries (d : Nat) : Outline → List Entry
  | ⟨label, branches⟩ => ⟨d, label⟩ :: entriesList (d + 1) branches

def entriesList (d : Nat) : List Outline → List Entry
  | [] => []
  | o :: os => entries d o ++ entriesList d os

end

theorem entriesList_append (d : Nat) (os ps : List Outline) :
    entriesList d (os ++ ps) = entriesList d os ++ entriesList d ps := by
  induction os with
  | nil => rfl
  | cons o os ih => rw [List.cons_append, entriesList, entriesList, ih, List.append_assoc]

section Depths

/-- The first of the lines, if there is one, is less deep than `d`. -/
def Shallower (d : Nat) (es : List Entry) : Prop := ∀ e ∈ es.head?, e.depth < d

variable {d : Nat} {es es' : List Entry}

theorem Shallower.succ (h : Shallower d es) : Shallower (d + 1) es := fun e he =>
  Nat.lt_succ_of_lt (h e he)

theorem Shallower.entriesList_append (h : Shallower d es) (os : List Outline) :
    Shallower (d + 1) (entriesList d os ++ es) := by
  cases os with
  | nil => exact h.succ
  | cons o os =>
    obtain ⟨label, branches⟩ := o
    intro e he
    obtain rfl : ⟨d, label⟩ = e := Option.some.inj he
    exact Nat.lt_succ_self d

theorem not_shallower_entriesList_cons (o : Outline) (os : List Outline) :
    ¬ Shallower d (entriesList d (o :: os) ++ es) := by
  obtain ⟨label, branches⟩ := o
  exact fun h => Nat.lt_irrefl d (h ⟨d, label⟩ rfl)

/-- Depths tell where a list of outlines ends, and where each of them does. -/
theorem entriesList_append_inj : {d : Nat} → {es es' : List Entry} → (os ps : List Outline) →
    Shallower d es → Shallower d es' → entriesList d os ++ es = entriesList d ps ++ es' →
      os = ps ∧ es = es'
  | _, _, _, [], [], _, _, h => ⟨rfl, h⟩
  | _, _, _, [], p :: ps, hes, _, h => by
    rw [entriesList, List.nil_append] at h
    exact absurd (h ▸ hes) (not_shallower_entriesList_cons p ps)
  | d, _, _, o :: os, [], _, hes', h => by
    rw [entriesList.eq_def d [], List.nil_append] at h
    exact absurd (h ▸ hes') (not_shallower_entriesList_cons o os)
  | _, _, _, ⟨label, branches⟩ :: os, ⟨label', branches'⟩ :: ps, hes, hes', h => by
    simp only [entriesList, entries, List.cons_append, List.append_assoc, List.cons.injEq,
      Entry.mk.injEq, true_and] at h
    obtain ⟨rfl, h⟩ := h
    obtain ⟨rfl, hbehind⟩ := entriesList_append_inj branches branches' (hes.entriesList_append os)
      (hes'.entriesList_append ps) h
    obtain ⟨rfl, hrest⟩ := entriesList_append_inj os ps hes hes' hbehind
    exact ⟨rfl, hrest⟩

theorem entriesList_injective (d : Nat) {os ps : List Outline}
    (h : entriesList d os = entriesList d ps) : os = ps := by
  have hnil : Shallower d [] := nofun
  refine (entriesList_append_inj os ps hnil hnil ?_).1
  rw [List.append_nil, List.append_nil, h]

end Depths

end Outline

section Lines

/-- A label that can stand on a line of its own behind guides. -/
structure IsLabel (l : String) : Prop where
  line : '\n' ∉ l.toList
  unguided : l.toList.head? ≠ some '|'

def guides : Nat → List Char
  | 0 => []
  | d + 1 => '|' :: ' ' :: ' ' :: guides d

theorem Entry.toList_text (e : Entry) : e.text.toList = guides e.depth ++ e.label.toList := by
  obtain ⟨d, label⟩ := e
  rw [text, String.toList_append, String.toList_join]
  congr 1
  induction d with
  | zero => rfl
  | succ d ih =>
    rw [List.replicate_succ, List.flatMap_cons, ih]
    rfl

theorem lineBreak_notMem_guides (d : Nat) : '\n' ∉ guides d := by
  induction d with
  | zero => exact List.not_mem_nil
  | succ d ih => simpa [guides] using ih

theorem guides_append_inj : {d d' : Nat} → {l l' : List Char} → l.head? ≠ some '|' →
    l'.head? ≠ some '|' → guides d ++ l = guides d' ++ l' → d = d' ∧ l = l'
  | 0, 0, _, _, _, _, h => ⟨rfl, h⟩
  | 0, d' + 1, l, l', hl, _, h => by
    rw [guides, List.nil_append] at h
    exact absurd (h ▸ rfl) hl
  | d + 1, 0, l, l', _, hl', h => by
    rw [guides.eq_def 0, List.nil_append] at h
    exact absurd (h ▸ rfl) hl'
  | d + 1, d' + 1, l, l', hl, hl', h => by
    simp only [guides, List.cons_append, List.cons.injEq, true_and] at h
    obtain ⟨rfl, rfl⟩ := guides_append_inj hl hl' h
    exact ⟨rfl, rfl⟩

theorem lineBreak_append_inj : {l m r s : List Char} → '\n' ∉ l → '\n' ∉ m →
    l ++ '\n' :: r = m ++ '\n' :: s → l = m ∧ r = s
  | [], [], _, _, _, _, h => ⟨rfl, (List.cons.inj h).2⟩
  | [], c :: m, _, _, _, hm, h => absurd (List.mem_cons.mpr (.inl (List.cons.inj h).1)) hm
  | c :: l, [], _, _, hl, _, h => absurd (List.mem_cons.mpr (.inl (List.cons.inj h).1.symm)) hl
  | c :: l, c' :: m, _, _, hl, hm, h => by
    simp only [List.cons_append, List.cons.injEq] at h
    rw [List.mem_cons, not_or] at hl hm
    obtain ⟨rfl, h⟩ := h
    obtain ⟨rfl, rfl⟩ := lineBreak_append_inj hl.2 hm.2 h
    exact ⟨rfl, rfl⟩

variable {es es' : List Entry}

theorem toList_unlines_cons (e : Entry) (es : List Entry) :
    (Entry.unlines (e :: es)).toList = e.text.toList ++ '\n' :: (Entry.unlines es).toList := by
  simp [Entry.unlines, String.toList_join]

/-- The lines of a text are the entries that it was written from. -/
theorem unlines_injective (hes : ∀ e ∈ es, IsLabel e.label) (hes' : ∀ e ∈ es', IsLabel e.label)
    (h : Entry.unlines es = Entry.unlines es') : es = es' := by
  induction es generalizing es' with
  | nil =>
    cases es' with
    | nil => rfl
    | cons e' es' =>
      have htext := congrArg String.toList h
      rw [toList_unlines_cons] at htext
      simp [Entry.unlines] at htext
  | cons e es ih =>
    cases es' with
    | nil =>
      have htext := congrArg String.toList h
      rw [toList_unlines_cons] at htext
      simp [Entry.unlines] at htext
    | cons e' es' =>
      rw [List.forall_mem_cons] at hes hes'
      rw [← String.toList_inj, toList_unlines_cons, toList_unlines_cons, Entry.toList_text,
        Entry.toList_text] at h
      have hline (e : Entry) (he : IsLabel e.label) :
          '\n' ∉ guides e.depth ++ e.label.toList := by
        rw [List.mem_append, not_or]
        exact ⟨lineBreak_notMem_guides e.depth, he.line⟩
      obtain ⟨hfirst, hrest⟩ := lineBreak_append_inj (hline e hes.1) (hline e' hes'.1) h
      obtain ⟨hdepth, hlabel⟩ := guides_append_inj hes.1.unguided hes'.1.unguided hfirst
      obtain ⟨d, l⟩ := e
      obtain ⟨d', l'⟩ := e'
      obtain rfl : d = d' := hdepth
      obtain rfl : l = l' := String.toList_inj.mp hlabel
      rw [ih hes.2 hes'.2 (String.toList_inj.mp hrest)]

end Lines

end MatrixLang
