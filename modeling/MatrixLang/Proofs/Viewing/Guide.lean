import MatrixLang.Proofs.Outline.Label
import MatrixLang.Proofs.Syntax.Part
import MatrixLang.Viewer.Highlight

/-! # Guides of an outline

The text of an outline is taken apart again where it is shown: it is cut into lines, and each line
into guides and a label. What the lexemes and constructs of a program are labelled with is neither
cut, nor taken for a guide, nor does it lose a character at its end.
-/

namespace MatrixLang

/-- A label that can stand on a line of its own behind guides and end it. -/
structure IsWhole (l : String) : Prop extends IsLabel l where
  last : l.toList.getLast? ≠ some '\r'

section Labels

variable {k : Kind} {us : List Char} {l : String}

def IsPlain (cs : List Char) : Prop := ∀ c ∈ cs, c ≠ '\n' ∧ c ≠ '\r' ∧ c ≠ '|'

instance (cs : List Char) : Decidable (IsPlain cs) :=
  List.decidableBAll (fun c => c ≠ '\n' ∧ c ≠ '\r' ∧ c ≠ '|') cs

theorem isWhole_of_isPlain (h : IsPlain l.toList) : IsWhole l :=
  ⟨⟨fun hmem => (h _ hmem).1 rfl, fun hhead => (h _ (List.mem_of_head? hhead)).2.2 rfl⟩,
    fun hlast => (h _ (List.mem_of_getLast? hlast)).2.1 rfl⟩

theorem isPlain_of_isTextual (h : Binary64.IsTextual us) : IsPlain us := by
  intro c hc
  refine ⟨?_, ?_, ?_⟩ <;> (rintro rfl; exact absurd (h _ hc) (by decide))

theorem isPlain_of_isWord (h : IsWord us) : IsPlain us := by
  intro c hc
  refine ⟨?_, ?_, ?_⟩ <;> (rintro rfl; exact absurd (h.isAlphanum_of_mem _ hc) (by decide))

theorem isWhole_of_lexeme (h : Lexeme k us) : IsWhole k.spelling := by
  cases h with
  | integer => exact isWhole_of_isPlain (isPlain_of_isTextual (Binary64.isTextual_toString _))
  | float | fraction =>
    exact isWhole_of_isPlain (isPlain_of_isTextual (Binary64.isTextual_text _))
  | @string cs _ hbreak =>
    have hspelling : (Kind.string (String.ofList cs)).spelling.toList = '"' :: cs ++ ['"'] := by
      simp [Kind.spelling]
    refine ⟨⟨?_, ?_⟩, ?_⟩ <;> rw [hspelling]
    · simpa using hbreak
    · exact fun h => absurd (Option.some.inj h) (by decide)
    · rw [List.getLast?_concat]
      exact fun h => absurd (Option.some.inj h) (by decide)
  | name hword =>
    refine isWhole_of_isPlain ?_
    rw [Kind.spelling, String.toList_ofList]
    exact isPlain_of_isWord hword
  | @keyword w => exact isWhole_of_isPlain (isPlain_of_isWord w.isWord_text)
  | @symbol m =>
    have hall : ∀ m ∈ Symbol.all, IsPlain m.text.toList := by decide
    exact isWhole_of_isPlain (hall m m.mem_all)

theorem isWhole_construct (c : Construct) : IsWhole c.label := by
  have hall : ∀ c ∈ Construct.all, IsPlain c.label.toList := by decide +kernel
  exact isWhole_of_isPlain (hall c c.mem_all)

/-- The words that stand in an outline beside those for constructs. -/
def partWords : List String := ["VECTOR", "RANGE", "THEN", "ELSE"]

theorem isWhole_partWord (l : String) (h : l ∈ partWords) : IsWhole l := by
  have hall : ∀ l ∈ partWords, IsPlain l.toList := by decide
  exact isWhole_of_isPlain (hall l h)

end Labels

def WholeLabels (es : List Entry) : Prop := ∀ e ∈ es, IsWhole e.label

section Lines

variable {es es' : List Entry} {l : String}

theorem WholeLabels.cons (hl : IsWhole l) (h : WholeLabels es) (d : Nat) :
    WholeLabels (⟨d, l⟩ :: es) :=
  List.forall_mem_cons.mpr ⟨hl, h⟩

theorem IsWhole.singleton (hl : IsWhole l) (d : Nat) : WholeLabels [⟨d, l⟩] :=
  List.forall_mem_singleton.mpr hl

theorem WholeLabels.append (h : WholeLabels es) (h' : WholeLabels es') : WholeLabels (es ++ es') :=
  List.forall_mem_append.mpr ⟨h, h'⟩

end Lines

namespace Node

section Outlines

/-- The literal or the name of a node can stand on a line of its own. -/
abbrev IsWritten : Node → Prop := IsSpelled fun k => IsWhole k.spelling

mutual

/-- Where literals and names can stand on lines of their own, all labels can. -/
theorem wholeLabels_outline (d : Nat) :
    (n : Node) → (∀ m ∈ n.parts, m.IsWritten) → WholeLabels (outline d n)
  | .integer .., h | .float .., h | .string .., h =>
    IsWhole.singleton (List.forall_mem_cons.mp h).1 d
  | .reference r, h => by
    obtain ⟨hname, hindices⟩ := List.forall_mem_cons.mp h
    exact wholeLabels_outlineReference d r hname hindices
  | .matrix rows _, h =>
    have hrows := wholeLabels_outlineRows (d + 1) rows (List.forall_mem_cons.mp h).2
    hrows.cons (isWhole_construct .matrix) d
  | .binary op left right _, h => by
    obtain ⟨hleft, hright⟩ := List.forall_mem_append.mp (List.forall_mem_cons.mp h).2
    exact (wholeLabels_outline (d + 1) left hleft).cons (isWhole_construct (.binary op)) d
      |>.append (wholeLabels_outline (d + 1) right hright)
  | .comparison c left right _, h => by
    obtain ⟨hleft, hright⟩ := List.forall_mem_append.mp (List.forall_mem_cons.mp h).2
    exact (wholeLabels_outline (d + 1) left hleft).cons (isWhole_construct (.comparison c)) d
      |>.append (wholeLabels_outline (d + 1) right hright)
  | .unary op operand _, h =>
    have hoperand := wholeLabels_outline (d + 1) operand (List.forall_mem_cons.mp h).2
    hoperand.cons (isWhole_construct (.unary op)) d
  | .builtin b arguments _, h =>
    have harguments := wholeLabels_outlineList (d + 1) arguments (List.forall_mem_cons.mp h).2
    harguments.cons (isWhole_construct (.builtin b)) d
  | .assignment target op value _, h => by
    obtain ⟨hname, h⟩ := List.forall_mem_cons.mp h
    obtain ⟨htarget, hvalue⟩ := List.forall_mem_append.mp h
    exact (wholeLabels_outlineReference (d + 1) target hname htarget).cons
      (isWhole_construct (.assignment op)) d |>.append (wholeLabels_outline (d + 1) value hvalue)
  | .instruction i values _, h =>
    have hvalues := wholeLabels_outlineList (d + 1) values (List.forall_mem_cons.mp h).2
    hvalues.cons (isWhole_construct (.instruction i)) d
  | .conditional condition consequent alternative _, h => by
    obtain ⟨hfirst, halternative⟩ := List.forall_mem_append.mp (List.forall_mem_cons.mp h).2
    obtain ⟨hcondition, hconsequent⟩ := List.forall_mem_append.mp hfirst
    have hif := (wholeLabels_outline (d + 1) condition hcondition).cons
      (isWhole_construct .conditional) d
    have hthen := (wholeLabels_outlineBlock (d + 1) consequent hconsequent).cons
      (isWhole_partWord "THEN" (by decide)) d
    exact (hif.append hthen).append (wholeLabels_outlineAlternative d alternative halternative)
  | .whileLoop condition body _, h => by
    obtain ⟨hcondition, hbody⟩ := List.forall_mem_append.mp (List.forall_mem_cons.mp h).2
    exact (wholeLabels_outline (d + 1) condition hcondition).cons (isWhole_construct .whileLoop) d
      |>.append (wholeLabels_outlineBlock (d + 1) body hbody)
  | .forLoop counter bounds body _, h => by
    obtain ⟨hname, h⟩ := List.forall_mem_cons.mp h
    obtain ⟨hfirst, hbody⟩ := List.forall_mem_append.mp h
    obtain ⟨hcounter, hbounds⟩ := List.forall_mem_append.mp hfirst
    have hfor := (wholeLabels_outlineReference (d + 1) counter hname hcounter).cons
      (isWhole_construct .forLoop) d
    exact (hfor.append (wholeLabels_outlineBounds (d + 1) bounds hbounds)).append
      (wholeLabels_outlineBlock (d + 1) body hbody)
  | .expression value _, h => wholeLabels_outline d value (List.forall_mem_cons.mp h).2

theorem wholeLabels_outlineReference (d : Nat) : (r : Reference Node) → IsWhole r.name →
    (∀ m ∈ innerReference r, m.IsWritten) → WholeLabels (outlineReference d r)
  | ⟨name, [], l⟩, hr, _ => hr.singleton d
  | ⟨name, index :: indices, l⟩, hr, h => by
    obtain ⟨hindex, hindices⟩ := List.forall_mem_append.mp h
    have hname := (wholeLabels_outline (d + 1) index hindex).cons hr (d + 1)
    exact (hname.cons (isWhole_construct .element) d).append
      (wholeLabels_outlineList (d + 1) indices hindices)

theorem wholeLabels_outlineBounds (d : Nat) : (b : Bounds Node) →
    (∀ m ∈ partsBounds b, m.IsWritten) → WholeLabels (outlineBounds d b)
  | ⟨lower, upper, _⟩, h => by
    obtain ⟨hlower, hupper⟩ := List.forall_mem_append.mp h
    have hrange := (wholeLabels_outline (d + 1) lower hlower).cons
      (isWhole_partWord "RANGE" (by decide)) d
    exact hrange.append (wholeLabels_outline (d + 1) upper hupper)

theorem wholeLabels_outlineAlternative (d : Nat) : (a : Option (Alternative Node)) →
    (∀ m ∈ partsAlternative a, m.IsWritten) → WholeLabels (outlineAlternative d a)
  | none, _ => nofun
  | some (.elseIf node), h =>
    (wholeLabels_outline d node h).cons (isWhole_partWord "ELSE" (by decide)) d
  | some (.block body), h =>
    (wholeLabels_outlineBlock (d + 1) body h).cons (isWhole_partWord "ELSE" (by decide)) d

theorem wholeLabels_outlineBlock (d : Nat) : (b : Block Node) →
    (∀ m ∈ partsBlock b, m.IsWritten) → WholeLabels (outlineBlock d b)
  | ⟨statements, _⟩, h => wholeLabels_outlineList d statements h

theorem wholeLabels_outlineRows (d : Nat) : (rows : List (List Node)) →
    (∀ m ∈ partsRows rows, m.IsWritten) → WholeLabels (outlineRows d rows)
  | [], _ => nofun
  | row :: rows, h => by
    obtain ⟨hrow, hrows⟩ := List.forall_mem_append.mp h
    have hvector := (wholeLabels_outlineList (d + 1) row hrow).cons
      (isWhole_partWord "VECTOR" (by decide)) d
    exact hvector.append (wholeLabels_outlineRows d rows hrows)

theorem wholeLabels_outlineList (d : Nat) : (ns : List Node) →
    (∀ m ∈ partsList ns, m.IsWritten) → WholeLabels (outlineList d ns)
  | [], _ => nofun
  | n :: ns, h => by
    obtain ⟨hn, hns⟩ := List.forall_mem_append.mp h
    exact (wholeLabels_outline d n hn).append (wholeLabels_outlineList d ns hns)

end

end Outlines

end Node

namespace Viewer.Highlight

section Guides

variable {l : List Char} {e : Entry} {es : List Entry}

theorem guideCount_guides (hl : l.head? ≠ some '|') (d : Nat) : guideCount (guides d ++ l) = d := by
  induction d with
  | zero =>
    rw [guides, List.nil_append]
    unfold guideCount
    split
    next => exact absurd rfl hl
    next => rfl
  | succ d ih => exact congrArg (· + 1) ih

theorem guides_eq (d : Nat) : guides d = (List.replicate d Entry.guide.toList).flatten := by
  induction d with
  | zero => rfl
  | succ d ih =>
    rw [List.replicate_succ, List.flatten_cons, ← ih]
    rfl

theorem length_guides (d : Nat) : (guides d).length = Entry.guide.length * d := by
  simp [guides_eq, Nat.mul_comm, String.length_toList]

theorem carriageReturn_notMem_guides (d : Nat) : '\r' ∉ guides d := by
  induction d with
  | zero => exact List.not_mem_nil
  | succ d ih => simpa [guides] using ih

theorem outline_entry (h : IsWhole e.label) :
    outline e.text.toList =
      [⟨(List.replicate e.depth Entry.guide.toList).flatten, .ofForeground Palette.plainBorder⟩,
        ⟨e.label.toList, labelStyle e.label.toList⟩] := by
  rw [outline, Entry.toList_text, guideCount_guides h.unguided, ← length_guides, List.take_left,
    List.drop_left, guides_eq]

theorem isLine_entry (h : IsWhole e.label) : Text.IsLine e.text.toList := by
  rw [Entry.toList_text]
  constructor
  · rw [List.mem_append, not_or]
    exact ⟨lineBreak_notMem_guides e.depth, h.line⟩
  · rw [List.getLast?_append]
    intro hlast
    rcases Option.or_eq_some_iff.mp hlast with hlabel | ⟨-, hguides⟩
    · exact h.last hlabel
    · exact carriageReturn_notMem_guides e.depth (List.mem_of_getLast? hguides)

theorem lines_unlines (h : WholeLabels es) :
    Text.lines (Entry.unlines es).toList = es.map (·.text.toList) := by
  induction es with
  | nil => rfl
  | cons e es ih =>
    obtain ⟨he, hes⟩ := List.forall_mem_cons.mp h
    rw [toList_unlines_cons, Text.lines_append_lineBreak (isLine_entry he), ih hes, List.map_cons]

end Guides

end Viewer.Highlight

namespace Program

open Viewer

variable {cs : List Char} {p : Program}

theorem isWritten_of_ofText (h : ofText cs = .ok p) : ∀ n ∈ p.parts, n.IsWritten := by
  intro n hn
  have hspelled := isSpelled_of_ofText h n hn
  cases n with
  | integer | float | string | reference | assignment | forLoop =>
    obtain ⟨us, hus⟩ := hspelled
    exact isWhole_of_lexeme hus
  | instruction => exact hspelled
  | _ => trivial

/-- The lines of the outline of a text's program are those that were written, and each is shown as
its guides and its label. -/
theorem outlineText_readsBack (h : ofText cs = .ok p) :
    Text.lines p.outlineText.toList = (Node.outlineBlock 0 p).map (·.text.toList) ∧
    (Text.lines p.outlineText.toList).map Highlight.outline =
      (Node.outlineBlock 0 p).map fun e =>
        [⟨(List.replicate e.depth Entry.guide.toList).flatten, .ofForeground Palette.plainBorder⟩,
          ⟨e.label.toList, Highlight.labelStyle e.label.toList⟩] := by
  have hwhole := Node.wholeLabels_outlineBlock 0 p (isWritten_of_ofText h)
  have hlines := Highlight.lines_unlines hwhole
  refine ⟨hlines, ?_⟩
  rw [outlineText, hlines, List.map_map]
  exact List.map_congr_left fun e he => Highlight.outline_entry (hwhole e he)

def guideText : List Char := "x = \"|  \r\";".toList

def guideProgram : Program :=
  ⟨[.assignment ⟨"x", [], ⟨1, 1⟩⟩ .plain (.string "|  \r" ⟨1, 5⟩) ⟨1, 3⟩], ⟨1, 1⟩⟩

theorem ofText_guideText : ofText guideText = .ok guideProgram := by
  have ht : (Scan.ofText guideText).tokens =
      [⟨.name "x", ⟨1, 1⟩⟩, ⟨.symbol (.assign .plain), ⟨1, 3⟩⟩, ⟨.string "|  \r", ⟨1, 5⟩⟩,
        ⟨.symbol .semicolon, ⟨1, 11⟩⟩, ⟨.endOfInput, ⟨1, 12⟩⟩] := by
    decide +kernel
  rw [ofText, ht]
  rfl

theorem outlineText_readsBack_guide :
    ofText guideText = .ok guideProgram ∧
      (Text.lines guideProgram.outlineText.toList).map Highlight.outline =
        [("", "="), ("|  ", "x"), ("|  ", "\"|  \r\"")].map fun l =>
          [⟨l.1.toList, .ofForeground Palette.plainBorder⟩,
            ⟨l.2.toList, Highlight.labelStyle l.2.toList⟩] := by
  refine ⟨ofText_guideText, (outlineText_readsBack ofText_guideText).2.trans ?_⟩
  rfl

end Program

end MatrixLang
