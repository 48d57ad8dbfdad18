import MatrixLang.Proofs.Lexing.Lexeme

/-! # The longest lexeme

Each scanner takes the longest lexeme that the text starts with, and skips a character only where no
lexeme starts. The first character tells which scanner a lexeme belongs to.
-/

namespace MatrixLang

section Prefix

variable {p : Char → Bool} {us vs cs : List Char} {d : Char}

theorem forall_mem_takeWhile (p : Char → Bool) (cs : List Char) :
    ∀ c ∈ cs.takeWhile p, p c = true :=
  List.all_eq_true.mp List.all_takeWhile

theorem prefix_takeWhile_of_forall (h : us <+: cs) (hp : ∀ u ∈ us, p u = true) :
    us <+: cs.takeWhile p := by
  obtain ⟨vs, rfl⟩ := h
  rw [List.takeWhile_append_of_pos hp]
  exact List.prefix_append ..

/-- A prefix that goes past the characters of a class shows where these end. -/
theorem takeWhile_eq_of_prefix (h : us ++ d :: vs <+: cs) (hp : ∀ u ∈ us, p u = true)
    (hd : p d = false) : cs.takeWhile p = us ∧ d :: vs <+: cs.dropWhile p := by
  obtain ⟨ws, rfl⟩ := h
  rw [List.append_assoc, List.takeWhile_append_of_pos hp, List.dropWhile_append_of_pos hp]
  simp [hd]

end Prefix

section Classes

variable {c : Char}

theorem startsName_eq_true_iff : Piece.startsName c = true ↔ c.isAlpha = true ∨ c = '_' := by
  simp [Piece.startsName]

theorem continuesName_eq_true_iff :
    Piece.continuesName c = true ↔ c.isAlphanum = true ∨ c = '_' := by
  simp [Piece.continuesName]

theorem not_isAlpha_of_isDigit (h : c.isDigit = true) : ¬ c.isAlpha = true := by
  have h9 : c.val ≤ '9'.val := of_decide_eq_true ((Bool.and_eq_true _ _).mp h).2
  intro ha
  rcases (Bool.or_eq_true _ _).mp ha with hu | hl
  · have hA : 'A'.val ≤ c.val := (of_decide_eq_true hu).1
    exact absurd (UInt32.le_trans hA h9) (by decide)
  · have ha : 'a'.val ≤ c.val := of_decide_eq_true ((Bool.and_eq_true _ _).mp hl).1
    exact absurd (UInt32.le_trans ha h9) (by decide)

theorem startsName_eq_false_of_isDigit (h : c.isDigit = true) : Piece.startsName c = false := by
  rw [Bool.eq_false_iff, ne_eq, startsName_eq_true_iff]
  rintro (ha | rfl)
  · exact not_isAlpha_of_isDigit h ha
  · simp at h

theorem IsWord.of_startsName {cs : List Char} (hc : Piece.startsName c = true)
    (hs : cs.all Piece.continuesName = true) : IsWord (c :: cs) :=
  .mk (startsName_eq_true_iff.mp hc) fun d hd =>
    continuesName_eq_true_iff.mp (List.all_eq_true.mp hs d hd)

theorem Keyword.isWord_text (w : Keyword) : IsWord w.text.toList := by
  cases w with
  | instruction i => cases i <;> exact .of_startsName (by decide) (by decide)
  | builtin b => cases b <;> exact .of_startsName (by decide) (by decide)
  | _ => exact .of_startsName (by decide) (by decide)

theorem Symbol.text_cases (m : Symbol) :
    (∃ c, m.text.toList = [c] ∧ Piece.singleSymbol? c = some m) ∨
      ∃ c d, m.text.toList = [c, d] ∧ Piece.pairSymbol? c d = some m := by
  cases m with
  | binary op =>
    rcases op with op | op
    · cases op <;> exact .inl ⟨_, rfl, rfl⟩
    · cases op <;> exact .inr ⟨_, _, rfl, rfl⟩
  | assign op =>
    rcases op with _ | op
    · exact .inl ⟨_, rfl, rfl⟩
    · cases op <;> exact .inr ⟨_, _, rfl, rfl⟩
  | compare c =>
    cases c with
    | less | greater => exact .inl ⟨_, rfl, rfl⟩
    | _ => exact .inr ⟨_, _, rfl, rfl⟩
  | _ => exact .inl ⟨_, rfl, rfl⟩

/-- A character that no other lexeme than a symbol starts with. -/
structure IsMark (c : Char) : Prop where
  isDigit : c.isDigit = false
  startsName : Piece.startsName c = false
  ne_quote : c ≠ '"'

variable {d : Char} {m : Symbol}

theorem text_of_singleSymbol? (h : Piece.singleSymbol? c = some m) :
    m.text.toList = [c] ∧ IsMark c ∧ c ≠ '.' := by
  unfold Piece.singleSymbol? at h
  split at h <;> cases h <;> exact ⟨rfl, ⟨rfl, rfl, by decide⟩, by decide⟩

theorem text_of_pairSymbol? (h : Piece.pairSymbol? c d = some m) :
    m.text.toList = [c, d] ∧ IsMark c ∧ d.isDigit = false := by
  unfold Piece.pairSymbol? at h
  split at h <;> cases h <;> exact ⟨rfl, ⟨rfl, rfl, by decide⟩, rfl⟩

end Classes

section Openings

/-- What may follow the first character of a lexeme. -/
inductive Opening : Char → List Char → Prop
  | numeral {c us} : c.isDigit = true → IsNumeral (c :: us) → Opening c us
  | float {c us ds fs es x} : c.isDigit = true → c :: us = ds ++ '.' :: (fs ++ es) →
      (∀ d ∈ ds, d.isDigit = true) → (∀ f ∈ fs, f.isDigit = true) → Exponent es x → Opening c us
  | fraction {fs es x} : IsNumeral fs → Exponent es x → Opening '.' (fs ++ es)
  | string {cs} : '"' ∉ cs → '\n' ∉ cs → Opening '"' (cs ++ ['"'])
  | word {c us} : Piece.startsName c = true → (∀ u ∈ us, Piece.continuesName u = true) →
      Opening c us
  | single {c m} : Piece.singleSymbol? c = some m → Opening c []
  | pair {c d m} : Piece.pairSymbol? c d = some m → Opening c [d]

theorem IsNumeral.exists_cons {ds : List Char} (h : IsNumeral ds) :
    ∃ c us, ds = c :: us ∧ c.isDigit = true := by
  cases ds with
  | nil => exact absurd rfl h.1
  | cons c us => exact ⟨c, us, rfl, h.2 c List.mem_cons_self⟩

theorem IsWord.opening {us : List Char} (h : IsWord us) : ∃ c vs, us = c :: vs ∧ Opening c vs := by
  cases h with
  | mk hc hcs =>
    exact ⟨_, _, rfl, .word (startsName_eq_true_iff.mpr hc)
      fun u hu => continuesName_eq_true_iff.mpr (hcs u hu)⟩

theorem Lexeme.opening {k : Kind} {us : List Char} (h : Lexeme k us) :
    ∃ c vs, us = c :: vs ∧ Opening c vs := by
  cases h with
  | integer hd =>
    obtain ⟨c, vs, rfl, hc⟩ := hd.exists_cons
    exact ⟨c, vs, rfl, .numeral hc hd⟩
  | @float ds fs es x hd hf he =>
    obtain ⟨c, vs, rfl, hc⟩ := hd.exists_cons
    exact ⟨c, vs ++ '.' :: (fs ++ es), by simp, .float hc (List.cons_append ..).symm hd.2 hf he⟩
  | fraction hf he => exact ⟨'.', _, rfl, .fraction hf he⟩
  | string hq hn => exact ⟨'"', _, rfl, .string hq hn⟩
  | name hw => exact hw.opening
  | @keyword w => exact w.isWord_text.opening
  | @symbol m =>
    rcases m.text_cases with ⟨c, h, hm⟩ | ⟨c, d, h, hm⟩
    · exact ⟨c, [], h, .single hm⟩
    · exact ⟨c, [d], h, .pair hm⟩

theorem Lexeme.opening_of_prefix {k : Kind} {us cs : List Char} {c : Char} (h : Lexeme k us)
    (hp : us <+: c :: cs) : ∃ vs, us = c :: vs ∧ vs <+: cs ∧ Opening c vs := by
  obtain ⟨d, vs, rfl, ho⟩ := h.opening
  obtain ⟨rfl, hv⟩ := List.cons_prefix_cons.mp hp
  exact ⟨vs, rfl, hv, ho⟩

end Openings

section Inversion

variable {c : Char} {us rest : List Char}

theorem Opening.number (h : Opening c us) (hc : c.isDigit = true) :
    IsNumeral (c :: us) ∨ ∃ ds fs es x, c :: us = ds ++ '.' :: (fs ++ es) ∧
      (∀ d ∈ ds, d.isDigit = true) ∧ (∀ f ∈ fs, f.isDigit = true) ∧ Exponent es x := by
  cases h with
  | numeral _ hn => exact .inl hn
  | float _ heq hd hf he => exact .inr ⟨_, _, _, _, heq, hd, hf, he⟩
  | fraction => simp at hc
  | string => simp at hc
  | word hs => simp [startsName_eq_false_of_isDigit hc] at hs
  | single hm => simp [(text_of_singleSymbol? hm).2.1.isDigit] at hc
  | pair hm => simp [(text_of_pairSymbol? hm).2.1.isDigit] at hc

theorem Opening.quoted (h : Opening '"' us) :
    ∃ cs, us = cs ++ ['"'] ∧ '"' ∉ cs ∧ '\n' ∉ cs := by
  cases h with
  | string hq hn => exact ⟨_, rfl, hq, hn⟩
  | numeral hd => simp at hd
  | float hd => simp at hd
  | word hs => simp [Piece.startsName] at hs
  | single hm => exact absurd rfl (text_of_singleSymbol? hm).2.1.ne_quote
  | pair hm => exact absurd rfl (text_of_pairSymbol? hm).2.1.ne_quote

theorem Opening.named (h : Opening c us) (hc : Piece.startsName c = true) :
    ∀ u ∈ us, Piece.continuesName u = true := by
  cases h with
  | word _ hu => exact hu
  | numeral hd => simp [startsName_eq_false_of_isDigit hd] at hc
  | float hd => simp [startsName_eq_false_of_isDigit hd] at hc
  | fraction => simp [Piece.startsName] at hc
  | string => simp [Piece.startsName] at hc
  | single hm => simp [(text_of_singleSymbol? hm).2.1.startsName] at hc
  | pair hm => simp [(text_of_pairSymbol? hm).2.1.startsName] at hc

theorem Opening.pointed (h : Opening '.' us) :
    (∃ fs es x, us = fs ++ es ∧ IsNumeral fs ∧ Exponent es x) ∨
      ∃ d m, us = [d] ∧ Piece.pairSymbol? '.' d = some m ∧ d.isDigit = false := by
  cases h with
  | fraction hf he => exact .inl ⟨_, _, _, rfl, hf, he⟩
  | pair hm => exact .inr ⟨_, _, rfl, hm, (text_of_pairSymbol? hm).2.2⟩
  | numeral hd => simp at hd
  | float hd => simp at hd
  | word hs => simp [Piece.startsName] at hs
  | single hm => exact absurd rfl (text_of_singleSymbol? hm).2.2

theorem Opening.marked (h : Opening c us) (hc : IsMark c) (hp : c ≠ '.') :
    us = [] ∧ (Piece.singleSymbol? c).isSome = true ∨
      ∃ d m, us = [d] ∧ Piece.pairSymbol? c d = some m := by
  cases h with
  | single hm => exact .inl ⟨rfl, Option.isSome_of_eq_some hm⟩
  | pair hm => exact .inr ⟨_, _, rfl, hm⟩
  | numeral hd => simp [hc.isDigit] at hd
  | float hd => simp [hc.isDigit] at hd
  | fraction => exact absurd rfl hp
  | string => exact absurd rfl hc.ne_quote
  | word hs => simp [hc.startsName] at hs

/-- A string at the front of the text ends at the first quote, with no line break before it. -/
theorem Opening.eq_of_quoted (h : Opening '"' us) (hu : us <+: rest) :
    us = rest.takeWhile (fun c => c != '"' && c != '\n') ++ ['"'] ∧
      ∃ tail, rest.dropWhile (fun c => c != '"' && c != '\n') = '"' :: tail := by
  obtain ⟨cs, rfl, hq, hn⟩ := h.quoted
  have hcs : ∀ c ∈ cs, (c != '"' && c != '\n') = true := by
    intro c hc
    simp only [Bool.and_eq_true, bne_iff_ne]
    exact ⟨fun h => hq (h ▸ hc), fun h => hn (h ▸ hc)⟩
  obtain ⟨ht, tail, htail⟩ := takeWhile_eq_of_prefix hu hcs rfl
  exact ⟨by rw [ht], tail, htail.symm⟩

/-- A lexeme that starts with a mark is that mark or a pair, unless it is a fraction. -/
theorem Opening.symbol (h : Opening c us) (hc : IsMark c)
    (hp : c = '.' → Piece.startsWithDigit rest = false) (hu : us <+: rest) :
    us = [] ∧ (Piece.singleSymbol? c).isSome = true ∨
      ∃ d m, us = [d] ∧ rest.head? = some d ∧ Piece.pairSymbol? c d = some m := by
  have hhead {d} (hd : [d] <+: rest) : rest.head? = some d := by
    obtain ⟨ws, rfl⟩ := hd
    rfl
  by_cases hcp : c = '.'
  · subst hcp
    rcases h.pointed with ⟨fs, es, x, rfl, hf, _⟩ | ⟨d, m, rfl, hm, _⟩
    · obtain ⟨f, gs, rfl, hd⟩ := hf.exists_cons
      obtain ⟨ws, rfl⟩ := hu
      simp [Piece.startsWithDigit, hd] at hp
    · exact .inr ⟨d, m, rfl, hhead hu, hm⟩
  · rcases h.marked hc hcp with h | ⟨d, m, rfl, hm⟩
    · exact .inl h
    · exact .inr ⟨d, m, rfl, hhead hu, hm⟩

end Inversion

namespace Piece

section Numbers

variable {c e : Char} {ds us vs cs fs es s rest : List Char} {k : Kind} {x : Int}

theorem isNumeral_takeWhile (hc : c.isDigit = true) (rest : List Char) :
    IsNumeral (c :: rest.takeWhile Char.isDigit) :=
  ⟨List.cons_ne_nil c _, List.forall_mem_cons.mpr ⟨hc, forall_mem_takeWhile _ rest⟩⟩

theorem exponentValue?_of_isNumeral (h : IsNumeral us) :
    Binary64.exponentValue? us = some (Binary64.digitsValue us : Int) ∧
      Binary64.exponentValue? ('+' :: us) = some (Binary64.digitsValue us : Int) ∧
      Binary64.exponentValue? ('-' :: us) = some (-Binary64.digitsValue us : Int) := by
  have hn : ¬ (us.isEmpty = true ∨ ¬ us.all Char.isDigit = true) := by
    simpa using ⟨h.1, h.2⟩
  refine ⟨?_, if_neg hn, if_neg hn⟩
  obtain ⟨c, vs, rfl, hc⟩ := h.exists_cons
  unfold Binary64.exponentValue?
  split
  · simp_all
  · simp_all
  · exact if_neg hn

theorem leadingSign_cases (cs : List Char) :
    leadingSign cs = [] ∨ leadingSign cs = ['+'] ∨ leadingSign cs = ['-'] := by
  unfold leadingSign
  split <;> simp

theorem exponent_leadingExponent (cs : List Char) :
    Exponent (leadingExponent cs)
      ((Binary64.exponentValue? ((leadingExponent cs).drop 1)).getD 0) := by
  cases cs with
  | nil => exact .missing
  | cons e cs =>
    simp only [leadingExponent]
    split
    next h =>
      obtain ⟨he, hd⟩ := h
      have hn : IsNumeral ((cs.drop (leadingSign cs).length).takeWhile Char.isDigit) :=
        ⟨hd, forall_mem_takeWhile _ _⟩
      generalize (cs.drop (leadingSign cs).length).takeWhile Char.isDigit = ds at hn ⊢
      obtain ⟨h₀, h₁, h₂⟩ := exponentValue?_of_isNumeral hn
      rcases leadingSign_cases cs with hs | hs | hs
      · simpa [hs, h₀] using Exponent.unsigned he hn
      · simpa [hs, h₁] using Exponent.positive he hn
      · simpa [hs, h₂] using Exponent.negative he hn
    next => exact .missing

theorem length_le_of_sign (he : e = 'e' ∨ e = 'E') (hd : IsNumeral ds)
    (hs : leadingSign cs = s) (hp : ds <+: cs.drop s.length) :
    (e :: s ++ ds).length ≤ (leadingExponent (e :: cs)).length := by
  have hle := (prefix_takeWhile_of_forall hp hd.2).length_le
  have hn : (cs.drop s.length).takeWhile Char.isDigit ≠ [] := by
    intro h
    rw [h] at hle
    exact hd.1 (List.eq_nil_of_length_eq_zero (Nat.le_zero.mp hle))
  simp only [leadingExponent, hs, he, hn, ne_eq, not_false_iff, and_self, if_true,
    List.length_cons, List.length_append]
  omega

theorem leadingSign_of_isDigit (hc : c.isDigit = true) (cs : List Char) :
    leadingSign (c :: cs) = [] := by
  unfold leadingSign
  split <;> simp_all

theorem length_le_leadingExponent (he : Exponent es x) (hp : es <+: cs) :
    es.length ≤ (leadingExponent cs).length := by
  cases he with
  | missing => exact Nat.zero_le _
  | unsigned he hd =>
    obtain ⟨c, us, rfl, hc⟩ := hd.exists_cons
    obtain ⟨vs, rfl⟩ := hp
    exact length_le_of_sign he hd (leadingSign_of_isDigit hc _) (List.prefix_append ..)
  | positive he hd =>
    obtain ⟨vs, rfl⟩ := hp
    exact length_le_of_sign (s := ['+']) he hd rfl (List.prefix_append ..)
  | negative he hd =>
    obtain ⟨vs, rfl⟩ := hp
    exact length_le_of_sign (s := ['-']) he hd rfl (List.prefix_append ..)

/-- No fraction with its exponent goes further than the digits and the exponent that are taken. -/
theorem length_le_of_fraction (hf : ∀ f ∈ fs, f.isDigit = true) (he : Exponent es x)
    (hp : fs ++ es <+: cs) :
    (fs ++ es).length ≤
      (cs.takeWhile Char.isDigit ++ leadingExponent (cs.dropWhile Char.isDigit)).length := by
  cases es with
  | nil =>
    rw [List.append_nil] at hp ⊢
    exact Nat.le_trans (prefix_takeWhile_of_forall hp hf).length_le (by simp)
  | cons e es =>
    have hn : e.isDigit = false := by
      cases he with
      | unsigned h | positive h | negative h => rcases h with rfl | rfl <;> rfl
    obtain ⟨ht, hd⟩ := takeWhile_eq_of_prefix hp hf hn
    rw [List.length_append, List.length_append, ht]
    exact Nat.add_le_add_left (length_le_leadingExponent he hd) _

end Numbers

/-- What a scanner makes of the front of the text `cs`: the longest lexeme, or nothing. -/
inductive Munches (cs : List Char) : Piece → Prop
  | lexeme {k us} : Lexeme k us → (∀ k' vs, Lexeme k' vs → vs <+: cs → vs.length ≤ us.length) →
      Munches cs (.lexeme k us)
  | skipped {c} : (∀ k us, Lexeme k us → ¬ us <+: cs) → Munches cs (.skipped c)

section Scanners

variable {c : Char} {rest : List Char}

/-- Digits in front of a point are all the digits that the text starts with. -/
theorem digits_eq_of_point {ds vs : List Char} (hc : c.isDigit = true)
    (hd : ∀ d ∈ ds, d.isDigit = true) (hp : ds ++ '.' :: vs <+: c :: rest) :
    ds = c :: rest.takeWhile Char.isDigit ∧ '.' :: vs <+: rest.dropWhile Char.isDigit := by
  have h := takeWhile_eq_of_prefix hp hd rfl
  rw [List.takeWhile_cons_of_pos hc, List.dropWhile_cons_of_pos hc] at h
  exact ⟨h.1.symm, h.2⟩

theorem munches_number (hc : c.isDigit = true) : Munches (c :: rest) (number c rest) := by
  have hw := isNumeral_takeWhile hc rest
  have hnumeral {vs} (h : IsNumeral vs) (hp : vs <+: c :: rest) :
      vs.length ≤ (c :: rest.takeWhile Char.isDigit).length := by
    have hle := (prefix_takeWhile_of_forall hp h.2).length_le
    rwa [List.takeWhile_cons_of_pos hc] at hle
  unfold number
  dsimp only
  split
  next more hm =>
    refine .lexeme (.float hw (forall_mem_takeWhile _ _) (exponent_leadingExponent _)) ?_
    intro k vs h hp
    obtain ⟨us, rfl, -, ho⟩ := h.opening_of_prefix hp
    rcases ho.number hc with hn | ⟨ds, fs, es, x, heq, hd, hf, he⟩
    · refine Nat.le_trans (hnumeral hn hp) ?_
      simp
    · rw [heq] at hp ⊢
      obtain ⟨rfl, hq⟩ := digits_eq_of_point hc hd hp
      rw [hm] at hq
      have hle := length_le_of_fraction hf he (List.cons_prefix_cons.mp hq).2
      simp only [List.length_append, List.length_cons] at hle ⊢
      omega
  next hn =>
    refine .lexeme (.integer hw rfl) ?_
    intro k vs h hp
    obtain ⟨us, rfl, -, ho⟩ := h.opening_of_prefix hp
    rcases ho.number hc with hn | ⟨ds, fs, es, x, heq, hd, hf, he⟩
    · exact hnumeral hn hp
    · rw [heq] at hp
      obtain ⟨vs, hvs⟩ := (digits_eq_of_point hc hd hp).2
      exact absurd hvs.symm (hn _)

theorem munches_fraction (hr : startsWithDigit rest = true) :
    Munches ('.' :: rest) (float [] rest) := by
  have hn : IsNumeral (rest.takeWhile Char.isDigit) := by
    refine ⟨?_, forall_mem_takeWhile _ _⟩
    cases rest with
    | nil => simp [startsWithDigit] at hr
    | cons d rest => simp [show d.isDigit = true from hr]
  refine .lexeme (.fraction hn (exponent_leadingExponent _)) ?_
  intro k vs h hp
  obtain ⟨us, rfl, hu, ho⟩ := h.opening_of_prefix hp
  rcases ho.pointed with ⟨fs, es, x, rfl, hf, he⟩ | ⟨d, m, rfl, -, hd⟩
  · have hle := length_le_of_fraction hf.2 he hu
    simpa using hle
  · obtain ⟨ws, rfl⟩ := hu
    simp [startsWithDigit, hd] at hr

theorem munches_word (hc : startsName c = true) : Munches (c :: rest) (word c rest) := by
  have hlongest k vs (h : Lexeme k vs) (hp : vs <+: c :: rest) :
      vs.length ≤ (c :: rest.takeWhile continuesName).length := by
    obtain ⟨us, rfl, hu, ho⟩ := h.opening_of_prefix hp
    exact Nat.succ_le_succ (prefix_takeWhile_of_forall hu (ho.named hc)).length_le
  have hw : IsWord (c :: rest.takeWhile continuesName) :=
    .mk (startsName_eq_true_iff.mp hc) fun d hd =>
      continuesName_eq_true_iff.mp (forall_mem_takeWhile _ _ d hd)
  unfold word
  dsimp only
  split
  next w hk =>
    have ht := List.find?_some hk
    rw [beq_iff_eq] at ht
    have ht' : w.text.toList = c :: rest.takeWhile continuesName := by simp [ht]
    exact .lexeme (ht' ▸ .keyword) hlongest
  next hk =>
    refine .lexeme (.name hw fun w ht => ?_) hlongest
    refine absurd ?_ (List.find?_eq_none.mp hk w w.mem_all)
    simp [← ht]

theorem munches_string : Munches ('"' :: rest) (string rest) := by
  have hinside : ∀ c ∈ rest.takeWhile (fun c => c != '"' && c != '\n'), c ≠ '"' ∧ c ≠ '\n' := by
    intro c hc
    simpa using forall_mem_takeWhile _ _ c hc
  unfold string
  dsimp only
  rw [drop_takeWhile]
  split
  next tail h =>
    refine .lexeme (.string (fun hm => (hinside _ hm).1 rfl) fun hm => (hinside _ hm).2 rfl) ?_
    intro k vs h hp
    obtain ⟨us, rfl, hu, ho⟩ := h.opening_of_prefix hp
    rw [(ho.eq_of_quoted hu).1]
    exact Nat.le_refl _
  next h =>
    refine .skipped fun k vs hk hp => ?_
    obtain ⟨us, rfl, hu, ho⟩ := hk.opening_of_prefix hp
    obtain ⟨tail, ht⟩ := (ho.eq_of_quoted hu).2
    exact h tail ht

theorem munches_symbol (hc : IsMark c) (hp : c = '.' → startsWithDigit rest = false) :
    Munches (c :: rest) (symbol c rest) := by
  unfold symbol
  split
  next m hm =>
    obtain ⟨d, hd, hm⟩ := Option.bind_eq_some_iff.mp hm
    obtain ⟨ds, rfl⟩ : ∃ ds, rest = d :: ds := by
      cases rest with
      | nil => simp at hd
      | cons e ds => exact ⟨ds, by simpa using hd⟩
    refine .lexeme ((text_of_pairSymbol? hm).1 ▸ .symbol) ?_
    intro k vs h hv
    obtain ⟨us, rfl, hu, ho⟩ := h.opening_of_prefix hv
    rcases ho.symbol hc hp hu with ⟨rfl, _⟩ | ⟨d, m, rfl, _⟩
    · simp
    · simp
  next hm =>
    have hnone {us} (hu : us <+: rest) (ho : Opening c us) :
        us = [] ∧ (singleSymbol? c).isSome = true := by
      rcases ho.symbol hc hp hu with h | ⟨d, m, _, hd, h⟩
      · exact h
      · simp [hd, h] at hm
    split
    next m hs =>
      refine .lexeme ((text_of_singleSymbol? hs).1 ▸ .symbol) ?_
      intro k vs h hv
      obtain ⟨us, rfl, hu, ho⟩ := h.opening_of_prefix hv
      obtain ⟨rfl, _⟩ := hnone hu ho
      exact Nat.le_refl _
    next hs =>
      refine .skipped fun k vs h hv => ?_
      obtain ⟨us, rfl, hu, ho⟩ := h.opening_of_prefix hv
      simpa [hs] using (hnone hu ho).2

end Scanners

section Cutting

variable {c : Char} {rest : List Char}

theorem isBlank_eq_true_iff : isBlank c = true ↔ c ∈ [' ', '\t', '\r', '\n'] := by
  simp [isBlank, or_assoc]

theorem text_first_prefix (c : Char) (rest : List Char) : (first c rest).text <+: c :: rest := by
  obtain ⟨ds, h, hd⟩ := text_first c rest
  rw [h]
  exact List.cons_prefix_cons.mpr ⟨rfl, hd⟩

/-- The first character chooses the scanner that its lexeme belongs to. -/
theorem munches_first (hb : ¬ isBlank c = true) (hc : c ≠ '#') :
    Munches (c :: rest) (first c rest) := by
  unfold first
  rw [if_neg hb, if_neg hc]
  split
  next h => exact h ▸ munches_string
  next hq =>
  split
  next h => exact munches_number h
  next hd =>
  split
  next h =>
    obtain ⟨rfl, hr⟩ := h
    exact munches_fraction hr
  next hp =>
  split
  next h => exact munches_word h
  next hs =>
    refine munches_symbol ⟨by simpa using hd, by simpa using hs, hq⟩ fun h => ?_
    simpa [h] using hp

theorem cut_first (c : Char) (rest : List Char) : Cut (c :: rest) (first c rest) := by
  by_cases hb : isBlank c = true
  · rw [first, if_pos hb]
    exact .blank (isBlank_eq_true_iff.mp hb)
  by_cases hc : c = '#'
  · subst hc
    rw [first, if_neg hb, if_pos rfl]
    conv_lhs => rw [← List.takeWhile_append_dropWhile (p := (· != '\n')) (l := rest)]
    refine .comment (fun h => ?_) fun d hd => ?_
    · simpa using forall_mem_takeWhile _ _ _ h
    · have h := List.head?_dropWhile_not (· != '\n') rest
      rw [hd] at h
      simpa using h
  have hm : Munches (c :: rest) (first c rest) := munches_first hb hc
  have hp := text_first_prefix c rest
  obtain ⟨ds, ht, -⟩ := text_first c rest
  cases hf : first c rest with
  | blank d => rw [hf] at hm; cases hm
  | comment us => rw [hf] at hm; cases hm
  | lexeme k us =>
    rw [hf] at hm hp
    cases hm with
    | lexeme hk hl => exact .lexeme ⟨hk, hp, hl⟩
  | skipped d =>
    rw [hf] at hm ht
    obtain ⟨rfl, -⟩ := List.cons.inj ht
    cases hm with
    | skipped hn =>
      refine .skipped ?_ hn
      simp only [isBlank_eq_true_iff, List.mem_cons] at hb ⊢
      tauto

/-- Each piece of a text is the first of what the pieces in front of it leave. -/
theorem cuts_ofText (cs : List Char) : Cuts cs (ofText cs) := by
  fun_induction ofText cs with
  | case1 => exact .nil
  | case2 c rest ih =>
    have ht := text_first_append c rest
    have hc := cut_first c rest
    rw [← ht] at hc ⊢
    exact .cons hc ih

end Cutting

end Piece

end MatrixLang
