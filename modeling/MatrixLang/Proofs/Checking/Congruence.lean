import MatrixLang.Proofs.Layout.Moved
import MatrixLang.Typing.Check

/-! # What all checks respect

Every check is built from a few basic ones by sequencing and by entering loop bodies and blocks. A
relation between checks that these respect therefore relates the checks of a tree at two series of
places, and those of any tree to itself. The induction over trees is done here once for all such
relations.
-/

namespace MatrixLang

namespace Check

/-- A relation between checks over two kinds of environment that the basic checks respect. -/
structure Congruence {ε ε' : Type} [Environment ε] [Environment ε']
    (R : {α : Type} → Check ε α → Check ε' α → Prop) : Prop where
  pure {α : Type} (a : α) : R (Pure.pure a : Check ε α) (Pure.pure a)
  bind {α β : Type} {c : Check ε α} {d : Check ε' α} {f : α → Check ε β} {g : α → Check ε' β} :
    R c d → (∀ a, R (f a) (g a)) → R (c >>= f) (d >>= g)
  report (line : Nat) (v : Violation) : R (report line v) (report line v)
  inLoop : R inLoop inLoop
  find? (name : String) : R (find? name) (find? name)
  bindName (name : String) (type? : Option Ty) : R (bindName name type?) (bindName name type?)
  inBody {α : Type} {c : Check ε α} {d : Check ε' α} : R c d → R (inBody c) (inBody d)
  inBlock {α : Type} {c : Check ε α} {d : Check ε' α} : R c d → R (inBlock c) (inBlock d)

/-- Such a relation between checks that report on lines related by `L`. -/
structure LineCongruence {ε ε' : Type} [Environment ε] [Environment ε'] (L : Nat → Nat → Prop)
    (R : {α : Type} → Check ε α → Check ε' α → Prop) : Prop where
  pure {α : Type} (a : α) : R (Pure.pure a : Check ε α) (Pure.pure a)
  bind {α β : Type} {c : Check ε α} {d : Check ε' α} {f : α → Check ε β} {g : α → Check ε' β} :
    R c d → (∀ a, R (f a) (g a)) → R (c >>= f) (d >>= g)
  report {line line' : Nat} (v : Violation) : L line line' → R (report line v) (report line' v)
  inLoop : R inLoop inLoop
  find? (name : String) : R (find? name) (find? name)
  bindName (name : String) (type? : Option Ty) : R (bindName name type?) (bindName name type?)
  inBody {α : Type} {c : Check ε α} {d : Check ε' α} : R c d → R (inBody c) (inBody d)
  inBlock {α : Type} {c : Check ε α} {d : Check ε' α} : R c d → R (inBlock c) (inBlock d)

/-- Such a relation between checks that look names up only to give the type of a variable and to
assign, and may treat an unbound name in ways of their own. -/
structure NameCongruence {ε ε' : Type} [Environment ε] [Environment ε'] (L : Nat → Nat → Prop)
    (R : {α : Type} → Check ε α → Check ε' α → Prop) : Prop where
  pure {α : Type} (a : α) : R (Pure.pure a : Check ε α) (Pure.pure a)
  bind {α β : Type} {c : Check ε α} {d : Check ε' α} {f : α → Check ε β} {g : α → Check ε' β} :
    R c d → (∀ a, R (f a) (g a)) → R (c >>= f) (d >>= g)
  report {line line' : Nat} (v : Violation) : L line line' → R (report line v) (report line' v)
  inLoop : R inLoop inLoop
  variableType {line line' : Nat} (name : String) : L line line' →
    R (variableType line name) (variableType line' name)
  assigned {line line' : Nat} (name : String) (op : AssignOperator) (value : Option Ty) :
    L line line' → R (assigned line name op value) (assigned line' name op value)
  bindName (name : String) (type? : Option Ty) : R (bindName name type?) (bindName name type?)
  inBody {α : Type} {c : Check ε α} {d : Check ε' α} : R c d → R (inBody c) (inBody d)
  inBlock {α : Type} {c : Check ε α} {d : Check ε' α} : R c d → R (inBlock c) (inBlock d)

theorem relates_ite {ε ε' α : Type} {R : Check ε α → Check ε' α → Prop} {p : Prop} [Decidable p]
    {c c' : Check ε α} {d d' : Check ε' α} (h : R c d) (h' : R c' d') :
    R (if p then c else c') (if p then d else d') := by
  split
  · exact h
  · exact h'

namespace NameCongruence

variable {ε ε' : Type} [Environment ε] [Environment ε'] {L : Nat → Nat → Prop}
  {R : {α : Type} → Check ε α → Check ε' α → Prop} (hR : NameCongruence L R)
  {line line' : Nat} (hline : L line line')

include hR hline

theorem combined (op : BinaryOperator) (left right : Option Ty) :
    R (combined line op left right) (combined line' op left right) := by
  unfold Check.combined
  split
  · split
    · exact hR.pure _
    · exact hR.bind (hR.report _ hline) fun _ => hR.pure _
  · exact hR.bind (hR.report _ hline) fun _ => hR.pure _

theorem transposed (type? : Option Ty) : R (transposed line type?) (transposed line' type?) := by
  unfold Check.transposed
  split
  · exact hR.pure _
  · exact hR.bind (hR.report _ hline) fun _ => hR.pure _

theorem negated (type? : Option Ty) : R (negated line type?) (negated line' type?) := by
  unfold Check.negated
  split
  · exact relates_ite (hR.pure _) (hR.bind (hR.report _ hline) fun _ => hR.pure _)
  · exact hR.bind (hR.report _ hline) fun _ => hR.pure _

theorem requireBoolean (type? : Option Ty) :
    R (requireBoolean line type?) (requireBoolean line' type?) :=
  relates_ite (hR.report _ hline) (hR.pure _)

theorem requireIndex (type? : Option Ty) :
    R (requireIndex line type?) (requireIndex line' type?) := by
  unfold Check.requireIndex
  split
  · exact hR.pure _
  · exact hR.pure _
  · exact hR.report _ hline

end NameCongruence

namespace LineCongruence

variable {ε ε' : Type} [Environment ε] [Environment ε'] {L : Nat → Nat → Prop}
  {R : {α : Type} → Check ε α → Check ε' α → Prop} (hR : LineCongruence L R)

section Names

variable {line line' : Nat} (hline : L line line')

include hR hline

theorem variableType (name : String) : R (variableType line name) (variableType line' name) := by
  refine hR.bind (hR.find? name) fun b? => ?_
  cases b? with
  | none => exact hR.bind (hR.report _ hline) fun _ => hR.pure _
  | some b => exact hR.pure _

theorem assigned (name : String) (op : AssignOperator) (value : Option Ty) :
    R (assigned line name op value) (assigned line' name op value) := by
  unfold Check.assigned
  split
  · exact hR.bindName _ _
  · refine hR.bind (hR.find? name) fun b? => ?_
    cases b? with
    | none => exact hR.report _ hline
    | some b =>
      dsimp only
      split
      · split
        · exact hR.bindName _ _
        · exact hR.report _ hline
      · exact hR.report _ hline

end Names

include hR

/-- Names are looked up by the steps that respect the relation. -/
theorem onNames : NameCongruence L R where
  pure := hR.pure
  bind := hR.bind
  report := hR.report
  inLoop := hR.inLoop
  variableType name hline := hR.variableType hline name
  assigned name op value hline := hR.assigned hline name op value
  bindName := hR.bindName
  inBody := hR.inBody
  inBlock := hR.inBlock

end LineCongruence

section Equal

variable {ε ε' : Type} [Environment ε] [Environment ε']
  {R : {α : Type} → Check ε α → Check ε' α → Prop}

theorem LineCongruence.congruence (hR : LineCongruence Eq R) : Congruence R where
  pure := hR.pure
  bind := hR.bind
  report _ v := hR.report v rfl
  inLoop := hR.inLoop
  find? := hR.find?
  bindName := hR.bindName
  inBody := hR.inBody
  inBlock := hR.inBlock

end Equal

namespace Congruence

variable {ε ε' : Type} [Environment ε] [Environment ε']
  {R : {α : Type} → Check ε α → Check ε' α → Prop} (hR : Congruence R)

include hR

theorem onEqualLines : LineCongruence Eq R where
  pure := hR.pure
  bind := hR.bind
  report v h := h ▸ hR.report _ v
  inLoop := hR.inLoop
  find? := hR.find?
  bindName := hR.bindName
  inBody := hR.inBody
  inBlock := hR.inBlock

theorem combined (line : Nat) (op : BinaryOperator) (left right : Option Ty) :
    R (combined line op left right) (combined line op left right) :=
  hR.onEqualLines.onNames.combined rfl op left right

theorem transposed (line : Nat) (type? : Option Ty) :
    R (transposed line type?) (transposed line type?) :=
  hR.onEqualLines.onNames.transposed rfl type?

theorem negated (line : Nat) (type? : Option Ty) :
    R (negated line type?) (negated line type?) :=
  hR.onEqualLines.onNames.negated rfl type?

theorem requireBoolean (line : Nat) (type? : Option Ty) :
    R (requireBoolean line type?) (requireBoolean line type?) :=
  hR.onEqualLines.onNames.requireBoolean rfl type?

theorem requireIndex (line : Nat) (type? : Option Ty) :
    R (requireIndex line type?) (requireIndex line type?) :=
  hR.onEqualLines.onNames.requireIndex rfl type?

theorem variableType (line : Nat) (name : String) :
    R (variableType line name) (variableType line name) :=
  hR.onEqualLines.variableType rfl name

end Congruence

end Check

namespace Node

open Check

section Places

variable {ε ε' : Type} [Environment ε] [Environment ε'] {L : Nat → Nat → Prop}
  {R : {α : Type} → Check ε α → Check ε' α → Prop} {f g : Location → Location}

theorem isRagged_movedRows (rows : List (List Node)) :
    isRagged (movedRows f rows) = isRagged rows := by
  have hhead : ((movedRows f rows).headD []).length = (rows.headD []).length := by
    cases rows with
    | nil => rfl
    | cons row rows => exact length_movedList row
  rw [isRagged, isRagged, hhead, movedRows_eq_map, List.any_map]
  simp only [Function.comp_def, length_movedList]

theorem extent?_moved (n : Node) : (moved f n).extent? = n.extent? := by
  cases n <;> rfl

theorem mapM_extent?_movedList (ns : List Node) :
    (movedList f ns).mapM extent? = ns.mapM extent? := by
  induction ns with
  | nil => rfl
  | cons n ns ih => simp only [movedList, List.mapM_cons, extent?_moved, ih]

theorem ofSize_movedRows (rows : List (List Node)) :
    Shape.ofSize (movedRows f rows).length ((movedRows f rows).headD []).length =
      .ofSize rows.length (rows.headD []).length := by
  cases rows with
  | nil => rfl
  | cons row rows => simp [movedRows]

theorem line_moved (hL : ∀ l, L (f l).line (g l).line) (n : Node) :
    L (moved f n).line (moved g n).line := by
  rw [line, line, location_moved, location_moved]
  exact hL n.location

mutual

/-- The checks of a tree at two series of places, where related lines belong to related places. -/
theorem check_moved (hR : NameCongruence L R) (hL : ∀ l, L (f l).line (g l).line) :
    ∀ n : Node, R (check (moved f n)) (check (moved g n))
  | .integer _ _ => by simp only [moved, check]; exact hR.pure _
  | .float _ _ => by simp only [moved, check]; exact hR.pure _
  | .string _ _ => by simp only [moved, check]; exact hR.pure _
  | .reference r => by simp only [moved, check]; exact checkReference_moved hR hL r
  | .matrix rows l => by
    simp only [moved, check, isRagged_movedRows, ofSize_movedRows]
    refine relates_ite (hR.bind (hR.report _ (hL l)) fun _ => ?_) ?_
    all_goals exact hR.bind (checkRows_moved hR hL (hL l) rows) fun _ => hR.pure _
  | .builtin _ arguments l => by
    simp only [moved, check, mapM_extent?_movedList]
    refine hR.bind (checkArguments_moved hR hL arguments) fun all => relates_ite ?_ ?_
    · split
      · exact hR.pure _
      · exact hR.bind (hR.report _ (hL l)) fun _ => hR.pure _
    · exact hR.bind (hR.report _ (hL l)) fun _ => hR.pure _
  | .binary op left right l => by
    simp only [moved, check]
    exact hR.bind (check_moved hR hL left) fun _ => hR.bind (check_moved hR hL right) fun _ =>
      hR.combined (hL l) _ _ _
  | .comparison _ left right _ => by
    simp only [moved, check]
    exact hR.bind (check_moved hR hL left) fun _ => hR.bind (check_moved hR hL right) fun _ =>
      hR.pure _
  | .unary .transpose operand l => by
    simp only [moved, check]
    exact hR.bind (check_moved hR hL operand) fun _ => hR.transposed (hL l) _
  | .unary .negate operand l => by
    simp only [moved, check]
    exact hR.bind (check_moved hR hL operand) fun _ => hR.negated (hL l) _
  | .assignment target op value l => by
    simp only [moved, check]
    exact hR.bind (check_moved hR hL value) fun _ =>
      hR.bind (checkAssigned_moved hR hL (hL l) _ _ target) fun _ => hR.pure _
  | .instruction i values l => by
    simp only [moved, check]
    refine hR.bind hR.inLoop fun _ => relates_ite (hR.bind (hR.report _ (hL l)) fun _ => ?_) ?_
    all_goals
      exact hR.bind (checkPayload_moved hR hL values) fun _ =>
        relates_ite (hR.pure _) (hR.bind (hR.report _ (hL l)) fun _ => hR.pure _)
  | .conditional condition consequent alternative _ => by
    simp only [moved, check]
    exact hR.bind (check_moved hR hL condition) fun _ =>
      hR.bind (hR.requireBoolean (line_moved hL condition) _) fun _ =>
      hR.bind (hR.inBlock (checkBlock_moved hR hL consequent)) fun _ =>
      hR.bind (checkAlternative_moved hR hL alternative) fun _ => hR.pure _
  | .whileLoop condition body _ => by
    simp only [moved, check]
    exact hR.bind (check_moved hR hL condition) fun _ =>
      hR.bind (hR.requireBoolean (line_moved hL condition) _) fun _ =>
      hR.bind (hR.inBody (hR.inBlock (checkBlock_moved hR hL body))) fun _ => hR.pure _
  | .forLoop ⟨name, _, _⟩ bounds body _ => by
    simp only [moved, movedReference, check]
    exact hR.bind (checkBounds_moved hR hL bounds) fun _ => hR.bind (hR.bindName _ _) fun _ =>
      hR.bind (hR.inBody (hR.inBlock (checkBlock_moved hR hL body))) fun _ => hR.pure _
  | .expression value _ => by
    simp only [moved, check]
    exact hR.bind (check_moved hR hL value) fun _ => hR.pure _

theorem checkReference_moved (hR : NameCongruence L R) (hL : ∀ l, L (f l).line (g l).line) :
    ∀ r : Reference Node,
      R (checkReference (movedReference f r)) (checkReference (movedReference g r))
  | ⟨name, indices, l⟩ => by
    simp only [movedReference, checkReference]
    exact hR.bind (checkIndices_moved hR hL indices) fun _ => hR.variableType _ (hL l)

theorem checkAssigned_moved (hR : NameCongruence L R) (hL : ∀ l, L (f l).line (g l).line)
    {line line' : Nat} (hline : L line line') (op : AssignOperator) (type? : Option Ty) :
    ∀ r : Reference Node, R (checkAssigned line op type? (movedReference f r))
      (checkAssigned line' op type? (movedReference g r))
  | ⟨name, [], _⟩ => by
    simp only [movedReference, movedList, checkAssigned]
    exact hR.assigned _ _ _ hline
  | ⟨name, index :: indices, l⟩ => by
    simp only [movedReference, movedList, checkAssigned]
    exact hR.bind (check_moved hR hL index) fun _ =>
      hR.bind (hR.requireIndex (line_moved hL index) _) fun _ =>
      hR.bind (checkIndices_moved hR hL indices) fun _ =>
      hR.bind (hR.variableType _ (hL l)) fun _ => relates_ite (hR.report _ hline) (hR.pure _)

theorem checkIndices_moved (hR : NameCongruence L R) (hL : ∀ l, L (f l).line (g l).line) :
    ∀ indices : List Node,
      R (checkIndices (movedList f indices)) (checkIndices (movedList g indices))
  | [] => by simp only [movedList, checkIndices]; exact hR.pure _
  | index :: indices => by
    simp only [movedList, checkIndices]
    exact hR.bind (check_moved hR hL index) fun _ =>
      hR.bind (hR.requireIndex (line_moved hL index) _) fun _ => checkIndices_moved hR hL indices

theorem checkElements_moved (hR : NameCongruence L R) (hL : ∀ l, L (f l).line (g l).line)
    {line line' : Nat} (hline : L line line') (reported : Bool) :
    ∀ elements : List Node, R (checkElements line reported (movedList f elements))
      (checkElements line' reported (movedList g elements))
  | [] => by simp only [movedList, checkElements]; exact hR.pure _
  | element :: elements => by
    simp only [movedList, checkElements]
    exact hR.bind (check_moved hR hL element) fun _ =>
      relates_ite (checkElements_moved hR hL hline reported elements)
        (relates_ite
          (hR.bind (hR.report _ hline) fun _ => checkElements_moved hR hL hline true elements)
          (checkElements_moved hR hL hline true elements))

theorem checkRows_moved (hR : NameCongruence L R) (hL : ∀ l, L (f l).line (g l).line)
    {line line' : Nat} (hline : L line line') :
    ∀ rows : List (List Node),
      R (checkRows line (movedRows f rows)) (checkRows line' (movedRows g rows))
  | [] => by simp only [movedRows, checkRows]; exact hR.pure _
  | row :: rows => by
    simp only [movedRows, checkRows]
    exact hR.bind (checkElements_moved hR hL hline false row) fun _ =>
      checkRows_moved hR hL hline rows

theorem checkArguments_moved (hR : NameCongruence L R) (hL : ∀ l, L (f l).line (g l).line) :
    ∀ arguments : List Node,
      R (checkArguments (movedList f arguments)) (checkArguments (movedList g arguments))
  | [] => by simp only [movedList, checkArguments]; exact hR.pure _
  | argument :: arguments => by
    simp only [movedList, checkArguments]
    exact hR.bind (check_moved hR hL argument) fun _ =>
      hR.bind (checkArguments_moved hR hL arguments) fun _ => hR.pure _

theorem checkPayload_moved (hR : NameCongruence L R) (hL : ∀ l, L (f l).line (g l).line) :
    ∀ values : List Node, R (checkPayload (movedList f values)) (checkPayload (movedList g values))
  | [] => by simp only [movedList, checkPayload]; exact hR.pure _
  | value :: values => by
    simp only [movedList, checkPayload]
    exact hR.bind (check_moved hR hL value) fun _ =>
      relates_ite (hR.pure _) (checkPayload_moved hR hL values)

theorem checkBounds_moved (hR : NameCongruence L R) (hL : ∀ l, L (f l).line (g l).line) :
    ∀ bounds : Bounds Node,
      R (checkBounds (movedBounds f bounds)) (checkBounds (movedBounds g bounds))
  | ⟨lower, upper, l⟩ => by
    simp only [movedBounds, checkBounds]
    exact hR.bind (check_moved hR hL lower) fun _ => hR.bind (check_moved hR hL upper) fun _ =>
      relates_ite (hR.report _ (hL l)) (hR.pure _)

theorem checkAlternative_moved (hR : NameCongruence L R) (hL : ∀ l, L (f l).line (g l).line) :
    ∀ alternative : Option (Alternative Node),
      R (checkAlternative (movedAlternative f alternative))
        (checkAlternative (movedAlternative g alternative))
  | none => by simp only [movedAlternative, checkAlternative]; exact hR.pure _
  | some (.elseIf node) => by
    simp only [movedAlternative, checkAlternative]
    exact hR.bind (check_moved hR hL node) fun _ => hR.pure _
  | some (.block body) => by
    simp only [movedAlternative, checkAlternative]
    exact hR.inBlock (checkBlock_moved hR hL body)

theorem checkBlock_moved (hR : NameCongruence L R) (hL : ∀ l, L (f l).line (g l).line) :
    ∀ body : Block Node, R (checkBlock (movedBlock f body)) (checkBlock (movedBlock g body))
  | ⟨statements, _⟩ => by
    simp only [movedBlock, checkBlock]
    exact checkStatements_moved hR hL statements

theorem checkStatements_moved (hR : NameCongruence L R) (hL : ∀ l, L (f l).line (g l).line) :
    ∀ statements : List Node,
      R (checkStatements (movedList f statements)) (checkStatements (movedList g statements))
  | [] => by simp only [movedList, checkStatements]; exact hR.pure _
  | statement :: statements => by
    simp only [movedList, checkStatements]
    exact hR.bind (check_moved hR hL statement) fun _ => checkStatements_moved hR hL statements

end

end Places

section Same

variable {ε ε' : Type} [Environment ε] [Environment ε']
  {R : {α : Type} → Check ε α → Check ε' α → Prop} (hR : Congruence R)

include hR

theorem check_congr (n : Node) : R (check n) (check n) := by
  simpa only [moved_id] using
    check_moved (f := id) (g := id) hR.onEqualLines.onNames (fun _ => rfl) n

theorem checkReference_congr (r : Reference Node) : R (checkReference r) (checkReference r) := by
  simpa only [movedReference_id] using
    checkReference_moved (f := id) (g := id) hR.onEqualLines.onNames (fun _ => rfl) r

theorem checkAssigned_congr (line : Nat) (op : AssignOperator) (type? : Option Ty)
    (r : Reference Node) : R (checkAssigned line op type? r) (checkAssigned line op type? r) := by
  simpa only [movedReference_id] using
    checkAssigned_moved (f := id) (g := id) hR.onEqualLines.onNames (fun _ => rfl) rfl op type? r

theorem checkIndices_congr (indices : List Node) :
    R (checkIndices indices) (checkIndices indices) := by
  simpa only [movedList_id] using
    checkIndices_moved (f := id) (g := id) hR.onEqualLines.onNames (fun _ => rfl) indices

theorem checkElements_congr (line : Nat) (reported : Bool) (elements : List Node) :
    R (checkElements line reported elements) (checkElements line reported elements) := by
  simpa only [movedList_id] using
    checkElements_moved (f := id) (g := id) hR.onEqualLines.onNames (fun _ => rfl) rfl reported
      elements

theorem checkRows_congr (line : Nat) (rows : List (List Node)) :
    R (checkRows line rows) (checkRows line rows) := by
  simpa only [movedRows_id] using
    checkRows_moved (f := id) (g := id) hR.onEqualLines.onNames (fun _ => rfl) rfl rows

theorem checkArguments_congr (arguments : List Node) :
    R (checkArguments arguments) (checkArguments arguments) := by
  simpa only [movedList_id] using
    checkArguments_moved (f := id) (g := id) hR.onEqualLines.onNames (fun _ => rfl) arguments

theorem checkPayload_congr (values : List Node) :
    R (checkPayload values) (checkPayload values) := by
  simpa only [movedList_id] using
    checkPayload_moved (f := id) (g := id) hR.onEqualLines.onNames (fun _ => rfl) values

theorem checkBounds_congr (bounds : Bounds Node) : R (checkBounds bounds) (checkBounds bounds) := by
  simpa only [movedBounds_id] using
    checkBounds_moved (f := id) (g := id) hR.onEqualLines.onNames (fun _ => rfl) bounds

theorem checkAlternative_congr (alternative : Option (Alternative Node)) :
    R (checkAlternative alternative) (checkAlternative alternative) := by
  simpa only [movedAlternative_id] using
    checkAlternative_moved (f := id) (g := id) hR.onEqualLines.onNames (fun _ => rfl) alternative

theorem checkBlock_congr (body : Block Node) : R (checkBlock body) (checkBlock body) := by
  simpa only [movedBlock_id] using
    checkBlock_moved (f := id) (g := id) hR.onEqualLines.onNames (fun _ => rfl) body

theorem checkStatements_congr (statements : List Node) :
    R (checkStatements statements) (checkStatements statements) := by
  simpa only [movedList_id] using
    checkStatements_moved (f := id) (g := id) hR.onEqualLines.onNames (fun _ => rfl) statements

end Same

end Node

end MatrixLang
