import MatrixLang.Proofs.Scope.Flatten
import MatrixLang.Tree.Basic
import MatrixLang.Typing.Diagnostic

/-! # The walk through the names of a program

Where the names of a tree stand, in the order in which a check comes to them, is read off the tree:
a value before its target, a range before its loop variable, one branch before the other. Whether a
name has been bound before depends on this walk alone.
-/

namespace MatrixLang

/-- A name where it is bound, where a value is combined with it, or where it is read. -/
inductive Occurrence where
  | binder (name : String)
  | update (name : String) (line : Nat)
  | use (name : String) (line : Nat)
  deriving DecidableEq, Repr

namespace Node

mutual

def walk : Node → List Occurrence
  | .integer _ _ | .float _ _ | .string _ _ => []
  | .reference r => walkReference r
  | .matrix rows _ => walkRows rows
  | .builtin _ arguments _ => walkList arguments
  | .binary _ left right _ => walk left ++ walk right
  | .comparison _ left right _ => walk left ++ walk right
  | .unary _ operand _ => walk operand
  | .assignment target op value l => walk value ++ walkTarget op l.line target
  | .instruction _ values _ => walkList values
  | .conditional condition consequent alternative _ =>
    walk condition ++ walkBlock consequent ++ walkAlternative alternative
  | .whileLoop condition body _ => walk condition ++ walkBlock body
  | .forLoop counter bounds body _ =>
    walkBounds bounds ++ .binder counter.name :: walkBlock body
  | .expression value _ => walk value

def walkReference : Reference Node → List Occurrence
  | ⟨name, indices, l⟩ => walkList indices ++ [.use name l.line]

/-- An element is assigned by reading its matrix, and only a whole variable is bound. -/
def walkTarget (op : AssignOperator) (line : Nat) : Reference Node → List Occurrence
  | ⟨name, [], _⟩ => if op = .plain then [.binder name] else [.update name line]
  | ⟨name, index :: indices, l⟩ => walk index ++ walkList indices ++ [.use name l.line]

def walkBounds : Bounds Node → List Occurrence
  | ⟨lower, upper, _⟩ => walk lower ++ walk upper

def walkAlternative : Option (Alternative Node) → List Occurrence
  | none => []
  | some (.elseIf node) => walk node
  | some (.block body) => walkBlock body

def walkBlock : Block Node → List Occurrence
  | ⟨statements, _⟩ => walkList statements

def walkRows : List (List Node) → List Occurrence
  | [] => []
  | row :: rows => walkList row ++ walkRows rows

def walkList : List Node → List Occurrence
  | [] => []
  | node :: nodes => walk node ++ walkList nodes

end

end Node

def Program.walk (p : Program) : List Occurrence := Node.walkBlock p

namespace Occurrence

def binder? : Occurrence → Option String
  | .binder name => some name
  | .update .. | .use .. => none

/-- What is reported where a value is combined with a name that is not bound. -/
def undeclared? : Occurrence → Option Diagnostic
  | .update name line => some ⟨line, .undeclaredTarget name⟩
  | .binder _ | .use .. => none

/-- What is reported where a name that is not bound is read. -/
def undefined? : Occurrence → Option Diagnostic
  | .use name line => some ⟨line, .undefinedVariable name⟩
  | .binder _ | .update .. => none

end Occurrence

/-- The names that are bound, in order. -/
def binders (w : List Occurrence) : List String := w.filterMap (·.binder?)

/-- The occurrences without a binder in front, those of the names `bound` left out. -/
def unbound (bound : List String) : List Occurrence → List Occurrence
  | [] => []
  | .binder name :: w => unbound (name :: bound) w
  | .update name line :: w =>
    if name ∈ bound then unbound bound w else .update name line :: unbound bound w
  | .use name line :: w =>
    if name ∈ bound then unbound bound w else .use name line :: unbound bound w

namespace Diagnostic

def isUndeclared (d : Diagnostic) : Bool :=
  match d.violation with
  | .undeclaredTarget _ => true
  | _ => false

def isUndefined (d : Diagnostic) : Bool :=
  match d.violation with
  | .undefinedVariable _ => true
  | _ => false

end Diagnostic

section Binders

variable {ns ms : List String} {v w : List Occurrence}

@[simp] theorem binders_append (v w : List Occurrence) :
    binders (v ++ w) = binders v ++ binders w :=
  List.filterMap_append

theorem unbound_congr (h : ∀ x, x ∈ ns ↔ x ∈ ms) : unbound ns w = unbound ms w := by
  induction w generalizing ns ms with
  | nil => rfl
  | cons o w ih =>
    cases o with
    | binder name => exact ih fun x => by simp [h]
    | update name line | use name line => simp only [unbound, h, ih h]

theorem unbound_append (v w : List Occurrence) :
    unbound ns (v ++ w) = unbound ns v ++ unbound (ns ++ binders v) w := by
  induction v generalizing ns with
  | nil => simp [unbound, binders]
  | cons o v ih =>
    cases o with
    | binder name =>
      rw [List.cons_append, unbound, unbound, ih]
      congr 1
      exact unbound_congr fun x => by simp [binders, Occurrence.binder?, or_left_comm]
    | update name line | use name line =>
      simp only [List.cons_append, unbound, ih]
      split <;> rfl

theorem unbound_sublist (ns : List String) (w : List Occurrence) : (unbound ns w).Sublist w := by
  induction w generalizing ns with
  | nil => exact .slnil
  | cons o w ih =>
    cases o with
    | binder name => exact (ih _).cons _
    | update name line | use name line =>
      rw [unbound]
      split
      · exact (ih ns).cons _
      · exact (ih ns).cons_cons _

theorem binders_eq_nil (h : ∀ o ∈ w, o.binder? = none ∧ o.undeclared? = none) :
    binders w = [] :=
  List.filterMap_eq_nil_iff.mpr fun o ho => (h o ho).1

theorem filterMap_undeclared?_eq_nil (h : ∀ o ∈ w, o.binder? = none ∧ o.undeclared? = none) :
    (unbound ns w).filterMap (·.undeclared?) = [] :=
  List.filterMap_eq_nil_iff.mpr fun o ho => (h o ((unbound_sublist ns w).subset ho)).2

/-- Without some of the uses and updates, fewer of the others lack a binder in front. -/
theorem unbound_sublist_unbound (h : v.Sublist w) (hb : binders v = binders w) :
    (unbound ns v).Sublist (unbound ns w) := by
  induction h generalizing ns with
  | slnil => exact .slnil
  | @cons v w o h ih =>
    cases o with
    | binder name =>
      have hl : (binders v).length ≤ (binders w).length := (h.filterMap _).length_le
      have hcons : binders (.binder name :: w) = name :: binders w := rfl
      rw [hb, hcons, List.length_cons] at hl
      omega
    | update name line | use name line =>
      rw [unbound]
      split
      · exact ih hb
      · exact (ih hb).cons _
  | @cons_cons v w o _ ih =>
    cases o with
    | binder name => exact ih (List.cons.inj hb).2
    | update name line | use name line =>
      rw [unbound, unbound]
      split
      · exact ih hb
      · exact (ih hb).cons_cons _

def addName (ns : List String) (x : String) : List String :=
  if x ∈ ns then ns else ns ++ [x]

def addNames (ns ms : List String) : List String := ms.foldl addName ns

theorem addNames_append (ns xs ys : List String) :
    addNames ns (xs ++ ys) = addNames (addNames ns xs) ys :=
  List.foldl_append

theorem prefix_addNames (ns ms : List String) : ns <+: addNames ns ms := by
  induction ms generalizing ns with
  | nil => exact List.prefix_rfl
  | cons m ms ih =>
    refine List.IsPrefix.trans ?_ (ih (addName ns m))
    unfold addName
    split
    · exact List.prefix_rfl
    · exact List.prefix_append ns [m]

theorem mem_addNames (x : String) : x ∈ addNames ns ms ↔ x ∈ ns ∨ x ∈ ms := by
  induction ms generalizing ns with
  | nil => simp [addNames]
  | cons m ms ih =>
    have hm : x ∈ addName ns m ↔ x ∈ ns ∨ x = m := by
      unfold addName
      split
      next h => exact ⟨.inl, fun hx => hx.elim id fun hx => hx ▸ h⟩
      next => simp
    rw [List.mem_cons, ← or_assoc, ← hm]
    exact ih

theorem nodup_addNames (h : ns.Nodup) : (addNames ns ms).Nodup := by
  induction ms generalizing ns with
  | nil => exact h
  | cons m ms ih =>
    refine @ih (addName ns m) ?_
    unfold addName
    split
    · exact h
    next hm =>
      refine List.nodup_append.mpr ⟨h, List.nodup_singleton m, ?_⟩
      rintro a ha b hb rfl
      exact hm (List.mem_singleton.mp hb ▸ ha)

theorem Table.names_foldl_put_eq (bs : List Binding) (t : Table) :
    (bs.foldl put t).names = addNames t.names (bs.map (·.name)) := by
  induction bs generalizing t with
  | nil => rfl
  | cons b bs ih =>
    rw [List.foldl_cons, ih, names_put]
    rfl

theorem addNames_nil (ms : List String) : addNames [] ms = ms.eraseDups := by
  have h := Table.names_foldl_put (ms.map (⟨·, none⟩)) .empty
  rw [Table.names_foldl_put_eq] at h
  simpa [Table.empty, Function.comp_def] using h

end Binders

end MatrixLang
