import MatrixLang.Proofs.Checking.Parallel
import MatrixLang.Proofs.Scope.Walk
import MatrixLang.Proofs.Syntax.Parsed

/-! # Where a check comes to

A check follows the walk through the names of a program, but for one thing: it leaves the values of
an instruction at the first one that has no type. Where all values but the last ones have types it
comes to every name.
-/

namespace MatrixLang

section States

def Checker.entered (s : Checker Scopes) : Checker Scopes :=
  { s with environment := Environment.enter s.environment }

def Checker.looping (s : Checker Scopes) : Checker Scopes := { s with loopDepth := s.loopDepth + 1 }

variable {ε : Type} [Environment ε]

open Check

def Node.checkCondition (n : Node) : Check ε Unit := do
  requireBoolean n.line (← check n)

def Node.checkCounter (counter : Reference Node) (bounds : Bounds Node) : Check ε Unit := do
  checkBounds bounds
  bindName counter.name (some .int)

end States

namespace Node

open Check

/-- `Comes ns s w n c`: checking the statements `ns` from the state `s`, the check goes through the
occurrences `w` and comes to the statement `n`, among them or inside one of them, in the state
`c`. -/
inductive Comes : List Node → Checker Scopes → List Occurrence → Node → Checker Scopes → Prop
  | here {n ns s} : Comes (n :: ns) s [] n s
  | later {n ns s w m c} : Comes ns (check n s).2 w m c → Comes (n :: ns) s (n.walk ++ w) m c
  | consequent {e b a l ns s w m c} : Comes b.statements (checkCondition e s).2.entered w m c →
      Comes (.conditional e b a l :: ns) s (e.walk ++ w) m c
  | elseIf {e b n l ns s w m c} :
      Comes [n] (inBlock (checkBlock b) (checkCondition e s).2).2 w m c →
      Comes (.conditional e b (some (.elseIf n)) l :: ns) s (e.walk ++ walkBlock b ++ w) m c
  | elseBlock {e b b' l ns s w m c} :
      Comes b'.statements (inBlock (checkBlock b) (checkCondition e s).2).2.entered w m c →
      Comes (.conditional e b (some (.block b')) l :: ns) s (e.walk ++ walkBlock b ++ w) m c
  | whileBody {e b l ns s w m c} :
      Comes b.statements (checkCondition e s).2.looping.entered w m c →
      Comes (.whileLoop e b l :: ns) s (e.walk ++ w) m c
  | forBody {counter bounds b l ns s w m c} :
      Comes b.statements (checkCounter counter bounds s).2.looping.entered w m c →
      Comes (.forLoop counter bounds b l :: ns) s
        (walkBounds bounds ++ [.binder counter.name] ++ w) m c

section Equations

variable {e : Node} {b : Block Node} {s : Checker Scopes}

theorem check_conditional_snd (a : Option (Alternative Node)) (l : Location) :
    (check (.conditional e b a l) s).2 =
      (checkAlternative a (inBlock (checkBlock b) (checkCondition e s).2).2).2 := by
  rw [check]
  rfl

theorem check_whileLoop_snd (l : Location) :
    (check (.whileLoop e b l) s).2 =
      (inBody (inBlock (checkBlock b)) (checkCondition e s).2).2 := by
  rw [check]
  rfl

theorem check_forLoop_snd (counter : Reference Node) (bounds : Bounds Node) (l : Location) :
    (check (.forLoop counter bounds b l) s).2 =
      (inBody (inBlock (checkBlock b)) (checkCounter counter bounds s).2).2 := by
  rw [check]
  rfl

end Equations

/-- The values of an instruction that a check comes to, which are those up to the first one without
a type. -/
def checkedValues : List Node → Checker Scopes → List Node
  | [], _ => []
  | e :: es, s => e :: if (check e s).1.isNone then [] else checkedValues es (check e s).2

mutual

/-- The occurrences in a statement that its check comes to. -/
def visited : Node → Checker Scopes → List Occurrence
  | .instruction _ values _, s => walkList (checkedValues values s)
  | .conditional condition consequent alternative _, s =>
    let c := (checkCondition condition s).2
    walk condition ++ visitedBlock consequent c.entered ++
      visitedAlternative alternative (inBlock (checkBlock consequent) c).2
  | .whileLoop condition body _, s =>
    walk condition ++ visitedBlock body (checkCondition condition s).2.looping.entered
  | .forLoop counter bounds body _, s =>
    walkBounds bounds ++
      .binder counter.name :: visitedBlock body (checkCounter counter bounds s).2.looping.entered
  | n, _ => walk n

def visitedAlternative : Option (Alternative Node) → Checker Scopes → List Occurrence
  | none, _ => []
  | some (.elseIf node), s => visited node s
  | some (.block body), s => visitedBlock body s.entered

def visitedBlock : Block Node → Checker Scopes → List Occurrence
  | ⟨statements, _⟩, s => visitedList statements s

def visitedList : List Node → Checker Scopes → List Occurrence
  | [], _ => []
  | node :: nodes, s => visited node s ++ visitedList nodes (check node s).2

end

/-- Wherever the check of the statements comes to an instruction, all of its values but the last one
have types. -/
def PayloadsTyped (ns : List Node) (s : Checker Scopes) : Prop :=
  ∀ w i es l c, Comes ns s w (.instruction i es l) c → (checkPayload es.dropLast c).1 = true

section PayloadsTyped

variable {n m : Node} {ns ms : List Node} {s s' c : Checker Scopes} {w : List Occurrence}

theorem Comes.cons (h : Comes [n] s w m c) : Comes (n :: ns) s w m c := by
  cases h with
  | here => exact .here
  | later h => cases h
  | consequent h => exact .consequent h
  | elseIf h => exact .elseIf h
  | elseBlock h => exact .elseBlock h
  | whileBody h => exact .whileBody h
  | forBody h => exact .forBody h

/-- What holds wherever a check comes to holds where a part of it comes to. -/
theorem PayloadsTyped.part (h : PayloadsTyped ns s)
    (hc : ∀ {w m c}, Comes ms s' w m c → ∃ v, Comes ns s v m c) : PayloadsTyped ms s' := by
  intro w i es l c hcomes
  obtain ⟨v, hv⟩ := hc hcomes
  exact h v i es l c hv

theorem PayloadsTyped.head (h : PayloadsTyped (n :: ns) s) : PayloadsTyped [n] s :=
  h.part fun hc => ⟨_, hc.cons⟩

theorem PayloadsTyped.tail (h : PayloadsTyped (n :: ns) s) : PayloadsTyped ns (check n s).2 :=
  h.part fun hc => ⟨_, .later hc⟩

end PayloadsTyped

section Visited

variable {e : Node} {b : Block Node} {ns : List Node} {s t : Checker Scopes}

/-- Which values are checked does not depend on what has been reported before. -/
theorem checkedValues_congr (h : Checker.Parallel (fun _ _ => True) s t) (es : List Node) :
    checkedValues es s = checkedValues es t := by
  induction es generalizing s t with
  | nil => rfl
  | cons e es ih =>
    have hR : LineCongruence Eq (@Parallel Scopes fun _ _ => True) :=
      lineCongruence_parallel fun _ _ _ => trivial
    have he := check_congr hR.congruence e h
    rw [checkedValues, checkedValues, he.1, ih he.2]

theorem checkedValues_eq_self {es : List Node} (h : (checkPayload es.dropLast s).1 = true) :
    checkedValues es s = es := by
  induction es generalizing s with
  | nil => rfl
  | cons e es ih =>
    cases es with
    | nil => simp [checkedValues]
    | cons f es =>
      rw [List.dropLast_cons_cons, checkPayload, bind_apply] at h
      rw [checkedValues]
      split at h
      · cases h
      next ht => rw [if_neg ht, ih h]

theorem visitedList_eq (h : ∀ n ∈ ns, ∀ s, PayloadsTyped [n] s → n.visited s = n.walk)
    (ht : PayloadsTyped ns s) : visitedList ns s = walkList ns := by
  induction ns generalizing s with
  | nil => rw [visitedList, walkList]
  | cons n ns ih =>
    rw [List.forall_mem_cons] at h
    rw [visitedList, walkList, h.1 s ht.head, ih h.2 ht.tail]

theorem visitedBlock_eq (h : ∀ n ∈ b.statements, ∀ s, PayloadsTyped [n] s → n.visited s = n.walk)
    (ht : PayloadsTyped b.statements s) : visitedBlock b s = walkBlock b := by
  obtain ⟨statements, l⟩ := b
  rw [visitedBlock, walkBlock, visitedList_eq h ht]

/-- Where the values of instructions have types a check comes to everything. -/
theorem IsStatement.visited_eq {n : Node} (hn : n.IsStatement) (s : Checker Scopes)
    (ht : PayloadsTyped [n] s) : n.visited s = n.walk := by
  induction hn generalizing s with
  | assignment | expression => simp only [visited]
  | @instruction i es l he => rw [visited, walk, checkedValues_eq_self (ht [] i es l s .here)]
  | @conditional e b l _ _ ih =>
    have hb := visitedBlock_eq ih (ht.part fun hc => ⟨_, .consequent hc⟩)
    rw [visited, walk, visitedAlternative, walkAlternative, hb]
  | @elseIf e b e' b' a' l' l _ _ _ ih ih' =>
    have hb := visitedBlock_eq ih (ht.part fun hc => ⟨_, .consequent hc⟩)
    have ha := ih' _ (ht.part fun hc => ⟨_, .elseIf hc⟩)
    rw [visited, walk, visitedAlternative, walkAlternative, hb, ha]
  | @elseBlock e b b' l _ _ _ ih ih' =>
    have hb := visitedBlock_eq ih (ht.part fun hc => ⟨_, .consequent hc⟩)
    have hb' := visitedBlock_eq ih' (ht.part fun hc => ⟨_, .elseBlock hc⟩)
    rw [visited, walk, visitedAlternative, walkAlternative, hb, hb']
  | @whileLoop e b l _ _ ih =>
    have hb := visitedBlock_eq ih (ht.part fun hc => ⟨_, .whileBody hc⟩)
    rw [visited, walk, hb]
  | @forLoop x lx bounds b l _ _ _ ih =>
    have hb := visitedBlock_eq ih (ht.part fun hc => ⟨_, .forBody hc⟩)
    rw [visited, walk, hb]

end Visited

end Node

def Program.visited (p : Program) : List Occurrence := Node.visitedBlock p Checker.initial

end MatrixLang
