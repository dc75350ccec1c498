import SyntaxSpans.Proofs.Freshness
import SyntaxSpans.Proofs.Introducing

/-!
# No capture

Scopes are opened and names are bound in them by a handful of operations. Only two of them declare a
name, that is bind it whatever it means already: `declare` itself, and what a function binds. After any
other operation every name that meant something in a scope means the same there (`get?_apply`), however
the scopes came about and whichever scope the operation was applied to.
-/

namespace SyntaxSpans

def Node.named (name : String) : Node := .mk "Identifier" {} [("data", .scalar (.str name))]

def Node.assigning (name : String) : Node := .mk "AssignOp" {} [("assignee", .node (.named name))]

namespace Forest

/-- What can be done to the scopes. -/
inductive Operation where
  | add (outer : Option ScopeId)
  | declare (i : ScopeId) (name : String) (identifier : Cursor)
  | assign (i : ScopeId) (name : String) (identifier : Cursor)
  | bindFresh (i : ScopeId) (base : String) (identifier : Cursor)
  | bindIntroduced (i : ScopeId) (c : Cursor)

/-- Whether the operation binds a name that has a meaning already. -/
def Operation.declares : Operation → Bool
  | add _ | assign _ _ _ | bindFresh _ _ _ => false
  | declare _ _ _ => true
  | bindIntroduced _ c => c.declares

/-- What an operation leaves behind, also when it ends in a fault. -/
def apply (f : Forest Cursor) : Operation → Forest Cursor
  | .add outer => (f.add outer).1
  | .declare i name identifier => f.declare i name identifier
  | .assign i name identifier => f.assign i name identifier
  | .bindFresh i base identifier => (f.bindFresh i base identifier).1
  | .bindIntroduced i c => (f.bindIntroduced i c).1

def after (ops : List Operation) : Forest Cursor := ops.foldl apply {}

variable {f : Forest Cursor} {i s : Nat} {name : String} {u : Cursor}

/-- **One operation** that does not declare takes no meaning away. -/
theorem get?_apply {op : Operation} (hop : op.declares = false) (h : f.get? s name = some u) :
    (f.apply op).get? s name = some u := by
  cases op with
  | add outer => exact get?_add outer h
  | declare => cases hop
  | assign i other identifier => exact get?_assign i other identifier h
  | bindFresh i base identifier => exact get?_declare_of_free (get?_fresh f i base) h
  | bindIntroduced i c =>
    have hdeclares : c.declares = false := hop
    rw [apply, bindIntroduced_eq, hdeclares]
    exact get?_assignAll h

/-- **Assignments and fresh names never capture.** What a name means in a scope, it means there after any
further operations that do not declare. -/
theorem meaning_kept (before later : List Operation) (hlater : ∀ op ∈ later, op.declares = false)
    (s : ScopeId) (name : String) (u : Cursor) (h : (after before).get? s name = some u) :
    (after (before ++ later)).get? s name = some u := by
  rw [after, List.foldl_append]
  change (later.foldl apply (after before)).get? s name = some u
  generalize after before = f at h
  induction later generalizing f with
  | nil => exact h
  | cons op rest ih =>
    exact ih (fun op' hop' => hlater op' (List.mem_cons_of_mem _ hop')) _
      (get?_apply (hlater op List.mem_cons_self) h)

/-- A name that is bound outside, with three attempts to bind it inside. -/
theorem meaning_kept_inside :
    let outside := Cursor.root (.named "x")
    let before := [.add none, .add (some 0), .declare 0 "x" outside]
    let later := [.assign 1 "x" (.root (.assigning "x")), .bindFresh 1 "x" (.root (.assigning "x")),
      .bindIntroduced 1 (.root (.assigning "x"))]
    (after before).get? 1 "x" = some outside ∧ (∀ op ∈ later, op.declares = false) ∧
      (after (before ++ later)).get? 1 "x" = some outside := by
  intro outside before later
  have hmeaning : (after before).get? 1 "x" = some outside := by
    rw [get?, chain_of_outer (j := 0) rfl (by decide), chain_of_top rfl]
    rfl
  have hlater : ∀ op ∈ later, op.declares = false := by decide
  exact ⟨hmeaning, hlater, meaning_kept before later hlater 1 "x" outside hmeaning⟩

/-- A declaration does take the meaning away. -/
example : (after [.add none, .add (some 0), .declare 0 "x" (.root (.named "x")),
    .declare 1 "x" (.root (.assigning "x"))]).get? 1 "x" = some (.root (.assigning "x")) := by
  rw [get?, chain_of_outer (j := 0) rfl (by decide), chain_of_top rfl]
  rfl

end Forest

end SyntaxSpans
