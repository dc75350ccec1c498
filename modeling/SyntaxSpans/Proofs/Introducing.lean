import SyntaxSpans.Proofs.Chains
import SyntaxSpans.Scope.Binding

/-!
# Binding what a node introduces

A node binds its identifiers one after the other in one scope, and nothing else changes. Of several
identifiers of one name a function keeps the last one (`own?_declareAll`); any other node keeps the first
one, and that only if the name had no meaning before (`own?_assignAll`).
-/

namespace SyntaxSpans

namespace Forest

variable {f : Forest Cursor} {i j : Nat} {name : String} {d : Cursor} {ids : List Cursor}
  {declares : Bool}

/-! ## One identifier -/

/-- Introducing an identifier declares it, or does nothing because its name is bound already. -/
theorem introduce_cases (f : Forest Cursor) (i : Nat) (declares : Bool) (d : Cursor) :
    f.introduce i declares d = f.declare i d.node.name d ∨ f.introduce i declares d = f := by
  cases declares with
  | true => exact Or.inl rfl
  | false =>
    cases h : f.has i d.node.name with
    | true => exact Or.inr (assign_of_has h)
    | false => exact Or.inl (assign_of_free h)

theorem size_introduce (f : Forest Cursor) (i : Nat) (declares : Bool) (d : Cursor) :
    (f.introduce i declares d).scopes.size = f.scopes.size := by
  rcases introduce_cases f i declares d with h | h <;> simp [h]

theorem outer?_introduce (f : Forest Cursor) (i : Nat) (declares : Bool) (d : Cursor) (j : Nat) :
    (f.introduce i declares d).outer? j = f.outer? j := by
  rcases introduce_cases f i declares d with h | h <;> simp [h]

theorem own?_introduce_of_ne (h : j ≠ i ∨ name ≠ d.node.name) :
    (f.introduce i declares d).own? j name = f.own? j name := by
  rcases introduce_cases f i declares d with h' | h' <;> rw [h']
  exact own?_declare_of_ne f d h

/-! ## All of them -/

def introduceAll (f : Forest Cursor) (i : ScopeId) (declares : Bool) (ids : List Cursor) :
    Forest Cursor :=
  ids.foldl (fun f d => f.introduce i declares d) f

theorem bindIntroduced_eq (f : Forest Cursor) (i : Nat) (c : Cursor) :
    (f.bindIntroduced i c).1 = f.introduceAll i c.declares c.introduced.identifiers := rfl

@[simp] theorem size_introduceAll (f : Forest Cursor) (i : Nat) (declares : Bool) (ids : List Cursor) :
    (f.introduceAll i declares ids).scopes.size = f.scopes.size := by
  induction ids generalizing f with
  | nil => rfl
  | cons d rest ih => exact (ih (f.introduce i declares d)).trans (size_introduce f i declares d)

@[simp] theorem outer?_introduceAll (f : Forest Cursor) (i : Nat) (declares : Bool)
    (ids : List Cursor) (j : Nat) : (f.introduceAll i declares ids).outer? j = f.outer? j := by
  induction ids generalizing f with
  | nil => rfl
  | cons d rest ih => exact (ih (f.introduce i declares d)).trans (outer?_introduce f i declares d j)

@[simp] theorem chain_introduceAll (f : Forest Cursor) (i : Nat) (declares : Bool)
    (ids : List Cursor) (j : Nat) : (f.introduceAll i declares ids).chain j = f.chain j :=
  chain_congr fun k _ => outer?_introduceAll f i declares ids k

theorem own?_introduceAll_of_ne (h : j ≠ i) :
    (f.introduceAll i declares ids).own? j name = f.own? j name := by
  induction ids generalizing f with
  | nil => rfl
  | cons d rest ih => exact (ih (f := f.introduce i declares d)).trans (own?_introduce_of_ne (Or.inl h))

/-- So a name keeps its meaning in a scope that does not stand inside the one where names are bound. -/
theorem get?_introduceAll_of_notMem (h : i ∉ f.chain j) :
    (f.introduceAll i declares ids).get? j name = f.get? j name := by
  refine get?_congr (chain_introduceAll f i declares ids j) fun k hk => ?_
  exact own?_introduceAll_of_ne fun hki => h (hki ▸ hk)

theorem get?_assignAll {u : Cursor} (h : f.get? j name = some u) :
    (f.introduceAll i false ids).get? j name = some u := by
  induction ids generalizing f with
  | nil => exact h
  | cons d rest ih => exact ih (get?_assign i d.node.name d h)

/-- **What a function binds** to a name: the last of its identifiers of that name. -/
theorem own?_declareAll (hi : i < f.scopes.size) : (f.introduceAll i true ids).own? i name =
    (ids.reverse.find? (·.node.name == name)).or (f.own? i name) := by
  induction ids generalizing f with
  | nil => rfl
  | cons d rest ih =>
    have hrest := ih (f := f.declare i d.node.name d) (by rwa [size_declare])
    rw [show f.introduceAll i true (d :: rest) = (f.declare i d.node.name d).introduceAll i true rest
      from rfl, hrest, List.reverse_cons, List.find?_append, Option.or_assoc]
    congr 1
    by_cases hname : d.node.name = name
    · subst hname
      simp [own?_declare_self f d.node.name d hi]
    · rw [own?_declare_of_ne f d (Or.inr (Ne.symm hname))]
      simp [hname]

/-- **What an assignment binds** to a name: the first of its identifiers of that name, unless the name had
a meaning before. -/
theorem own?_assignAll (hi : i < f.scopes.size) : (f.introduceAll i false ids).own? i name =
    (f.own? i name).or (if f.has i name then none else ids.find? (·.node.name == name)) := by
  induction ids generalizing f with
  | nil => simp [introduceAll]
  | cons d rest ih =>
    have hstep : f.introduceAll i false (d :: rest) =
        (f.introduce i false d).introduceAll i false rest := rfl
    rw [hstep, ih (by rwa [size_introduce])]
    by_cases hname : d.node.name = name
    · subst hname
      cases hhas : f.has i d.node.name with
      | true =>
        have hsame : f.introduce i false d = f := assign_of_has hhas
        rw [hsame, hhas, if_pos rfl, if_pos rfl]
      | false =>
        have hdeclared : f.introduce i false d = f.declare i d.node.name d := assign_of_free hhas
        have hown : f.own? i d.node.name = none :=
          get?_eq_none_iff.1 (has_eq_false_iff.1 hhas) i (mem_chain_self f i)
        rw [hdeclared, own?_declare_self f d.node.name d hi, hown]
        simp
    · have hother : ∀ k, (f.introduce i false d).own? k name = f.own? k name := fun k =>
        own?_introduce_of_ne (Or.inr (Ne.symm hname))
      have hhas : (f.introduce i false d).has i name = f.has i name := by
        rw [has, has, get?_congr (chain_congr fun k _ => outer?_introduce f i false d k) fun k _ => hother k]
      rw [hother, hhas]
      simp [hname]

end Forest

end SyntaxSpans
