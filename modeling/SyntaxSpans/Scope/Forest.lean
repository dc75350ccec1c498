/-!
# Scopes

A scope binds names and may stand inside another one. Scopes are numbered as they come into being;
the one that a scope stands inside is older, so its number is smaller. A name is looked up from the
scope outwards, and the first scope that binds it decides.
-/

namespace SyntaxSpans

abbrev ScopeId := Nat

/-- A scope: the one that it stands inside of, if any, and what it binds names to. -/
structure Scope (α : Type) where
  parent : Option ScopeId
  bindings : List (String × α)

structure Forest (α : Type) where
  scopes : Array (Scope α) := #[]

namespace Scope

variable {α : Type}

def own? (s : Scope α) (name : String) : Option α := s.bindings.lookup name

def bind (s : Scope α) (name : String) (a : α) : Scope α :=
  { s with bindings := (name, a) :: s.bindings.filter (·.1 != name) }

def sorted (s : Scope α) : List (String × α) :=
  s.bindings.mergeSort fun a b => !(b.1 < a.1)

@[simp] theorem own?_bind_self (s : Scope α) (name : String) (a : α) :
    (s.bind name a).own? name = some a := by
  simp [own?, bind]

theorem own?_bind_of_ne (s : Scope α) {name other : String} (a : α) (h : other ≠ name) :
    (s.bind name a).own? other = s.own? other := by
  have : ∀ bindings : List (String × α),
      (bindings.filter (·.1 != name)).lookup other = bindings.lookup other := by
    intro bindings
    induction bindings with
    | nil => rfl
    | cons b rest ih =>
      obtain ⟨key, value⟩ := b
      by_cases hk : key = name
      · subst hk
        simp [List.lookup_cons, beq_eq_false_iff_ne.2 h, ih]
      · by_cases ho : other = key
        · subst ho
          simp [hk]
        · simp [hk, List.lookup_cons, beq_eq_false_iff_ne.2 ho, ih]
  simp [own?, bind, List.lookup_cons, beq_eq_false_iff_ne.2 h, this]

end Scope

namespace Forest

variable {α : Type}

def scope? (f : Forest α) (i : ScopeId) : Option (Scope α) := f.scopes[i]?

def add (f : Forest α) (parent : Option ScopeId) : Forest α × ScopeId :=
  (⟨f.scopes.push ⟨parent, []⟩⟩, f.scopes.size)

/-- The scope and those that it stands inside of, outwards. -/
def chain (f : Forest α) (i : ScopeId) : List ScopeId :=
  match (f.scope? i).bind (·.parent) with
  | some p => if p < i then i :: f.chain p else [i]
  | none => [i]
termination_by i

def depth (f : Forest α) (i : ScopeId) : Nat := (f.chain i).length - 1

def own? (f : Forest α) (i : ScopeId) (name : String) : Option α :=
  (f.scope? i).bind (·.own? name)

/-- What a name means in a scope. -/
def get? (f : Forest α) (i : ScopeId) (name : String) : Option α :=
  (f.chain i).findSome? (f.own? · name)

def has (f : Forest α) (i : ScopeId) (name : String) : Bool := (f.get? i name).isSome

def declare (f : Forest α) (i : ScopeId) (name : String) (a : α) : Forest α :=
  ⟨f.scopes.modify i (·.bind name a)⟩

/-- Binds a name in a scope, unless the name has a meaning there already. -/
def assign (f : Forest α) (i : ScopeId) (name : String) (a : α) : Forest α :=
  if f.has i name then f else f.declare i name a

/-- The names tried for a fresh binding: the base name, then the base name with 1, 2, … behind. -/
def candidate (base : String) (k : Nat) : String :=
  if k = 0 then base else base ++ toString k

/-- How many bindings a scope and those around it have together. -/
def chainSize (f : Forest α) (i : ScopeId) : Nat :=
  (f.chain i).foldl (fun n j => n + ((f.scope? j).map (·.bindings.length)).getD 0) 0

/-- The first candidate that has no meaning in a scope. There are more candidates than bindings, so
one of them is free. -/
def fresh (f : Forest α) (i : ScopeId) (base : String) : String :=
  ((List.range (f.chainSize i + 1)).map (candidate base)).find? (fun name => !f.has i name)
    |>.getD base

/-- Binds the first candidate that is free in a scope, and answers which it is. -/
def bindFresh (f : Forest α) (i : ScopeId) (base : String) (a : α) : Forest α × String :=
  let name := f.fresh i base
  (f.declare i name a, name)

end Forest

end SyntaxSpans
