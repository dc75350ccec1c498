/-!
# JSON values

Values with ordered objects. Integers are unbounded and distinct from floating-point numbers: `5` and
`5.0` are different values.
-/

namespace SyntaxSpans

/-- The values without parts. -/
inductive Scalar where
  | null
  | bool (b : Bool)
  | int (n : Int)
  | float (x : Float)
  | str (s : String)
deriving Inhabited

inductive Json where
  | scalar (s : Scalar)
  | arr (items : List Json)
  | obj (entries : List (String × Json))
deriving Inhabited

namespace Json

def null : Json := .scalar .null

def bool (b : Bool) : Json := .scalar (.bool b)

def int (n : Int) : Json := .scalar (.int n)

def nat (n : Nat) : Json := .scalar (.int n)

def str (s : String) : Json := .scalar (.str s)

/-- The value of a field of an object; nothing for other values. -/
def get? (j : Json) (name : String) : Option Json :=
  match j with
  | .obj entries => entries.lookup name
  | _ => none

end Json

/-- Sets the value of a key: a key that is present keeps its place, a new one goes last. -/
def upsert {α : Type} (entries : List (String × α)) (name : String) (value : α) : List (String × α) :=
  match entries with
  | [] => [(name, value)]
  | (key, old) :: rest =>
    if key = name then (key, value) :: rest else (key, old) :: upsert rest name value

theorem lookup_upsert {α : Type} (entries : List (String × α)) (name other : String) (value : α) :
    (upsert entries name value).lookup other =
      if other = name then some value else entries.lookup other := by
  induction entries with
  | nil => by_cases h : other = name <;> simp [upsert, List.lookup_cons, h, beq_eq_false_iff_ne.2]
  | cons e rest ih =>
    obtain ⟨key, old⟩ := e
    by_cases hk : key = name
    · subst hk
      by_cases h : other = key
      · simp [upsert, h]
      · simp [upsert, List.lookup_cons, h, beq_eq_false_iff_ne.2]
    · by_cases h : other = key
      · subst h
        simp [upsert, hk]
      · simp [upsert, hk, List.lookup_cons, beq_eq_false_iff_ne.2 h, ih]

end SyntaxSpans
