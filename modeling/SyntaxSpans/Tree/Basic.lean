import SyntaxSpans.Json.Basic
import SyntaxSpans.Text.Basic

/-!
# Syntax trees

A node has a kind, the place in the source that its parser reported, and named fields in the order
in which they arrived. A field holds a node, a list (of anything, to any depth) or plain data; which
of the fields are walked as children is decided elsewhere (`Node.childFields`).
-/

namespace SyntaxSpans

/-- A half-open range of offsets, as reported: nothing is promised about its bounds. -/
structure Span where
  start : Int
  stop : Int
deriving DecidableEq, Repr, Inhabited

def Span.read (s : Span) (source : Text) : Text := slice source s.start s.stop

/-- A span and the line and column, both counted from one, that a parser reports for a node. -/
structure Anchor where
  span : Option Span := none
  line : Option Int := none
  column : Option Int := none
deriving DecidableEq, Repr, Inhabited

/-- What is known of a node's place: its text and its anchor, each part of which may be missing. -/
structure Placement extends Anchor where
  raw : Option Text := none
deriving DecidableEq, Repr, Inhabited

mutual

/-- What a field of a node holds. An object is plain data through and through. -/
inductive Value where
  | scalar (s : Scalar)
  | object (entries : List (String × Json))
  | list (items : List Value)
  | node (n : Node)

inductive Node where
  | mk (kind : String) (placement : Placement) (fields : List (String × Value))

end

instance : Inhabited Node := ⟨.mk "" {} []⟩

instance : Inhabited Value := ⟨.scalar .null⟩

namespace Node

def kind : Node → String
  | .mk kind _ _ => kind

def placement : Node → Placement
  | .mk _ placement _ => placement

def fields : Node → List (String × Value)
  | .mk _ _ fields => fields

def field? (n : Node) (name : String) : Option Value := n.fields.lookup name

/-- The node that the named field holds, if it holds one. -/
def child? (n : Node) (name : String) : Option Node :=
  match n.field? name with
  | some (.node c) => some c
  | _ => none

def fieldNames (n : Node) : List String := n.fields.map (·.1)

@[simp] theorem kind_mk (k : String) (p : Placement) (fs : List (String × Value)) :
    (Node.mk k p fs).kind = k := rfl

@[simp] theorem placement_mk (k : String) (p : Placement) (fs : List (String × Value)) :
    (Node.mk k p fs).placement = p := rfl

@[simp] theorem fields_mk (k : String) (p : Placement) (fs : List (String × Value)) :
    (Node.mk k p fs).fields = fs := rfl

theorem sizeOf_fields_lt (n : Node) : sizeOf n.fields < sizeOf n := by
  cases n
  simp only [fields_mk, Node.mk.sizeOf_spec]
  omega

end Node

/-- A value that is found under a name is smaller than the list that it is found in. -/
theorem sizeOf_lt_of_lookup {fields : List (String × Value)} {name : String} {v : Value}
    (h : fields.lookup name = some v) : sizeOf v < sizeOf fields := by
  induction fields with
  | nil => simp at h
  | cons f rest ih =>
    obtain ⟨key, value⟩ := f
    by_cases hk : name = key
    · subst hk
      simp at h
      subst h
      simp; omega
    · simp [List.lookup_cons, beq_eq_false_iff_ne.2 hk] at h
      have := ih h
      simp; omega

theorem Node.sizeOf_field?_lt {n : Node} {name : String} {v : Value} (h : n.field? name = some v) :
    sizeOf v < sizeOf n :=
  Nat.lt_trans (sizeOf_lt_of_lookup h) n.sizeOf_fields_lt

theorem Node.sizeOf_child?_lt {n c : Node} {name : String} (h : n.child? name = some c) :
    sizeOf c < sizeOf n := by
  unfold Node.child? at h
  split at h
  · next c' hf =>
    cases h
    have := Node.sizeOf_field?_lt hf
    simp at this; omega
  · cases h

end SyntaxSpans
