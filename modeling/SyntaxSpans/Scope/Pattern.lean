import SyntaxSpans.Fault
import SyntaxSpans.Tree.Cursor

/-!
# Identifiers of a pattern

The target of an assignment and the parameter of a function are patterns: an identifier, or a list
or an object with patterns inside, a rest or a default value around one. Any other node binds
nothing. What is no node at all, where a pattern has to be, is a fault.
-/

namespace SyntaxSpans

inductive Element where
  | absent
  | node (c : Cursor)
  | data

/-- An item of a list in the field `name` of a node. -/
def Element.ofValue (c : Cursor) (name : String) (i : Nat) : Value → Element
  | .scalar .null => .absent
  | .node n => .node (c.down ⟨name, [i]⟩ n)
  | _ => .data

namespace Cursor

/-- The elements of the list in the named field. No field, null and everything empty or zero have
no elements; a text, an object and a node have elements that are no nodes; numbers have none that
could be asked for. -/
def elements (c : Cursor) (name : String) : Except Fault (List Element) :=
  match c.node.field? name with
  | none => .ok []
  | some (.list items) => .ok (items.mapIdx (Element.ofValue c name))
  | some (.node _) => .ok [.data]
  | some (.object entries) => .ok (if entries.isEmpty then [] else [.data])
  | some (.scalar s) =>
    match s with
    | .null | .bool false => .ok []
    | .bool true => .error .notList
    | .int n => if n = 0 then .ok [] else .error .notList
    | .float x => if x == 0.0 then .ok [] else .error .notList
    | .str t => .ok (if t.isEmpty then [] else [.data])

theorem sizeOf_element_lt {c d : Cursor} {name : String} {es : List Element}
    (h : c.elements name = .ok es) (hd : Element.node d ∈ es) :
    sizeOf d.node < sizeOf c.node := by
  unfold elements at h
  split at h
  · cases h; simp at hd
  · next items hf =>
    cases h
    rw [List.mem_mapIdx] at hd
    obtain ⟨i, hi, he⟩ := hd
    have hlt : sizeOf items[i] < sizeOf items := List.sizeOf_lt_of_mem (List.getElem_mem hi)
    have hsize := Node.sizeOf_field?_lt hf
    unfold Element.ofValue at he
    split at he
    · cases he
    · next n hn =>
      cases he
      rw [hn] at hlt
      simp at hlt hsize
      simp only [down]
      omega
    · cases he
  · cases h; simp at hd
  · cases h; split at hd <;> simp at hd
  · split at h
    · cases h; simp at hd
    · cases h; simp at hd
    · cases h
    · split at h <;> cases h; simp at hd
    · split at h <;> cases h; simp at hd
    · cases h; split at hd <;> simp at hd

/-- The identifiers that a pattern binds, from left to right. -/
def identifiers (c : Cursor) : Except Fault (List Cursor) :=
  match c.kind with
  | "Identifier" => .ok [c]
  | "ArrayInitialiser" =>
    match _h : c.elements "members" with
    | .error fault => .error fault
    | .ok members =>
      let found : Except Fault (List (List Cursor)) := members.attach.mapM fun e =>
        match e with
        | ⟨.absent, _⟩ => .ok []
        | ⟨.node d, _⟩ => identifiers d
        | ⟨.data, _⟩ => .error .notNode
      found.map List.flatten
  | "ObjectInitialiser" =>
    match _h : c.elements "members" with
    | .error fault => .error fault
    | .ok members =>
      let found : Except Fault (List (List Cursor)) := members.attach.mapM fun e =>
        match e with
        | ⟨.node d, _⟩ =>
          match _hv : d.child? "expression" with
          | some v => identifiers v
          | none => .ok []
        | _ => .error .notNode
      found.map List.flatten
  | "Rest" | "Spread" =>
    match _h : c.child? "expression" with
    | some d => identifiers d
    | none => .ok []
  | "DefaultParam" =>
    match _h : c.child? "param" with
    | some d => identifiers d
    | none => .ok []
  | _ => .ok []
termination_by sizeOf c.node
decreasing_by
  · exact sizeOf_element_lt (by assumption) (by assumption)
  · exact Nat.lt_trans (sizeOf_child?_lt (by assumption))
      (sizeOf_element_lt (by assumption) (by assumption))
  · exact sizeOf_child?_lt (by assumption)
  · exact sizeOf_child?_lt (by assumption)

end Cursor

end SyntaxSpans
