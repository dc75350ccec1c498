import SyntaxSpans.Tree.Kind

/-!
# Places in a tree

A path names a node by the slots that lead to it, innermost first, so that the rest of a path is the
path of the node's parent. A cursor is a node together with its path and the kind of its parent: all
that the annotation needs to know of the surroundings.
-/

namespace SyntaxSpans

/-- Where a node hangs on its parent: the field, and the way through nested lists in it. -/
structure Slot where
  field : String
  index : List Nat
deriving DecidableEq, Repr, Inhabited

instance : Ord Slot := ⟨compareLex (compareOn Slot.field) (compareOn Slot.index)⟩

instance : Std.TransOrd Slot :=
  inferInstanceAs (Std.TransCmp (compareLex (compareOn Slot.field) (compareOn Slot.index)))

instance : Std.LawfulEqOrd Slot where
  eq_of_compare {a b} h := by
    obtain ⟨field, index⟩ := a
    obtain ⟨field', index'⟩ := b
    have h' : compareLex (compareOn Slot.field) (compareOn Slot.index)
        ⟨field, index⟩ ⟨field', index'⟩ = .eq := h
    rw [compareLex_eq_eq] at h'
    have h1 : field = field' := Std.LawfulEqOrd.eq_of_compare h'.1
    have h2 : index = index' := Std.LawfulEqOrd.eq_of_compare h'.2
    rw [h1, h2]

/-- The slots from a node up to the root. The root has the empty path. -/
abbrev Path := List Slot

structure Cursor where
  node : Node
  path : Path
  /-- The kind of the parent; the root has none. -/
  parentKind : Option String

mutual

/-- The nodes in a value with the way to each through nested lists, from left to right. Plain data
has none. -/
def Value.nodesAt (index : List Nat) : Value → List (List Nat × Node)
  | .scalar _ => []
  | .object _ => []
  | .list items => Value.nodesFrom index 0 items
  | .node n => [(index, n)]

def Value.nodesFrom (index : List Nat) (i : Nat) : List Value → List (List Nat × Node)
  | [] => []
  | v :: rest => v.nodesAt (index ++ [i]) ++ Value.nodesFrom index (i + 1) rest

end

mutual

theorem Value.sizeOf_nodesAt_le (v : Value) (index : List Nat) :
    ∀ p ∈ v.nodesAt index, sizeOf p.2 < sizeOf v := by
  intro p hp
  cases v with
  | scalar | object => simp [Value.nodesAt] at hp
  | node n => simp [Value.nodesAt] at hp; subst hp; simp
  | list items =>
    rw [Value.nodesAt] at hp
    have := Value.sizeOf_nodesFrom_lt items index 0 p hp
    simp; omega

theorem Value.sizeOf_nodesFrom_lt (items : List Value) (index : List Nat) (i : Nat) :
    ∀ p ∈ Value.nodesFrom index i items, sizeOf p.2 < sizeOf items := by
  intro p hp
  cases items with
  | nil => simp [Value.nodesFrom] at hp
  | cons v rest =>
    rw [Value.nodesFrom, List.mem_append] at hp
    rcases hp with hp | hp
    · have := Value.sizeOf_nodesAt_le v (index ++ [i]) p hp
      simp; omega
    · have := Value.sizeOf_nodesFrom_lt rest index (i + 1) p hp
      simp; omega

end

namespace Cursor

def root (n : Node) : Cursor := ⟨n, [], none⟩

def kind (c : Cursor) : String := c.node.kind

def down (c : Cursor) (slot : Slot) (n : Node) : Cursor := ⟨n, slot :: c.path, some c.kind⟩

def child? (c : Cursor) (name : String) : Option Cursor :=
  (c.node.child? name).map (c.down ⟨name, []⟩)

/-- Whether the node is what the named field of its parent holds. -/
def isIn (c : Cursor) (name : String) : Bool :=
  match c.path with
  | slot :: _ => slot == ⟨name, []⟩
  | [] => false

def nodesIn (c : Cursor) (name : String) : List Cursor :=
  match c.node.field? name with
  | some v => (v.nodesAt []).map fun p => c.down ⟨name, p.1⟩ p.2
  | none => []

def children (c : Cursor) : List Cursor := c.node.childFields.flatMap c.nodesIn

theorem sizeOf_child?_lt {c d : Cursor} {name : String} (h : c.child? name = some d) :
    sizeOf d.node < sizeOf c.node := by
  simp only [child?, Option.map_eq_some_iff] at h
  obtain ⟨n, hn, rfl⟩ := h
  exact Node.sizeOf_child?_lt hn

theorem sizeOf_children_lt {c d : Cursor} (h : d ∈ c.children) :
    sizeOf d.node < sizeOf c.node := by
  simp only [children, List.mem_flatMap] at h
  obtain ⟨name, -, h⟩ := h
  unfold nodesIn at h
  split at h
  · next v hv =>
    simp only [List.mem_map] at h
    obtain ⟨p, hp, rfl⟩ := h
    exact Nat.lt_trans (Value.sizeOf_nodesAt_le v [] p hp) (Node.sizeOf_field?_lt hv)
  · cases h

end Cursor

end SyntaxSpans
