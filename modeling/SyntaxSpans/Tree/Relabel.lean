import SyntaxSpans.Tree.Cursor

/-!
# Changing the labels of a tree

A tree with the same shape and the same plain data, whose nodes have kinds and places chosen by their
paths.
-/

namespace SyntaxSpans

/-- Chooses the kind and the place of the node at a path from those that it has. -/
abbrev Relabelling := Path → String × Placement → String × Placement

mutual

/-- The tree with new labels, at the given path of a larger one. -/
def Node.relabelAt (f : Relabelling) (path : Path) : Node → Node
  | .mk kind placement fields =>
    let label := f path (kind, placement)
    .mk label.1 label.2 (Node.relabelFields f path fields)

def Node.relabelFields (f : Relabelling) (path : Path) :
    List (String × Value) → List (String × Value)
  | [] => []
  | (name, v) :: rest =>
    (name, v.relabelIn f path name []) :: Node.relabelFields f path rest

/-- A value in the field `name`, at `index` in nested lists. -/
def Value.relabelIn (f : Relabelling) (path : Path) (name : String) (index : List Nat) :
    Value → Value
  | .scalar s => .scalar s
  | .object entries => .object entries
  | .list items => .list (Value.relabelItems f path name index 0 items)
  | .node n => .node (n.relabelAt f (⟨name, index⟩ :: path))

def Value.relabelItems (f : Relabelling) (path : Path) (name : String) (index : List Nat)
    (i : Nat) : List Value → List Value
  | [] => []
  | v :: rest =>
    v.relabelIn f path name (index ++ [i])
      :: Value.relabelItems f path name index (i + 1) rest

end

def Node.relabel (f : Relabelling) (n : Node) : Node := n.relabelAt f []

def Node.setKind (n : Node) (path : Path) (kind : String) : Node :=
  n.relabel fun p label => if p = path then (kind, label.2) else label

end SyntaxSpans
