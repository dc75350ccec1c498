import Std.Data.TreeMap
import SyntaxSpans.Tree.Cursor

/-!
# Walking a tree

The walk goes from a node to its children, each with all that is below it before the next one. The
visitor may decline to go below a node.
-/

namespace SyntaxSpans

namespace Cursor

/-- Visits the node and, where the visitor answers `true`, all below it in turn. -/
def walk {m : Type → Type} [Monad m] (visit : Cursor → m Bool) (c : Cursor) : m Unit := do
  if ← visit c then
    c.children.attach.forM fun ⟨d, _⟩ => walk visit d
termination_by sizeOf c.node
decreasing_by exact sizeOf_children_lt ‹_›

def preorder (c : Cursor) : List Cursor :=
  c :: c.children.attach.flatMap fun ⟨d, _⟩ => preorder d
termination_by sizeOf c.node
decreasing_by exact sizeOf_children_lt ‹_›

def count (c : Cursor) : Nat :=
  c.children.attach.foldl (fun n ⟨d, _⟩ => n + count d) 1
termination_by sizeOf c.node
decreasing_by exact sizeOf_children_lt ‹_›

def positions (nodes : List Cursor) : Std.TreeMap Path Nat :=
  .ofList (nodes.mapIdx fun i c => (c.path, i))

end Cursor

def Node.count (n : Node) : Nat := (Cursor.root n).count

def Node.children (n : Node) : List Node := (Cursor.root n).children.map (·.node)

end SyntaxSpans
