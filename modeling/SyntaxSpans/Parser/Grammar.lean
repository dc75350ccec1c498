import SyntaxSpans.Text.Utf8
import SyntaxSpans.Tree.Basic

/-!
# Trees of a grammar

A grammar reports its nodes by byte offsets, rows and byte columns of the encoded source. Converted
nodes carry the text of their bytes, and lines and columns in characters, both counted from one;
their children are in the field `children`.
-/

namespace SyntaxSpans

/-- A node as a grammar reports it. The row and the column are those of its first byte. -/
inductive GrammarNode where
  | mk (kind : String) (start stop row column : Int) (children : List GrammarNode)
deriving Inhabited

namespace GrammarNode

def placement (bytes : Bytes) (start stop row column : Int) : Except Utf8.Error Placement := do
  let before ← Utf8.decode (slice bytes (start - column) start)
  let raw ← Utf8.decode (slice bytes start stop)
  return { raw := some raw, line := some (row + 1), column := some (before.length + 1) }

mutual

/-- Converts a node with all that is below it, given the bytes of the source. -/
def convert (bytes : Bytes) : GrammarNode → Except Utf8.Error Node
  | .mk kind start stop row column children => do
    let p ← placement bytes start stop row column
    let children ← convertAll bytes children
    return .mk kind p [("children", .list children)]

def convertAll (bytes : Bytes) : List GrammarNode → Except Utf8.Error (List Value)
  | [] => .ok []
  | n :: rest => do
    let n ← convert bytes n
    let rest ← convertAll bytes rest
    return .node n :: rest

end

end GrammarNode

/-- The tree that a grammar reports for a source. -/
def Node.ofGrammar (source : Text) (tree : GrammarNode) : Except Utf8.Error Node :=
  tree.convert (Utf8.encode source)

end SyntaxSpans
