import SyntaxSpans.Number.Shortest
import SyntaxSpans.Tree.Basic

/-!
# Writing trees as JSON

A node becomes an object with its kind, the parts of its place that are known, and its fields.
Fields that hold null are left out; nulls inside lists and plain objects stay. Numbers that JSON has
no text for become null.

A tree that nests too deep is not written: every value is one level below the one that it is in, and a
node is two levels below. The entries that say what a node is and where it stands are not counted.
-/

namespace SyntaxSpans

namespace Dump

/-- A value without parts, as JSON can write it. -/
def scalar (s : Scalar) : Json :=
  match s with
  | .float x => if (FloatKind.ofFloat x).isFinite then .scalar s else .null
  | _ => .scalar s

mutual

def plain : Json → Json
  | .scalar s => scalar s
  | .arr items => .arr (plainItems items)
  | .obj entries => .obj (plainEntries entries)

def plainItems : List Json → List Json
  | [] => []
  | j :: rest => plain j :: plainItems rest

def plainEntries : List (String × Json) → List (String × Json)
  | [] => []
  | (name, j) :: rest => (name, plain j) :: plainEntries rest

end

/-- The entries that say where a node stands. -/
def placement (p : Placement) : List (String × Json) :=
  (p.raw.map fun t => ("raw", Json.str (String.ofList t))).toList
    ++ (p.span.map fun s => ("range", Json.arr [.int s.start, .int s.stop])).toList
    ++ (p.line.map fun n => ("line", Json.int n)).toList
    ++ (p.column.map fun n => ("column", Json.int n)).toList

mutual

def node : Node → Json
  | .mk kind p fields => .obj (("type", .str kind) :: placement p ++ nodeFields fields)

/-- The fields of a node, without those that hold null. -/
def nodeFields : List (String × Value) → List (String × Json)
  | [] => []
  | (_, .scalar .null) :: rest => nodeFields rest
  | (name, v) :: rest => (name, value v) :: nodeFields rest

def value : Value → Json
  | .scalar s => scalar s
  | .object entries => .obj (plainEntries entries)
  | .list items => .arr (values items)
  | .node n => node n

def values : List Value → List Json
  | [] => []
  | v :: rest => value v :: values rest

end

/-! ## Depth -/

mutual

/-- The levels of plain data. -/
def plainLevels : Json → Nat
  | .scalar _ => 1
  | .arr items => 1 + plainItemsLevels items
  | .obj entries => 1 + plainEntriesLevels entries

def plainItemsLevels : List Json → Nat
  | [] => 0
  | j :: rest => max (plainLevels j) (plainItemsLevels rest)

def plainEntriesLevels : List (String × Json) → Nat
  | [] => 0
  | (_, j) :: rest => max (plainLevels j) (plainEntriesLevels rest)

end

mutual

/-- The levels of a node below the first. -/
def nodeLevels : Node → Nat
  | .mk _ _ fields => fieldLevels fields

def fieldLevels : List (String × Value) → Nat
  | [] => 0
  | (_, .scalar .null) :: rest => fieldLevels rest
  | (_, v) :: rest => max (valueLevels v) (fieldLevels rest)

def valueLevels : Value → Nat
  | .scalar _ => 1
  | .object entries => 1 + plainEntriesLevels entries
  | .list items => 1 + itemLevels items
  | .node n => 2 + nodeLevels n

def itemLevels : List Value → Nat
  | [] => 0
  | v :: rest => max (valueLevels v) (itemLevels rest)

end

def maxLevels : Nat := 255

inductive Error where
  | tooDeep
deriving DecidableEq, Repr

def Error.message : Error → String
  | .tooDeep => "Maximum serialization depth exceeded"

end Dump

def Node.dump (n : Node) : Json := Dump.node n

def Node.dumpLevels (n : Node) : Nat := 1 + Dump.nodeLevels n

/-- The tree as JSON, unless it is too deep. -/
def Node.write (n : Node) : Except Dump.Error Json :=
  if n.dumpLevels ≤ Dump.maxLevels then .ok n.dump else .error .tooDeep

end SyntaxSpans
