import SyntaxSpans.Number.Shortest
import SyntaxSpans.Text.Quoted
import SyntaxSpans.Tree.Basic

/-!
# Values as names

An identifier is named by the text of its field `data`. A string is its own text; any other value is
displayed: `None` for null, `True` and `False`, numbers, lists in brackets, objects in braces, nodes
with their place and fields. Strings inside a display are quoted.
-/

namespace SyntaxSpans

namespace Display

def scalar : Scalar → String
  | .null => "None"
  | .bool true => "True"
  | .bool false => "False"
  | .int n => toString n
  | .float x => String.ofList (FloatKind.ofFloat x).text
  | .str s => quoted s

def bracketed (parts : List String) : String := "[" ++ ", ".intercalate parts ++ "]"

def braced (parts : List (String × String)) : String :=
  let entries := parts.map fun p => quoted p.1 ++ ": " ++ p.2
  "\x7b" ++ ", ".intercalate entries ++ "\x7d"

def option {α : Type} (display : α → String) : Option α → String
  | none => "None"
  | some a => display a

def placement (p : Placement) : List (String × String) :=
  [("raw", option (fun t => quoted (String.ofList t)) p.raw),
    ("range", option (fun s => "(" ++ toString s.start ++ ", " ++ toString s.stop ++ ")") p.span),
    ("line", option toString p.line),
    ("column", option toString p.column)]

/-- Names and displays, joined. -/
def assignments (separator : String) (parts : List (String × String)) : String :=
  separator.intercalate (parts.map fun p => p.1 ++ "=" ++ p.2)

mutual

def plain : Json → String
  | .scalar s => scalar s
  | .arr items => bracketed (plainItems items)
  | .obj entries => braced (plainEntries entries)

def plainItems : List Json → List String
  | [] => []
  | j :: rest => plain j :: plainItems rest

def plainEntries : List (String × Json) → List (String × String)
  | [] => []
  | (name, j) :: rest => (name, plain j) :: plainEntries rest

end

mutual

/-- The kind, the place and the fields of a node, displayed. -/
def parts : Node → List (String × String)
  | .mk kind p fields => ("type", quoted kind) :: placement p ++ fieldParts fields

def fieldParts : List (String × Value) → List (String × String)
  | [] => []
  | (name, v) :: rest => (name, value v) :: fieldParts rest

def value : Value → String
  | .scalar s => scalar s
  | .object entries => braced (plainEntries entries)
  | .list items => bracketed (values items)
  | .node n => "Node(" ++ assignments ", " (parts n) ++ ")"

def values : List Value → List String
  | [] => []
  | v :: rest => value v :: values rest

end

end Display

def Value.name : Value → String
  | .scalar (.str s) => s
  | .node n => Display.assignments " " (Display.parts n)
  | v => Display.value v

def Node.name (n : Node) : String :=
  ((n.field? "data").getD (.scalar .null)).name

end SyntaxSpans
