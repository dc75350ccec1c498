import SyntaxSpans.Scope.Forest
import SyntaxSpans.Scope.Pattern
import SyntaxSpans.Tree.Display

/-!
# Names that nodes bind

Parameters are declared in the scope of their function, whatever the name means outside. Assignments,
loop variables, class names and caught errors bind a name only where it has no meaning yet.
-/

namespace SyntaxSpans

def functionKinds : List String := ["Function", "BoundFunction"]

/-- Identifiers to bind, in order; a fault tells that there would be more behind them, had their
pattern been sound. -/
structure Introduced where
  identifiers : List Cursor
  fault : Option Fault := none

namespace Introduced

def nothing : Introduced := ⟨[], none⟩

/-- The identifiers of a pattern, or none of them when it is not sound. -/
def ofPattern : Except Fault (List Cursor) → Introduced
  | .ok identifiers => ⟨identifiers, none⟩
  | .error fault => ⟨[], some fault⟩

/-- What the second adds, unless the first ended in a fault. -/
def append (a b : Introduced) : Introduced :=
  match a.fault with
  | some _ => a
  | none => ⟨a.identifiers ++ b.identifiers, b.fault⟩

end Introduced

namespace Cursor

def patternIn (c : Cursor) (name : String) : Introduced :=
  match c.child? name with
  | some pattern => .ofPattern pattern.identifiers
  | none => .nothing

def identifierIn (c : Cursor) (name : String) : Introduced :=
  match c.child? name with
  | some d => if d.kind = "Identifier" then ⟨[d], none⟩ else .nothing
  | none => .nothing

def parameterIdentifiers : List Element → Introduced
  | [] => .nothing
  | e :: rest =>
    let first : Introduced := match e with
      | .absent => .nothing
      | .node pattern => .ofPattern pattern.identifiers
      | .data => ⟨[], some .notNode⟩
    first.append (parameterIdentifiers rest)

/-- The identifiers that a node binds in its scope. -/
def introduced (c : Cursor) : Introduced :=
  match c.kind with
  | "AssignOp" => c.patternIn "assignee"
  | "CompoundAssignOp" | "ExistsAssignOp" => c.identifierIn "assignee"
  | "Function" | "BoundFunction" =>
    match c.elements "parameters" with
    | .ok parameters => parameterIdentifiers parameters
    | .error fault => ⟨[], some fault⟩
  | "ForIn" | "ForOf" => (c.patternIn "keyAssignee").append (c.patternIn "valAssignee")
  | "Class" => c.identifierIn "nameAssignee"
  | "Try" => c.patternIn "catchAssignee"
  | _ => .nothing

/-- Whether a node declares what it binds, instead of assigning it. -/
def declares (c : Cursor) : Bool := functionKinds.contains c.kind

end Cursor

namespace Forest

def introduce (f : Forest Cursor) (i : ScopeId) (declares : Bool) (identifier : Cursor) :
    Forest Cursor :=
  if declares then f.declare i identifier.node.name identifier
  else f.assign i identifier.node.name identifier

/-- Binds what a node introduces in a scope. Bindings made before a fault stay. -/
def bindIntroduced (f : Forest Cursor) (i : ScopeId) (c : Cursor) : Forest Cursor × Option Fault :=
  let introduced := c.introduced
  (introduced.identifiers.foldl (fun f d => f.introduce i c.declares d) f, introduced.fault)

/-- The scope of a node, given that of its parent. A program and a node without a parent open one
that stands alone, a function opens one inside that of its parent, and all other nodes share the
scope of their parent, if it has any. -/
def enter (f : Forest Cursor) (kind : String) (isRoot : Bool) (outer : Option ScopeId) :
    Forest Cursor × Option ScopeId :=
  if kind = "Program" || isRoot then
    let (f, i) := f.add none
    (f, some i)
  else if functionKinds.contains kind then
    let (f, i) := f.add outer
    (f, some i)
  else (f, outer)

/-- Gives a node its scope and binds there what it introduces. A node that is left without a scope
is a fault. -/
def enterNode (f : Forest Cursor) (c : Cursor) (isRoot : Bool) (outer : Option ScopeId) :
    Forest Cursor × Option ScopeId × Option Fault :=
  let (f, scope) := f.enter c.kind isRoot outer
  match scope with
  | none => (f, none, some .notNode)
  | some i =>
    let (f, fault) := f.bindIntroduced i c
    (f, some i, fault)

def describe (f : Forest Cursor) (i : ScopeId) : String :=
  let names := ((f.scope? i).map fun s => s.sorted.map (·.1)).getD []
  "Scope(depth=" ++ toString (f.depth i) ++ ", bindings=" ++ quotedList names ++ ")"

end Forest

end SyntaxSpans
