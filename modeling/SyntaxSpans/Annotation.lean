import SyntaxSpans.Placement.Session
import SyntaxSpans.Scope.Binding

/-!
# Annotating a tree

One walk over the tree links each node to its parent, gives it its scope, binds there what the node
introduces, and resolves where the node stands. A fault ends the walk; then there is no annotation,
but the records up to there remain.
-/

namespace SyntaxSpans

/-- What the walk has found out. -/
structure Annotation where
  progress : Progress := {}
  forest : Forest Cursor := {}
  scopes : Std.TreeMap Path ScopeId := {}
  visited : Nat := 0

abbrev Annotating := EStateM Fault Annotation

namespace Annotation

def scopeAt? (a : Annotation) (path : Path) : Option ScopeId := a.scopes[path]?

def outerScope? (a : Annotation) : Path → Option ScopeId
  | [] => none
  | _ :: parent => a.scopeAt? parent

def resolving {α : Type} (step : Resolving α) : Annotating α := fun a =>
  match step a.progress with
  | .ok x progress => .ok x { a with progress }
  | .error fault progress => .error fault { a with progress }

/-- Gives a node its scope and binds what it introduces. -/
def enterScope (c : Cursor) : Annotating Unit := do
  let a ← get
  let (forest, scope, fault) := a.forest.enterNode c c.path.isEmpty (a.outerScope? c.path)
  let scopes := match scope with
    | some i => a.scopes.insert c.path i
    | none => a.scopes
  set { a with forest, scopes }
  match fault with
  | some fault => throw fault
  | none => pure ()

def visit (l : Locator) (c : Cursor) : Annotating Bool := do
  if c.path.isEmpty then pure () else resolving (Resolving.link c)
  enterScope c
  resolving (l.resolve c)
  modify fun a => { a with visited := a.visited + 1 }
  return true

def pass (l : Locator) (tree : Node) : Annotating Unit := do
  (Cursor.root tree).walk (visit l)
  let a ← get
  resolving (Resolving.record (.annotated a.visited))

/-- Annotates a tree against a source. What was found out is there also after a fault. -/
def run (source : Text) (window : Window) (tree : Node) : Annotation × Option Fault :=
  match pass (.ofSource source window) tree {} with
  | .ok () a => (a, none)
  | .error fault a => (a, some fault)

end Annotation

/-- A tree whose nodes stand where the annotation has placed them, with their scopes. -/
structure Annotated where
  tree : Node
  annotation : Annotation

/-- Annotates a tree against a source. -/
def annotate (source : Text) (window : Window) (tree : Node) : Except Fault Annotated :=
  match Annotation.run source window tree with
  | (a, none) => .ok ⟨a.progress.place tree, a⟩
  | (_, some fault) => .error fault

namespace Annotated

def nodes (a : Annotated) : List Cursor := (Cursor.root a.tree).preorder

def scope? (a : Annotated) (c : Cursor) : Option ScopeId := a.annotation.scopeAt? c.path

def log (a : Annotated) : List Record := a.annotation.progress.log

end Annotated

end SyntaxSpans
