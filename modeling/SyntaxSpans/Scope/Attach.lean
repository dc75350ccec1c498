import SyntaxSpans.Scope.Binding

/-!
# Attaching nodes one by one

Nodes that are given their scopes in any order, each below a parent of the caller's choice. A node may
come with data where its scope will be. Such data serves as the scope of its parent would, but nothing
can be bound in it, and a scope that is opened inside it cannot be described.
-/

namespace SyntaxSpans

/-- What stands in the place of a node's scope. -/
inductive Held where
  | nothing
  | data
  | scope (i : ScopeId)
deriving DecidableEq, Repr

def Held.scope? : Held → Option ScopeId
  | scope i => some i
  | _ => none

structure Attachment where
  nodes : Array Cursor
  held : Array Held
  forest : Forest Cursor := {}
  /-- The scopes that were opened inside data. -/
  stray : List ScopeId := []
  /-- The scopes that an answer has named, in the order of their first mention. -/
  named : Array ScopeId := #[]

namespace Attachment

/-- Nodes without parents, and whether each of them came with data for its scope. -/
def ofNodes (nodes : List (Node × Bool)) : Attachment where
  nodes := (nodes.map fun (n, _) => Cursor.root n).toArray
  held := (nodes.map fun (_, hasData) => if hasData then .data else .nothing).toArray

/-- Counts a scope among those that answers have named; the answer names it by its place there. -/
def name (a : Attachment) (i : ScopeId) : Attachment × Nat :=
  match a.named.findIdx? (· == i) with
  | some k => (a, k)
  | none => ({ a with named := a.named.push i }, a.named.size)

def scopeNamed (a : Attachment) (k : Nat) : ScopeId := (a.named[k]?).getD a.forest.scopes.size

def openScope (a : Attachment) (parent : Option ScopeId) : Attachment × Nat :=
  let (forest, i) := a.forest.add parent
  { a with forest }.name i

/-- What a node holds after it was entered below a parent that holds `outer`, and whether it opened a
scope inside data. -/
def entered (scope : Option ScopeId) (kind : String) (isRoot : Bool) (outer : Held) : Held × Bool :=
  match scope with
  | some i => (.scope i, outer = .data && !isRoot && functionKinds.contains kind)
  | none => (outer, false)

def outer (a : Attachment) : Option Nat → Held
  | some p => (a.held[p]?).getD .nothing
  | none => .nothing

/-- Attaches a node below a parent, or below none, and gives it its scope. -/
def attach (a : Attachment) (k : Nat) (parent : Option Nat) : Attachment × Except Fault Nat :=
  let c := (a.nodes[k]?).getD (.root default)
  let (forest, scope, fault) := a.forest.enterNode c parent.isNone (a.outer parent).scope?
  let (held, isStray) := entered scope c.kind parent.isNone (a.outer parent)
  let a := {
    a with
    forest
    held := a.held.setIfInBounds k held
    stray := if isStray then scope.toList ++ a.stray else a.stray }
  match fault, scope with
  | some fault, _ => (a, .error fault)
  | none, none => (a, .error .notNode)
  | none, some i =>
    let (a, place) := a.name i
    (a, .ok place)

/-- Whether every scope that was named can be described: none of them stands inside data. -/
def isDescribable (a : Attachment) : Bool :=
  a.named.all fun i => (a.forest.chain i).all fun j => !a.stray.contains j

end Attachment

end SyntaxSpans
