import SyntaxSpans.Placement.Resolve
import SyntaxSpans.Tree.Relabel
import SyntaxSpans.Tree.Walk

/-!
# Resolving step by step

A tree, what has been found out about it so far, and single steps on its nodes: what an editor does
that does not annotate the whole tree in one go.
-/

namespace SyntaxSpans

/-- The tree whose nodes stand where a resolution has placed them. -/
def Progress.place (p : Progress) (tree : Node) : Node :=
  tree.relabel fun path label =>
    match p.marks[path]? with
    | some m => (label.1, m.placement)
    | none => label

structure Session where
  locator : Locator
  tree : Node
  progress : Progress := {}

/-- A step into a tree: a named field, or a position in a list. -/
inductive Session.Step where
  | field (name : String)
  | item (i : Nat)

namespace Session

/-- Follows steps inside the field `name` of a node, at `index` in nested lists. -/
def followIn (c : Cursor) (name : String) (index : List Nat) (v : Value) (steps : List Step) :
    Option Cursor :=
  match v, steps with
  | .node n, [] => some (c.down ⟨name, index⟩ n)
  | .node n, .field next :: steps =>
    match n.field? next with
    | some v => followIn (c.down ⟨name, index⟩ n) next [] v steps
    | none => none
  | .list items, .item i :: steps =>
    match items[i]? with
    | some v => followIn c name (index ++ [i]) v steps
    | none => none
  | _, _ => none
termination_by steps

def follow? (c : Cursor) : List Step → Option Cursor
  | [] => some c
  | .field name :: steps => (c.node.field? name).bind fun v => followIn c name [] v steps
  | .item _ :: _ => none

def at? (s : Session) (steps : List Step) : Option Cursor := follow? (.root s.tree) steps

/-- Runs a step of a resolution; what it found out stays, also when it ends in a fault. -/
def run {α : Type} (s : Session) (step : Resolving α) : Session × Except Fault α :=
  match step s.progress with
  | .ok a progress => ({ s with progress }, .ok a)
  | .error fault progress => ({ s with progress }, .error fault)

def linkAll (s : Session) : Session × Except Fault Unit :=
  s.run <| (Cursor.root s.tree).walk fun c => do
    if c.path.isEmpty then pure () else Resolving.link c
    return true

def resolve (s : Session) (c : Cursor) : Session × Except Fault Unit := s.run (s.locator.resolve c)

def strip (s : Session) (c : Cursor) (adjust : Bool) : Session × Except Fault Bool :=
  s.run (s.locator.strip c adjust)

def setPlacement (s : Session) (c : Cursor) (change : Placement → Placement) : Session :=
  (s.run do Resolving.place c (change (← Resolving.placement c))).1

def setKind (s : Session) (c : Cursor) (kind : String) : Session :=
  { s with tree := s.tree.setKind c.path kind }

def surrounded (s : Session) (c : Cursor) (opening : String) : Except Bracket.Error Bool :=
  Bracket.surrounds opening (s.progress.mark c).placement.span s.locator.source

/-- The nodes that the walk reaches with what is known of each, and the position of its parent in
this list, if it is linked. -/
def overview (s : Session) : List (Cursor × Mark × Option Nat) :=
  let nodes := (Cursor.root s.tree).preorder
  let positions := Cursor.positions nodes
  nodes.map fun c =>
    let m := s.progress.mark c
    (c, m, if m.linked then positions[c.path.drop 1]? else none)

end Session

end SyntaxSpans
