import SyntaxSpans.Proofs.Mirror
import SyntaxSpans.Proofs.Pass

/-!
# The annotated tree

The tree that an annotation gives back is the tree that it was given, with other places. Its nodes are
`placed` ones: where the walk reached a node it now reaches the placed one (`nodes_eq`), and that stands
where the annotation has marked it (`placement_placed`).
-/

namespace SyntaxSpans

/-! ## Relabelled values -/

section
variable {f : Relabelling} {path : Path} {name : String}

theorem relabelFields_eq_map (fields : List (String × Value)) :
    Node.relabelFields f path fields = fields.map fun e => (e.1, e.2.relabelIn f path e.1 []) := by
  induction fields with
  | nil => rfl
  | cons e rest ih => rw [Node.relabelFields, ih]; rfl

theorem lookup_map_snd {α β : Type} (fields : List (String × α)) (g : String → α → β)
    (name : String) :
    (fields.map fun e => (e.1, g e.1 e.2)).lookup name = (fields.lookup name).map (g name) := by
  induction fields with
  | nil => rfl
  | cons e rest ih =>
    obtain ⟨key, value⟩ := e
    by_cases h : name = key
    · subst h; simp
    · simp [List.lookup_cons, beq_eq_false_iff_ne.2 h, ih]

theorem fields_relabelAt (n : Node) :
    (n.relabelAt f path).fields = Node.relabelFields f path n.fields := by
  cases n; rfl

theorem field?_relabelAt (n : Node) (name : String) :
    (n.relabelAt f path).field? name = (n.field? name).map (·.relabelIn f path name []) := by
  rw [Node.field?, fields_relabelAt, relabelFields_eq_map,
    lookup_map_snd n.fields fun key v => v.relabelIn f path key []]
  rfl

theorem fieldNames_relabelAt (n : Node) : (n.relabelAt f path).fieldNames = n.fieldNames := by
  rw [Node.fieldNames, fields_relabelAt, relabelFields_eq_map, List.map_map]
  rfl

mutual

theorem relabelIn_eq_mapNodes (v : Value) (index : List Nat) :
    v.relabelIn f path name index = v.mapNodes (fun index n => n.relabelAt f (⟨name, index⟩ :: path)) index := by
  cases v with
  | scalar | object | node => rfl
  | list items => exact congrArg Value.list (relabelItems_eq_mapItems items index 0)

theorem relabelItems_eq_mapItems (items : List Value) (index : List Nat) (i : Nat) :
    Value.relabelItems f path name index i items =
      Value.mapItems (fun index n => n.relabelAt f (⟨name, index⟩ :: path)) index i items := by
  cases items with
  | nil => rfl
  | cons v rest =>
    rw [Value.relabelItems, Value.mapItems, relabelIn_eq_mapNodes v, relabelItems_eq_mapItems rest]

end

end

/-! ## Relabelled nodes -/

namespace Cursor

def relabelled (f : Relabelling) (c : Cursor) : Cursor :=
  ⟨c.node.relabelAt f c.path, c.path, c.parentKind⟩

section
variable {f : Relabelling} (hf : ∀ path label, (f path label).1 = label.1)
include hf

theorem kind_relabelled (c : Cursor) : (c.relabelled f).kind = c.kind := by
  obtain ⟨⟨kind, placement, fields⟩, path, parentKind⟩ := c
  exact hf path (kind, placement)

theorem down_relabelled (c : Cursor) (slot : Slot) (n : Node) :
    (c.relabelled f).down slot (n.relabelAt f (slot :: c.path)) = (c.down slot n).relabelled f := by
  rw [down, kind_relabelled hf]
  rfl

theorem exchanges_relabelled (c : Cursor) (name : String) :
    Exchanges (relabelled f) (fun index n => n.relabelAt f (⟨name, index⟩ :: c.path)) c name where
  content := by
    have hfield : (c.relabelled f).node.field? name = _ := field?_relabelAt c.node name
    rw [Node.content, hfield, Node.content]
    cases c.node.field? name with
    | none => rfl
    | some v => exact relabelIn_eq_mapNodes v []
  down index n := down_relabelled hf c ⟨name, index⟩ n

theorem children_relabelled (c : Cursor) :
    (c.relabelled f).children = c.children.map (relabelled f) := by
  have hfields : (c.relabelled f).node.childFields = c.node.childFields := by
    unfold Node.childFields
    rw [show (c.relabelled f).node.kind = c.node.kind from kind_relabelled hf c]
    exact congrArg _ (fieldNames_relabelAt c.node)
  rw [children, children, hfields, List.map_flatMap]
  exact congrArg (c.node.childFields.flatMap ·) (funext fun name => (exchanges_relabelled hf c name).nodesIn)

/-- A relabelled tree mirrors the tree if the kinds stay. -/
theorem mirror_relabelled : Mirror (fun _ => True) (relabelled f) where
  kind _ := kind_relabelled hf _
  child? _ name := (exchanges_relabelled hf _ name).child?
  elements _ name := (exchanges_relabelled hf _ name).elements
  children _ := children_relabelled hf _
  closed _ _ := trivial

end

end Cursor

/-! ## Placed nodes -/

namespace Progress

def labels (p : Progress) : Relabelling := fun path label =>
  match p.marks[path]? with
  | some m => (label.1, m.placement)
  | none => label

theorem place_eq (p : Progress) (tree : Node) : p.place tree = tree.relabel p.labels := rfl

theorem kind_labels (p : Progress) (path : Path) (label : String × Placement) :
    (p.labels path label).1 = label.1 := by
  unfold labels
  split <;> rfl

/-- A node is given the place that it is marked with. -/
theorem labels_mark (p : Progress) (c : Cursor) :
    p.labels c.path (c.kind, c.node.placement) = (c.kind, (p.mark c).placement) := by
  unfold labels mark
  cases p.marks[c.path]? <;> rfl

def placed (p : Progress) (c : Cursor) : Cursor := c.relabelled p.labels

section
variable (p : Progress) (c : Cursor)

@[simp] theorem path_placed : (p.placed c).path = c.path := rfl

@[simp] theorem kind_placed : (p.placed c).kind = c.kind := Cursor.kind_relabelled p.kind_labels c

@[simp] theorem placement_placed : (p.placed c).node.placement = (p.mark c).placement := by
  obtain ⟨⟨kind, placement, fields⟩, path, parentKind⟩ := c
  show (p.labels path (kind, placement)).2 = _
  unfold labels mark
  cases p.marks[path]? <;> rfl

theorem mirror_placed : Cursor.Mirror (fun _ => True) p.placed := Cursor.mirror_relabelled p.kind_labels

theorem root_place (tree : Node) : Cursor.root (p.place tree) = p.placed (.root tree) := rfl

end

end Progress

/-- The walk reaches the placed nodes in the order in which it reached the nodes. -/
theorem nodes_eq {source : Text} {window : Window} {tree : Node} {a : Annotated}
    (h : annotate source window tree = .ok a) :
    a.nodes = (Cursor.root tree).preorder.map a.annotation.progress.placed := by
  rw [Annotated.nodes, (annotate_ok.1 h).2, Progress.root_place]
  exact (Progress.mirror_placed _).preorder_map trivial

end SyntaxSpans
