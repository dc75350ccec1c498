import SyntaxSpans.Proofs.Descent
import SyntaxSpans.Scope.Binding

/-!
# Values with other nodes

`Value.mapNodes` puts other nodes into a value, each chosen by its position in nested lists, and leaves all
else as it is. New labels, pruning and leaving a field out do that to what the fields of a node hold, so it
is said once what follows: where a map between nodes goes along with a field (`Exchanges`), it goes along
with the nodes in it, the child that it holds and its elements.
-/

namespace SyntaxSpans

mutual

/-- The value with other nodes. -/
def Value.mapNodes (g : List Nat → Node → Node) (index : List Nat) : Value → Value
  | .scalar s => .scalar s
  | .object entries => .object entries
  | .list items => .list (Value.mapItems g index 0 items)
  | .node n => .node (g index n)

def Value.mapItems (g : List Nat → Node → Node) (index : List Nat) (i : Nat) : List Value → List Value
  | [] => []
  | v :: rest => v.mapNodes g (index ++ [i]) :: Value.mapItems g index (i + 1) rest

end

section
variable {g g' : List Nat → Node → Node}

theorem mapItems_eq_mapIdx (g : List Nat → Node → Node) (index : List Nat) (i : Nat) (items : List Value) :
    Value.mapItems g index i items = items.mapIdx fun k v => v.mapNodes g (index ++ [i + k]) := by
  induction items generalizing i with
  | nil => rfl
  | cons v rest ih =>
    rw [Value.mapItems, ih, List.mapIdx_cons]
    simp only [Nat.add_right_comm, Nat.add_assoc, Nat.add_zero]

theorem mapNodes_eq_null_iff {v : Value} {index : List Nat} :
    v.mapNodes g index = .scalar .null ↔ v = .scalar .null := by
  cases v <;> simp [Value.mapNodes]

mutual

/-- The nodes stand where those did that they were chosen for. -/
theorem nodesAt_mapNodes (g : List Nat → Node → Node) (v : Value) (index : List Nat) :
    (v.mapNodes g index).nodesAt index = (v.nodesAt index).map fun q => (q.1, g q.1 q.2) := by
  cases v with
  | scalar | object | node => rfl
  | list items => exact nodesFrom_mapItems g items index 0

theorem nodesFrom_mapItems (g : List Nat → Node → Node) (items : List Value) (index : List Nat) (i : Nat) :
    Value.nodesFrom index i (Value.mapItems g index i items) =
      (Value.nodesFrom index i items).map fun q => (q.1, g q.1 q.2) := by
  cases items with
  | nil => rfl
  | cons v rest =>
    rw [Value.mapItems, Value.nodesFrom, Value.nodesFrom, List.map_append, nodesAt_mapNodes g v,
      nodesFrom_mapItems g rest]

end

mutual

theorem mapNodes_congr (v : Value) (index : List Nat) (h : ∀ q ∈ v.nodesAt index, g q.1 q.2 = g' q.1 q.2) :
    v.mapNodes g index = v.mapNodes g' index := by
  cases v with
  | scalar | object => rfl
  | node n => exact congrArg Value.node (h (index, n) List.mem_cons_self)
  | list items => exact congrArg Value.list (mapItems_congr items index 0 h)

theorem mapItems_congr (items : List Value) (index : List Nat) (i : Nat)
    (h : ∀ q ∈ Value.nodesFrom index i items, g q.1 q.2 = g' q.1 q.2) :
    Value.mapItems g index i items = Value.mapItems g' index i items := by
  cases items with
  | nil => rfl
  | cons v rest =>
    rw [Value.nodesFrom] at h
    rw [Value.mapItems, Value.mapItems, mapNodes_congr v _ fun q hq => h q (List.mem_append_left _ hq),
      mapItems_congr rest index (i + 1) fun q hq => h q (List.mem_append_right _ hq)]

end

mutual

theorem mapNodes_id (v : Value) (index : List Nat) : v.mapNodes (fun _ n => n) index = v := by
  cases v with
  | scalar | object | node => rfl
  | list items => exact congrArg Value.list (mapItems_id items index 0)

theorem mapItems_id (items : List Value) (index : List Nat) (i : Nat) :
    Value.mapItems (fun _ n => n) index i items = items := by
  cases items with
  | nil => rfl
  | cons v rest => rw [Value.mapItems, mapNodes_id v, mapItems_id rest]

end

mutual

theorem mapNodes_mapNodes (g g' : List Nat → Node → Node) (v : Value) (index : List Nat) :
    (v.mapNodes g index).mapNodes g' index = v.mapNodes (fun index n => g' index (g index n)) index := by
  cases v with
  | scalar | object | node => rfl
  | list items => exact congrArg Value.list (mapItems_mapItems g g' items index 0)

theorem mapItems_mapItems (g g' : List Nat → Node → Node) (items : List Value) (index : List Nat) (i : Nat) :
    Value.mapItems g' index i (Value.mapItems g index i items) =
      Value.mapItems (fun index n => g' index (g index n)) index i items := by
  cases items with
  | nil => rfl
  | cons v rest =>
    rw [Value.mapItems, Value.mapItems, Value.mapItems, mapNodes_mapNodes g g' v,
      mapItems_mapItems g g' rest]

end

end

theorem Node.sizeOf_nodesAt_lt {n : Node} {e : String × Value} (he : e ∈ n.fields) {index : List Nat}
    {q : List Nat × Node} (hq : q ∈ e.2.nodesAt index) : sizeOf q.2 < sizeOf n := by
  have hnode := Value.sizeOf_nodesAt_le e.2 index q hq
  have hentry := List.sizeOf_lt_of_mem he
  have hfields := n.sizeOf_fields_lt
  obtain ⟨name, v⟩ := e
  rw [Prod.mk.sizeOf_spec] at hentry
  simp only at hnode
  omega

/-! ## What a field holds -/

/-- The content of a field. A field that there is not holds null. -/
def Node.content (n : Node) (name : String) : Value := (n.field? name).getD (.scalar .null)

theorem field?_of_content {n : Node} {name : String} {v : Value} (h : n.content name = v)
    (hv : v ≠ .scalar .null) : n.field? name = some v := by
  unfold Node.content at h
  cases hfield : n.field? name with
  | none =>
    rw [hfield] at h
    exact absurd h.symm hv
  | some w =>
    rw [hfield] at h
    exact congrArg some h

def Element.map (φ : Cursor → Cursor) : Element → Element
  | .absent => .absent
  | .node d => .node (φ d)
  | .data => .data

namespace Cursor

theorem nodesIn_eq (c : Cursor) (name : String) :
    c.nodesIn name = ((c.node.content name).nodesAt []).map fun q => c.down ⟨name, q.1⟩ q.2 := by
  unfold nodesIn Node.content
  cases c.node.field? name <;> rfl

theorem child?_eq (c : Cursor) (name : String) : c.child? name =
    match c.node.content name with
    | .node n => some (c.down ⟨name, []⟩ n)
    | _ => none := by
  unfold child? Node.child? Node.content
  cases c.node.field? name with
  | none => rfl
  | some v => cases v <;> rfl

section
variable {c d : Cursor} {name : String} {φ : Cursor → Cursor}

theorem elements_of_null (h : c.node.content name = .scalar .null) : c.elements name = .ok [] := by
  unfold Node.content at h
  unfold elements
  cases hfield : c.node.field? name with
  | none => rfl
  | some v =>
    rw [hfield] at h
    obtain rfl : v = .scalar .null := h
    rfl

/-- A scalar has no nodes among its elements, so that they may be replaced. -/
theorem elements_scalar {s : Scalar} (hc : c.node.field? name = some (.scalar s))
    (hd : d.node.field? name = some (.scalar s)) :
    d.elements name = (c.elements name).map (·.map (·.map φ)) := by
  unfold elements
  rw [hc, hd]
  cases s with
  | null => rfl
  | bool b => cases b <;> rfl
  | int n => simp only; split <;> rfl
  | float x => simp only; split <;> rfl
  | str t => simp only; split <;> rfl

theorem elements_object {entries : List (String × Json)}
    (hc : c.node.field? name = some (.object entries))
    (hd : d.node.field? name = some (.object entries)) :
    d.elements name = (c.elements name).map (·.map (·.map φ)) := by
  unfold elements
  rw [hc, hd]
  simp only
  split <;> rfl

theorem elements_list {items items' : List Value} (hc : c.node.field? name = some (.list items))
    (hd : d.node.field? name = some (.list items'))
    (hitems : ∀ i : Nat, items'[i]?.map (Element.ofValue d name i) =
      items[i]?.map fun v => (Element.ofValue c name i v).map φ) :
    d.elements name = (c.elements name).map (·.map (·.map φ)) := by
  unfold elements
  rw [hc, hd]
  refine congrArg Except.ok (List.ext_getElem? fun i => ?_)
  rw [List.getElem?_mapIdx, List.getElem?_map, List.getElem?_mapIdx, Option.map_map]
  exact hitems i

end

/-- The field `name` holds the same for `φ c` as for `c`, but with the nodes that `φ` makes of those
below `c`. -/
structure Exchanges (φ : Cursor → Cursor) (g : List Nat → Node → Node) (c : Cursor) (name : String) :
    Prop where
  content : (φ c).node.content name = (c.node.content name).mapNodes g []
  down : ∀ index n, (φ c).down ⟨name, index⟩ (g index n) = φ (c.down ⟨name, index⟩ n)

namespace Exchanges

variable {φ : Cursor → Cursor} {g : List Nat → Node → Node} {c : Cursor} {name : String}

theorem nodesIn (h : Exchanges φ g c name) : (φ c).nodesIn name = (c.nodesIn name).map φ := by
  rw [nodesIn_eq, nodesIn_eq, h.content, nodesAt_mapNodes, List.map_map, List.map_map]
  exact List.map_congr_left fun q _ => h.down q.1 q.2

theorem child? (h : Exchanges φ g c name) : (φ c).child? name = (c.child? name).map φ := by
  rw [child?_eq, child?_eq, h.content]
  cases c.node.content name with
  | node n => exact congrArg some (h.down [] n)
  | scalar | object | list => rfl

theorem elements (h : Exchanges φ g c name) :
    (φ c).elements name = (c.elements name).map (·.map (·.map φ)) := by
  by_cases hnull : c.node.content name = .scalar .null
  · rw [elements_of_null hnull, elements_of_null (h.content.trans (mapNodes_eq_null_iff.2 hnull))]
    rfl
  · have hc := field?_of_content rfl hnull
    have hd := field?_of_content h.content fun heq => hnull (mapNodes_eq_null_iff.1 heq)
    cases hv : c.node.content name with
    | scalar s => exact elements_scalar (hv ▸ hc) (by rw [hd, hv]; rfl)
    | object entries => exact elements_object (hv ▸ hc) (by rw [hd, hv]; rfl)
    | node n =>
      rw [hv] at hc hd
      rw [Cursor.elements, Cursor.elements, hc, hd]
      rfl
    | list items =>
      refine elements_list (hv ▸ hc) (by rw [hd, hv]; rfl) fun i => ?_
      rw [mapItems_eq_mapIdx, List.getElem?_mapIdx, Option.map_map]
      refine congrArg (items[i]?.map ·) (funext fun v => ?_)
      cases v with
      | node n =>
        simp only [Value.mapNodes, Element.ofValue, Element.map, List.nil_append, Nat.zero_add,
          Function.comp]
        exact congrArg Element.node (h.down [i] n)
      | scalar s => cases s <;> rfl
      | object | list => rfl

end Exchanges

end Cursor

end SyntaxSpans
