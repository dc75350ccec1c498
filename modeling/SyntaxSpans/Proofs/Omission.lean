import SyntaxSpans.Proofs.Shape

/-!
# Leaving a field out

`Node.without n path` is the tree without the field that holds the node at a path. All else stays where it
is: the walk reaches the same nodes as before, apart from those in the field (`preorder_without`), and new
places may be given before or after (`without_relabelAt`).
-/

namespace SyntaxSpans

mutual

/-- The tree at `path` of a larger one, without the field that holds the node at `target`. -/
def Node.withoutAt (target path : Path) : Node → Node
  | .mk kind placement fields => .mk kind placement (Node.fieldsWithout target path fields)

def Node.fieldsWithout (target path : Path) : List (String × Value) → List (String × Value)
  | [] => []
  | (name, v) :: rest =>
    if ⟨name, []⟩ :: path = target then Node.fieldsWithout target path rest
    else (name, v.withoutIn target path name []) :: Node.fieldsWithout target path rest

/-- A value in the field `name`, at `index` in nested lists. -/
def Value.withoutIn (target path : Path) (name : String) (index : List Nat) : Value → Value
  | .scalar s => .scalar s
  | .object entries => .object entries
  | .list items => .list (Value.itemsWithout target path name index 0 items)
  | .node n => .node (n.withoutAt target (⟨name, index⟩ :: path))

def Value.itemsWithout (target path : Path) (name : String) (index : List Nat) (i : Nat) :
    List Value → List Value
  | [] => []
  | v :: rest =>
    v.withoutIn target path name (index ++ [i]) :: Value.itemsWithout target path name index (i + 1) rest

end

def Node.without (n : Node) (target : Path) : Node := n.withoutAt target []

/-! ## Values -/

section
variable {target path : Path} {name : String}

@[simp] theorem Node.kind_withoutAt (n : Node) : (n.withoutAt target path).kind = n.kind := by
  cases n; rfl

@[simp] theorem Node.placement_withoutAt (n : Node) :
    (n.withoutAt target path).placement = n.placement := by
  cases n; rfl

theorem Node.fields_withoutAt (n : Node) :
    (n.withoutAt target path).fields = Node.fieldsWithout target path n.fields := by
  cases n; rfl

/-- The field is out of sight, and all others are found as before. -/
theorem lookup_fieldsWithout (fields : List (String × Value)) (name : String) :
    (Node.fieldsWithout target path fields).lookup name =
      if ⟨name, []⟩ :: path = target then none
      else (fields.lookup name).map (·.withoutIn target path name []) := by
  induction fields with
  | nil => simp [Node.fieldsWithout]
  | cons e rest ih =>
    obtain ⟨key, v⟩ := e
    rw [Node.fieldsWithout]
    by_cases hk : name = key
    · subst hk
      split
      · next h => rw [ih, if_pos h]
      · rw [List.lookup_cons_self, List.lookup_cons_self, Option.map_some]
    · have hbeq : (name == key) = false := beq_eq_false_iff_ne.2 hk
      have htail : ∀ w, ((key, w) :: rest).lookup name = rest.lookup name := fun w => by
        rw [List.lookup_cons, hbeq]
      rw [htail v, ← ih]
      split
      · rfl
      · rw [List.lookup_cons, hbeq]

/-- The fields that are left, with what they hold. -/
theorem fieldsWithout_eq_map (fields : List (String × Value)) : Node.fieldsWithout target path fields =
    (fields.filter fun e => decide (⟨e.1, []⟩ :: path ≠ target)).map
      fun e => (e.1, e.2.withoutIn target path e.1 []) := by
  induction fields with
  | nil => rfl
  | cons e rest ih =>
    rw [Node.fieldsWithout, List.filter_cons]
    split
    · next h => rw [if_neg (by simpa using h), ih]
    · next h => rw [if_pos (by simpa using h), List.map_cons, ih]

theorem fieldNames_withoutAt (n : Node) : (n.withoutAt target path).fieldNames =
    n.fieldNames.filter fun name => decide (⟨name, []⟩ :: path ≠ target) := by
  rw [Node.fieldNames, Node.fields_withoutAt, fieldsWithout_eq_map, Node.fieldNames, List.map_map,
    List.filter_map]
  rfl

mutual

theorem withoutIn_eq_mapNodes (v : Value) (index : List Nat) : v.withoutIn target path name index =
    v.mapNodes (fun index n => n.withoutAt target (⟨name, index⟩ :: path)) index := by
  cases v with
  | scalar | object | node => rfl
  | list items => exact congrArg Value.list (itemsWithout_eq_mapItems items index 0)

theorem itemsWithout_eq_mapItems (items : List Value) (index : List Nat) (i : Nat) :
    Value.itemsWithout target path name index i items =
      Value.mapItems (fun index n => n.withoutAt target (⟨name, index⟩ :: path)) index i items := by
  cases items with
  | nil => rfl
  | cons v rest =>
    rw [Value.itemsWithout, Value.mapItems, withoutIn_eq_mapNodes v, itemsWithout_eq_mapItems rest]

end

theorem Node.forall_withoutAt {names : List String → Prop} {data : Value → Prop}
    (hnames : ∀ {xs ys : List String}, xs.Sublist ys → names ys → names xs) (n : Node) (path : Path)
    (h : n.Forall names data) : (n.withoutAt target path).Forall names data := by
  rw [Node.forall_iff] at h ⊢
  rw [fieldNames_withoutAt, Node.fields_withoutAt, fieldsWithout_eq_map]
  refine ⟨hnames List.filter_sublist h.1, fun e he => ?_⟩
  obtain ⟨e, hleft, rfl⟩ := List.mem_map.1 he
  have hmem := List.mem_of_mem_filter hleft
  rw [withoutIn_eq_mapNodes]
  refine Value.forall_mapNodes e.2 [] (fun q hq hnode => ?_) (h.2 e hmem)
  have := Node.sizeOf_nodesAt_lt hmem hq
  exact Node.forall_withoutAt hnames q.2 _ hnode
termination_by sizeOf n

theorem regular_without {n : Node} (h : n.Regular) : (n.without target).Regular :=
  Node.forall_withoutAt (fun hsub hproper =>
    ⟨hproper.1.sublist hsub, fun name hname => hproper.2 name (hsub.subset hname)⟩) n [] h

/-- **New places may be given before or after** a field is left out. -/
theorem Node.without_relabelAt (f : Relabelling) (n : Node) (path : Path) :
    (n.relabelAt f path).withoutAt target path = (n.withoutAt target path).relabelAt f path := by
  have below : ∀ e ∈ n.fields, (e.2.relabelIn f path e.1 []).withoutIn target path e.1 [] =
      (e.2.withoutIn target path e.1 []).relabelIn f path e.1 [] := fun e he => by
    rw [relabelIn_eq_mapNodes, withoutIn_eq_mapNodes, withoutIn_eq_mapNodes, relabelIn_eq_mapNodes,
      mapNodes_mapNodes, mapNodes_mapNodes]
    refine mapNodes_congr e.2 [] fun q hq => ?_
    have := Node.sizeOf_nodesAt_lt he hq
    exact Node.without_relabelAt f q.2 _
  obtain ⟨kind, placement, fields⟩ := n
  rw [Node.fields_mk] at below
  rw [Node.relabelAt, Node.withoutAt, Node.withoutAt, Node.relabelAt, relabelFields_eq_map,
    relabelFields_eq_map, fieldsWithout_eq_map, fieldsWithout_eq_map, List.filter_map, List.map_map,
    List.map_map]
  refine congrArg (Node.mk _ _) (List.map_congr_left fun e he => ?_)
  exact congrArg (Prod.mk e.1) (below e (List.mem_of_mem_filter he))
termination_by sizeOf n

end

/-! ## Nodes -/

namespace Cursor

/-- The node without the field that holds the node at a path, if that is its own or one below. -/
def without (target : Path) (c : Cursor) : Cursor :=
  ⟨c.node.withoutAt target c.path, c.path, c.parentKind⟩

section
variable {target above : Path} {field : String} {c : Cursor}

@[simp] theorem path_without : (c.without target).path = c.path := rfl

@[simp] theorem kind_without : (c.without target).kind = c.kind := c.node.kind_withoutAt

@[simp] theorem placement_without : (c.without target).node.placement = c.node.placement :=
  c.node.placement_withoutAt

theorem down_without (slot : Slot) (n : Node) :
    (c.without target).down slot (n.withoutAt target (slot :: c.path)) = (c.down slot n).without target := by
  rw [down, kind_without]
  rfl

theorem field?_without (name : String) : (c.without target).node.field? name =
    if ⟨name, []⟩ :: c.path = target then none
    else (c.node.field? name).map (·.withoutIn target c.path name []) := by
  rw [Node.field?, show (c.without target).node.fields = _ from Node.fields_withoutAt c.node]
  exact lookup_fieldsWithout c.node.fields name

theorem exchanges_without {name : String} (h : ⟨name, []⟩ :: c.path ≠ target) :
    Exchanges (without target) (fun index n => n.withoutAt target (⟨name, index⟩ :: c.path)) c name where
  content := by
    rw [Node.content, field?_without, if_neg h, Node.content]
    cases c.node.field? name with
    | none => rfl
    | some v => exact withoutIn_eq_mapNodes v []
  down index n := down_without ⟨name, index⟩ n

theorem nodesIn_without (name : String) : (c.without target).nodesIn name =
    if ⟨name, []⟩ :: c.path = target then [] else (c.nodesIn name).map (without target) := by
  split
  · next h => rw [nodesIn, field?_without, if_pos h]
  · next h => exact (exchanges_without h).nodesIn

/-- A node of which a field is left out reflects the node, unless that is a field of patterns. -/
theorem reflects_without (h : field ∉ patternFields) :
    Reflects (fun _ => True) (without (⟨field, []⟩ :: above)) where
  kind _ := kind_without
  child? _ name hname := (exchanges_without fun heq => h (by simp at heq; rwa [← heq.1])).child?
  elements _ name hname := (exchanges_without fun heq => h (by simp at heq; rwa [← heq.1])).elements
  closed _ _ := trivial

/-! ## The walk -/

theorem nodesIn_of_child? {d : Cursor} {name : String} (h : c.child? name = some d) :
    c.nodesIn name = [d] := by
  simp only [child?, Node.child?, Option.map_eq_some_iff] at h
  obtain ⟨n, hn, rfl⟩ := h
  split at hn
  · next n' hfield =>
    cases hn
    rw [nodesIn, hfield]
    rfl
  · cases hn

/-- Below `c` the path leads to a node that a field holds, and that has no children. -/
structure HoldsLeaf (c : Cursor) (target : Path) : Prop where
  slot : ∃ field above, target = ⟨field, []⟩ :: above
  held : ∀ d, c.Contains d → ∀ name, ⟨name, []⟩ :: d.path = target → ∃ e, d.child? name = some e
  leaf : ∀ d, c.Contains d → d.path = target → d.children = []

theorem HoldsLeaf.below {d : Cursor} (h : c.HoldsLeaf target) (hd : c.Contains d) : d.HoldsLeaf target :=
  ⟨h.slot, fun e he => h.held e (hd.trans he), fun e he => h.leaf e (hd.trans he)⟩

/-- What a field of a node of the tree holds, if that has no children. -/
theorem holdsLeaf_of_child? {d e : Cursor} (hd : c.Contains d) (he : d.child? field = some e)
    (hleaf : e.children = []) : c.HoldsLeaf e.path := by
  have hpath := path_of_child? he
  refine ⟨⟨field, d.path, hpath⟩, fun d' hd' name hname => ?_, fun e' he' hpath' => ?_⟩
  · rw [hpath, List.cons.injEq, Slot.mk.injEq] at hname
    obtain ⟨⟨rfl, -⟩, hname⟩ := hname
    rw [hd'.eq_of_path hd hname]
    exact ⟨e, he⟩
  · rw [he'.eq_of_path (hd.child he) hpath']
    exact hleaf

/-- The nodes that a node loses are those that stand at the path. -/
theorem nodesIn_without_eq_filter (hc : c.HoldsLeaf target) (name : String) :
    (c.without target).nodesIn name =
      ((c.nodesIn name).filter fun d => decide (d.path ≠ target)).map (without target) := by
  obtain ⟨⟨field, above, htarget⟩, hheld, -⟩ := hc
  rw [nodesIn_without]
  split
  · next h =>
    obtain ⟨d, hd⟩ := hheld c .refl name h
    have hpath : d.path = target := (path_of_child? hd).trans h
    rw [nodesIn_of_child? hd, List.filter_singleton, hpath]
    simp
  · next h =>
    rw [List.filter_eq_self.2 fun e he => ?_]
    obtain ⟨index, hpath⟩ := path_of_mem_nodesIn he
    rw [decide_eq_true_iff, hpath, htarget]
    rintro heq
    simp only [List.cons.injEq, Slot.mk.injEq] at heq
    obtain ⟨⟨rfl, rfl⟩, hpath'⟩ := heq
    exact h (by rw [htarget, hpath'])

theorem children_without (hc : c.HoldsLeaf target) : (c.without target).children =
    (c.children.filter fun d => decide (d.path ≠ target)).map (without target) := by
  have hin : (c.without target).nodesIn = _ := funext (nodesIn_without_eq_filter hc)
  have hfields : (c.without target).children = c.node.childFields.flatMap (c.without target).nodesIn := by
    unfold children Node.childFields
    rw [show (c.without target).node.kind = c.node.kind from kind_without]
    cases Node.knownFields? c.node.kind with
    | some names => rfl
    | none =>
      rw [Option.getD_none, Option.getD_none,
        show (c.without target).node.fieldNames = _ from fieldNames_withoutAt c.node]
      refine flatMap_filter_of_nil fun name _ hname => ?_
      rw [nodesIn_without, if_pos (by simpa using hname)]
  rw [hfields, hin, children, List.filter_flatMap, List.map_flatMap]

/-- **The walk** over the tree without a leaf reaches all other nodes, in the same order. -/
theorem preorder_without {c : Cursor} (hc : c.HoldsLeaf target) (hpath : c.path ≠ target) :
    (c.without target).preorder =
      (c.preorder.filter fun d => decide (d.path ≠ target)).map (without target) := by
  have hbelow : ∀ d ∈ c.children, d.path ≠ target → (d.without target).preorder =
      (d.preorder.filter fun d => decide (d.path ≠ target)).map (without target) := fun d hd hne => by
    have := sizeOf_children_lt hd
    exact preorder_without (hc.below (contains_of_mem_children hd)) hne
  -- the leaf itself adds nothing
  have hleaf : ∀ d ∈ c.children, decide (d.path ≠ target) = false →
      (d.preorder.filter fun d => decide (d.path ≠ target)).map (without target) = [] := fun d hd h => by
    have hpath : d.path = target := by simpa using h
    rw [preorder_leaf (hc.leaf d (contains_of_mem_children hd) hpath), List.filter_singleton, hpath]
    simp
  rw [preorder_eq, preorder_eq c, children_without hc, List.filter_cons, if_pos (by simpa using hpath),
    List.map_cons, List.filter_flatMap, List.map_flatMap, ← flatMap_filter_of_nil hleaf, List.flatMap_map]
  refine congrArg (c.without target :: ·) ?_
  rw [List.flatMap_def, List.flatMap_def]
  refine congrArg List.flatten (List.map_congr_left fun d hd => ?_)
  obtain ⟨hd, hne⟩ := List.mem_filter.1 hd
  exact hbelow d hd (by simpa using hne)
termination_by sizeOf c.node

theorem contains_of_without {d' : Cursor} (hslot : ∃ field above, target = ⟨field, []⟩ :: above)
    (hc : ¬ target <:+ c.path) (h : (c.without target).Contains d') :
    ∃ d, c.Contains d ∧ d' = d.without target ∧ ¬ target <:+ d.path := by
  induction h with
  | refl => exact ⟨c, .refl, rfl, hc⟩
  | @down d' e' name _ he ih =>
    obtain ⟨d, hd, rfl, hnot⟩ := ih
    rw [nodesIn_without] at he
    split at he
    · cases he
    · next hne =>
      obtain ⟨e, hmem, rfl⟩ := List.mem_map.1 he
      refine ⟨e, hd.down hmem, rfl, fun hsuffix => ?_⟩
      obtain ⟨index, hpath⟩ := path_of_mem_nodesIn hmem
      obtain ⟨field, above, rfl⟩ := hslot
      rw [hpath, List.suffix_cons_iff] at hsuffix
      rcases hsuffix with heq | hsuffix
      · simp only [List.cons.injEq, Slot.mk.injEq] at heq
        obtain ⟨⟨rfl, rfl⟩, rfl⟩ := heq
        exact hne rfl
      · exact hnot hsuffix

end

end Cursor

end SyntaxSpans
