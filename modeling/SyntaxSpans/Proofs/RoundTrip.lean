import SyntaxSpans.Proofs.Shape

/-!
# Writing a tree and reading it again

A regular tree with finite numbers that is written as JSON and read again is the same tree without its
empty fields (`ofJson_dump`). Nothing looks at those: the pruned tree mirrors the tree, is written the
same, and its nodes stand at the same places.
-/

namespace SyntaxSpans

/-! ## Pruning -/

def Value.isNull : Value → Bool
  | .scalar .null => true
  | _ => false

@[simp] theorem isNull_node (n : Node) : (Value.node n).isNull = false := rfl

mutual

/-- The tree without the fields that hold null. -/
def Node.prune : Node → Node
  | .mk kind placement fields => .mk kind placement (Node.pruneFields fields)

def Node.pruneFields : List (String × Value) → List (String × Value)
  | [] => []
  | (name, v) :: rest =>
    if v.isNull then Node.pruneFields rest else (name, v.prune) :: Node.pruneFields rest

def Value.prune : Value → Value
  | .scalar s => .scalar s
  | .object entries => .object entries
  | .list items => .list (Value.pruneItems items)
  | .node n => .node n.prune

def Value.pruneItems : List Value → List Value
  | [] => []
  | v :: rest => v.prune :: Value.pruneItems rest

end

@[simp] theorem Node.kind_prune (n : Node) : n.prune.kind = n.kind := by cases n; rfl

@[simp] theorem Node.placement_prune (n : Node) : n.prune.placement = n.placement := by cases n; rfl

theorem Node.fields_prune (n : Node) : n.prune.fields = Node.pruneFields n.fields := by cases n; rfl

/-- Among fields of different names, pruning removes those that hold null from sight. -/
theorem lookup_pruneFields {fields : List (String × Value)} (h : (fields.map (·.1)).Nodup)
    (name : String) : (Node.pruneFields fields).lookup name =
      (fields.lookup name).bind fun v => if v.isNull then none else some v.prune := by
  induction fields with
  | nil => rfl
  | cons f rest ih =>
    obtain ⟨key, v⟩ := f
    simp only [List.map_cons, List.nodup_cons] at h
    rw [Node.pruneFields]
    by_cases hk : name = key
    · subst hk
      rw [List.lookup_cons_self, Option.bind_some]
      split
      -- the field is dropped, and no other one has its name
      · have hnone : rest.lookup name = none := by
          rw [List.lookup_eq_none_iff]
          intro e he
          rw [bne_iff_ne]
          rintro rfl
          exact h.1 (List.mem_map_of_mem he)
        rw [ih h.2, hnone]
        rfl
      · rw [List.lookup_cons_self]
    · have hbeq : (name == key) = false := beq_eq_false_iff_ne.2 hk
      have htail : ∀ w, ((key, w) :: rest).lookup name = rest.lookup name := fun w => by
        rw [List.lookup_cons, hbeq]
      rw [htail v, ← ih h.2]
      split
      · rfl
      · rw [List.lookup_cons, hbeq]

mutual

theorem prune_eq_mapNodes (v : Value) (index : List Nat) :
    v.prune = v.mapNodes (fun _ n => n.prune) index := by
  cases v with
  | scalar | object | node => rfl
  | list items => exact congrArg Value.list (pruneItems_eq_mapItems items index 0)

theorem pruneItems_eq_mapItems (items : List Value) (index : List Nat) (i : Nat) :
    Value.pruneItems items = Value.mapItems (fun _ n => n.prune) index i items := by
  cases items with
  | nil => rfl
  | cons v rest =>
    rw [Value.pruneItems, Value.mapItems, prune_eq_mapNodes v, pruneItems_eq_mapItems rest]

end

/-- The fields that are left, with what they hold. -/
theorem pruneFields_eq_map (fields : List (String × Value)) : Node.pruneFields fields =
    (fields.filter fun e => !e.2.isNull).map fun e => (e.1, e.2.prune) := by
  induction fields with
  | nil => rfl
  | cons e rest ih =>
    rw [Node.pruneFields, List.filter_cons]
    cases e.2.isNull with
    | true => exact ih
    | false => exact congrArg (List.cons _) ih

theorem fieldNames_pruneFields (fields : List (String × Value)) :
    ((Node.pruneFields fields).map (·.1)).Sublist (fields.map (·.1)) := by
  rw [pruneFields_eq_map, List.map_map]
  exact List.filter_sublist.map _

theorem regular_prune {n : Node} (h : n.Regular) : n.prune.Regular := by
  obtain ⟨hnames, hfields⟩ := Node.forall_iff.1 h
  have hsub : n.prune.fieldNames.Sublist n.fieldNames := by
    rw [Node.fieldNames, Node.fields_prune]
    exact fieldNames_pruneFields n.fields
  refine Node.forall_iff.2 ⟨⟨hnames.1.sublist hsub, fun name hname => hnames.2 name (hsub.subset hname)⟩,
    fun e he => ?_⟩
  rw [Node.fields_prune, pruneFields_eq_map] at he
  obtain ⟨e, hleft, rfl⟩ := List.mem_map.1 he
  have hmem := List.mem_of_mem_filter hleft
  rw [prune_eq_mapNodes e.2 []]
  refine Value.forall_mapNodes e.2 [] (fun q hq hnode => ?_) (hfields e hmem)
  have := Node.sizeOf_nodesAt_lt hmem hq
  exact regular_prune hnode
termination_by sizeOf n

/-! ## The pruned tree as a mirror -/

namespace Cursor

/-- The node without its empty fields and those below it. -/
def pruned (c : Cursor) : Cursor := ⟨c.node.prune, c.path, c.parentKind⟩

section
variable {c : Cursor}

theorem kind_pruned (c : Cursor) : c.pruned.kind = c.kind := c.node.kind_prune

theorem down_pruned (c : Cursor) (slot : Slot) (n : Node) :
    c.pruned.down slot n.prune = (c.down slot n).pruned := by
  rw [down, kind_pruned]
  rfl

theorem field?_pruned (h : c.node.Regular) (name : String) : c.pruned.node.field? name =
    (c.node.field? name).bind fun v => if v.isNull then none else some v.prune := by
  have hnames := (Node.forall_iff.1 h).1.1
  unfold Node.field?
  rw [show c.pruned.node.fields = _ from c.node.fields_prune]
  exact lookup_pruneFields hnames name

theorem exchanges_pruned (h : c.node.Regular) (name : String) :
    Exchanges pruned (fun _ n => n.prune) c name where
  content := by
    rw [Node.content, field?_pruned h, Node.content]
    cases c.node.field? name with
    | none => rfl
    | some v =>
      rw [Option.bind_some, Option.getD_some]
      cases hnull : v.isNull with
      | true =>
        cases v with
        | scalar s => cases s <;> first | rfl | cases hnull
        | object | list | node => cases hnull
      | false => exact prune_eq_mapNodes v []
  down index n := down_pruned c ⟨name, index⟩ n

theorem flatMap_pruneFields {α : Type} {fields : List (String × Value)} {g : String → List α}
    (h : ∀ f ∈ fields, f.2.isNull = true → g f.1 = []) :
    ((Node.pruneFields fields).map (·.1)).flatMap g = (fields.map (·.1)).flatMap g := by
  rw [pruneFields_eq_map, List.map_map, List.flatMap_map, List.flatMap_map]
  exact flatMap_filter_of_nil fun f hf hleft => h f hf (by simpa using hleft)

theorem children_pruned (h : c.node.Regular) : c.pruned.children = c.children.map pruned := by
  have hin : c.pruned.nodesIn = fun name => (c.nodesIn name).map pruned :=
    funext fun name => (exchanges_pruned h name).nodesIn
  unfold children Node.childFields
  rw [show c.pruned.node.kind = c.node.kind from kind_pruned c, List.map_flatMap, hin]
  cases Node.knownFields? c.node.kind with
  | some names => rfl
  | none =>
    show (c.node.prune.fields.map (·.1)).flatMap _ = _
    rw [Node.fields_prune]
    refine flatMap_pruneFields fun f hf hnull => ?_
    obtain ⟨name, v⟩ := f
    have hfield : c.node.field? name = some v := lookup_of_mem (Node.forall_iff.1 h).1.1 hf
    cases v with
    | scalar s => simp [nodesIn, hfield, Value.nodesAt]
    | object | list | node => cases hnull

/-- A pruned tree mirrors the tree. -/
theorem mirror_pruned : Mirror (fun c => c.node.Regular) pruned where
  kind _ := kind_pruned _
  child? h name := (exchanges_pruned h name).child?
  elements h name := (exchanges_pruned h name).elements
  children h := children_pruned h
  closed h hd := Cursor.forall_nodesIn h hd

end

end Cursor

/-! ## Reading what was written -/

section

theorem nodeFields_cons (name : String) (v : Value) (rest : List (String × Value)) :
    Dump.nodeFields ((name, v) :: rest) =
      if v.isNull then Dump.nodeFields rest else (name, Dump.value v) :: Dump.nodeFields rest := by
  cases v with
  | scalar s => cases s <;> rfl
  | object | list | node => rfl

/-- The written fields are those that pruning leaves. -/
theorem fieldNames_nodeFields (fields : List (String × Value)) :
    (Dump.nodeFields fields).map (·.1) = (Node.pruneFields fields).map (·.1) := by
  induction fields with
  | nil => rfl
  | cons f rest ih =>
    obtain ⟨name, v⟩ := f
    rw [nodeFields_cons, Node.pruneFields]
    split
    · exact ih
    · rw [List.map_cons, List.map_cons, ih]

theorem dump_scalar {s : Scalar} (h : s.Finite) : Dump.scalar s = .scalar s := by
  cases s with
  | float x => exact if_pos h
  | null | bool | int | str => rfl

mutual

/-- Plain data with finite numbers is written as it is. -/
theorem dump_plain (j : Json) (h : j.Finite) : Dump.plain j = j := by
  cases j with
  | scalar s => exact dump_scalar h
  | arr items => rw [Dump.plain, dump_plainItems items h]
  | obj entries => rw [Dump.plain, dump_plainEntries entries h]

theorem dump_plainItems (items : List Json) (h : Json.FiniteItems items) :
    Dump.plainItems items = items := by
  cases items with
  | nil => rfl
  | cons j rest => rw [Dump.plainItems, dump_plain j h.1, dump_plainItems rest h.2]

theorem dump_plainEntries (entries : List (String × Json)) (h : Json.FiniteEntries entries) :
    Dump.plainEntries entries = entries := by
  cases entries with
  | nil => rfl
  | cons e rest => rw [Dump.plainEntries, dump_plain e.2 h.1, dump_plainEntries rest h.2]

end

end

namespace Validation

/-- What the entries that say where a node stands hold. -/
theorem lookup_placement (p : Placement) :
    (Dump.placement p).lookup "raw" = p.raw.map (fun t => Json.str (String.ofList t)) ∧
    (Dump.placement p).lookup "range" = p.span.map (fun s => Json.arr [.int s.start, .int s.stop]) ∧
    (Dump.placement p).lookup "line" = p.line.map Json.int ∧
    (Dump.placement p).lookup "column" = p.column.map Json.int ∧
    (Dump.placement p).lookup "parent" = none := by
  obtain ⟨⟨span, line, column⟩, raw⟩ := p
  cases raw <;> cases span <;> cases line <;> cases column <;>
    simp [Dump.placement, List.lookup_cons]

theorem reserved_placement (p : Placement) :
    ∀ e ∈ Dump.placement p, reserved.contains e.1 = true := by
  obtain ⟨⟨span, line, column⟩, raw⟩ := p
  cases raw <;> cases span <;> cases line <;> cases column <;>
    simp [Dump.placement, reserved]

section
variable {kind : String} {p : Placement} {rest : List (String × Json)}

theorem lookup_written (h : ∀ e ∈ rest, reserved.contains e.1 = false) {name : String}
    (hname : reserved.contains name = true) (hne : name ≠ "type") :
    (("type", Json.str kind) :: Dump.placement p ++ rest).lookup name =
      (Dump.placement p).lookup name := by
  have hrest : rest.lookup name = none := by
    rw [List.lookup_eq_none_iff]
    intro e he
    rw [bne_iff_ne]
    rintro rfl
    rw [h e he] at hname
    cases hname
  rw [List.cons_append, List.lookup_cons, beq_eq_false_iff_ne.2 hne, List.lookup_append, hrest,
    Option.or_none]

theorem declared_written (h : ∀ e ∈ rest, reserved.contains e.1 = false) :
    declared (("type", Json.str kind) :: Dump.placement p ++ rest) = .ok (kind, p) := by
  obtain ⟨hraw, hspan, hline, hcolumn, hparent⟩ := lookup_placement p
  have integers : ∀ (name : String) (n : Option Int),
      (("type", Json.str kind) :: Dump.placement p ++ rest).lookup name = n.map Json.int →
      optional integerAt name (("type", Json.str kind) :: Dump.placement p ++ rest) = .ok n := by
    intro name n hn
    rw [optional, hn]
    cases n <;> rfl
  have raw : optional text "raw" (("type", Json.str kind) :: Dump.placement p ++ rest) =
      .ok p.raw := by
    rw [optional, lookup_written h (by decide) (by decide), hraw]
    cases p.raw with
    | none => rfl
    | some t => simp [Json.str, text, Except.map]
  have range : optional span "range" (("type", Json.str kind) :: Dump.placement p ++ rest) =
      .ok p.span := by
    rw [optional, lookup_written h (by decide) (by decide), hspan]
    cases p.span <;> rfl
  have noParent : parent (("type", Json.str kind) :: Dump.placement p ++ rest) = .ok () := by
    rw [parent, lookup_written h (by decide) (by decide), hparent]
  rw [declared, raw, range, integers "line" p.line, integers "column" p.column, noParent]
  · rfl
  · rw [lookup_written h (by decide) (by decide), hcolumn]
  · rw [lookup_written h (by decide) (by decide), hline]

theorem conversions_append (a b : List (String × Json)) :
    conversions (a ++ b) = conversions a ++ conversions b := by
  rw [conversions_eq_map, conversions_eq_map, conversions_eq_map, List.map_append]

theorem sequence_map_ok (values : List (String × Value)) :
    sequence (values.map fun e => (e.1, .ok e.2)) = .ok values := by
  induction values with
  | nil => rfl
  | cons e rest ih => rw [List.map_cons, sequence, ih]; rfl

theorem assemble_written {fields : List (String × Value)}
    (h : ∀ e ∈ rest, reserved.contains e.1 = false)
    (hfields : conversions rest = fields.map fun e => (e.1, .ok e.2)) :
    assemble (("type", Json.str kind) :: Dump.placement p ++ rest)
      (conversions (("type", Json.str kind) :: Dump.placement p ++ rest)) =
      .ok (.mk kind p fields) := by
  have hparent : (("type", Json.str kind) :: Dump.placement p ++ rest).lookup "parent" = none := by
    rw [lookup_written h (by decide) (by decide)]
    exact (lookup_placement p).2.2.2.2
  -- of what was converted only the fields are left
  have hplace : (conversions (("type", Json.str kind) :: Dump.placement p)).filter
      (fun f => !reserved.contains f.1) = [] := by
    rw [List.filter_eq_nil_iff, conversions_eq_map]
    intro f hf
    obtain ⟨e, he, rfl⟩ := List.mem_map.1 hf
    have hreserved : reserved.contains e.1 = true := by
      rcases List.mem_cons.1 he with rfl | he
      · rfl
      · exact reserved_placement p e he
    rw [hreserved]
    decide
  have hrest : (conversions rest).filter (fun f => !reserved.contains f.1) = conversions rest := by
    rw [List.filter_eq_self, conversions_eq_map]
    intro f hf
    obtain ⟨e, he, rfl⟩ := List.mem_map.1 hf
    rw [h e he]
    rfl
  have hfilter : (conversions (("type", Json.str kind) :: Dump.placement p ++ rest)).filter
      (fun f => !reserved.contains f.1) = fields.map fun e => (e.1, .ok e.2) := by
    rw [conversions_append, List.filter_append, hplace, hrest, hfields, List.nil_append]
  rw [assemble, declared_written h]
  simp only [bind, Except.bind, moveSuperclass, hparent, hfilter, sequence_map_ok]
  rfl

end

theorem assemble_dump (kind : String) (p : Placement) {fields : List (String × Value)}
    (hnames : Node.ProperNames (fields.map (·.1)))
    (hfields : conversions (Dump.nodeFields fields) =
      (Node.pruneFields fields).map fun e => (e.1, .ok e.2)) :
    assemble (("type", Json.str kind) :: Dump.placement p ++ Dump.nodeFields fields)
      (conversions (("type", Json.str kind) :: Dump.placement p ++ Dump.nodeFields fields)) =
      .ok (.mk kind p (Node.pruneFields fields)) := by
  refine assemble_written (fun e he => hnames.2 e.1 ?_) hfields
  refine (fieldNames_pruneFields fields).subset ?_
  rw [← fieldNames_nodeFields]
  exact List.mem_map_of_mem he

mutual

/-- A written value is read as the value without its empty fields. -/
theorem value_dump (v : Value) (hr : v.Forall Node.ProperNames Value.Proper)
    (hf : v.Forall (fun _ => True) Value.FiniteData) : value (Dump.value v) = .ok v.prune := by
  cases v with
  | scalar s =>
    rw [Dump.value, dump_scalar hf]
    rfl
  | object entries =>
    have hnode : isNode entries = false := hr
    rw [Dump.value, dump_plainEntries entries hf, value, if_neg (by simp [hnode])]
    rfl
  | list items =>
    rw [Dump.value, value, values_dump items hr hf]
    rfl
  | node n =>
    obtain ⟨kind, p, fields⟩ := n
    have hassemble := assemble_dump kind p hr.1 (conversions_dump fields hr.2 hf.2)
    rw [Dump.value, Dump.node, value, if_pos (by simp [isNode, Json.str]), hassemble]
    rfl

theorem values_dump (items : List Value) (hr : Value.ForallItems Node.ProperNames Value.Proper items)
    (hf : Value.ForallItems (fun _ => True) Value.FiniteData items) :
    values (Dump.values items) = .ok (Value.pruneItems items) := by
  cases items with
  | nil => rfl
  | cons v rest =>
    rw [Dump.values, values, value_dump v hr.1 hf.1, values_dump rest hr.2 hf.2]
    rfl

theorem conversions_dump (fields : List (String × Value))
    (hr : Node.ForallFields Node.ProperNames Value.Proper fields)
    (hf : Node.ForallFields (fun _ => True) Value.FiniteData fields) :
    conversions (Dump.nodeFields fields) =
      (Node.pruneFields fields).map fun e => (e.1, .ok e.2) := by
  cases fields with
  | nil => rfl
  | cons f rest =>
    obtain ⟨name, v⟩ := f
    have hrest := conversions_dump rest hr.2 hf.2
    rw [nodeFields_cons, Node.pruneFields]
    split
    · exact hrest
    · rw [conversions, value_dump v hr.1 hf.1, hrest]
      rfl

end

end Validation

/-- **Reading what was written** gives the tree without its empty fields. -/
theorem ofJson_dump {n : Node} (hr : n.Regular) (hf : n.Finite) :
    Node.ofJson n.dump = .ok n.prune := by
  obtain ⟨kind, p, fields⟩ := n
  exact Validation.assemble_dump kind p hr.1 (Validation.conversions_dump fields hr.2 hf.2)

/-! ## Writing a pruned tree -/

theorem isNull_prune (v : Value) : v.prune.isNull = v.isNull := by
  cases v <;> rfl

mutual

theorem dump_prune (v : Value) : Dump.value v.prune = Dump.value v := by
  cases v with
  | scalar | object => rfl
  | list items => rw [Value.prune, Dump.value, dump_pruneItems items, Dump.value]
  | node n =>
    obtain ⟨kind, p, fields⟩ := n
    rw [Value.prune, Node.prune, Dump.value, Dump.node, dump_pruneFields fields, Dump.value,
      Dump.node]

theorem dump_pruneItems (items : List Value) :
    Dump.values (Value.pruneItems items) = Dump.values items := by
  cases items with
  | nil => rfl
  | cons v rest => rw [Value.pruneItems, Dump.values, dump_prune v, dump_pruneItems rest, Dump.values]

theorem dump_pruneFields (fields : List (String × Value)) :
    Dump.nodeFields (Node.pruneFields fields) = Dump.nodeFields fields := by
  cases fields with
  | nil => rfl
  | cons f rest =>
    obtain ⟨name, v⟩ := f
    have hrest := dump_pruneFields rest
    rw [nodeFields_cons, Node.pruneFields]
    split
    · exact hrest
    · next hnull => rw [nodeFields_cons, isNull_prune, if_neg hnull, dump_prune v, hrest]

end

theorem fieldLevels_cons (name : String) (v : Value) (rest : List (String × Value)) :
    Dump.fieldLevels ((name, v) :: rest) =
      if v.isNull then Dump.fieldLevels rest
      else max (Dump.valueLevels v) (Dump.fieldLevels rest) := by
  cases v with
  | scalar s => cases s <;> rfl
  | object | list | node => rfl

mutual

theorem levels_prune (v : Value) : Dump.valueLevels v.prune = Dump.valueLevels v := by
  cases v with
  | scalar | object => rfl
  | list items => rw [Value.prune, Dump.valueLevels, levels_pruneItems items, Dump.valueLevels]
  | node n =>
    obtain ⟨kind, p, fields⟩ := n
    rw [Value.prune, Node.prune, Dump.valueLevels, Dump.nodeLevels, levels_pruneFields fields,
      Dump.valueLevels, Dump.nodeLevels]

theorem levels_pruneItems (items : List Value) :
    Dump.itemLevels (Value.pruneItems items) = Dump.itemLevels items := by
  cases items with
  | nil => rfl
  | cons v rest =>
    rw [Value.pruneItems, Dump.itemLevels, levels_prune v, levels_pruneItems rest, Dump.itemLevels]

theorem levels_pruneFields (fields : List (String × Value)) :
    Dump.fieldLevels (Node.pruneFields fields) = Dump.fieldLevels fields := by
  cases fields with
  | nil => rfl
  | cons f rest =>
    obtain ⟨name, v⟩ := f
    have hrest := levels_pruneFields rest
    rw [fieldLevels_cons, Node.pruneFields]
    split
    · exact hrest
    · next hnull => rw [fieldLevels_cons, isNull_prune, if_neg hnull, levels_prune v, hrest]

end

/-- **Empty fields are not written.** -/
theorem write_prune (n : Node) : n.prune.write = n.write := by
  obtain ⟨kind, p, fields⟩ := n
  have hdump : (Node.mk kind p (Node.pruneFields fields)).dump = (Node.mk kind p fields).dump := by
    simp only [Node.dump, Dump.node, dump_pruneFields]
  have hlevels : (Node.mk kind p (Node.pruneFields fields)).dumpLevels =
      (Node.mk kind p fields).dumpLevels := by
    simp only [Node.dumpLevels, Dump.nodeLevels, levels_pruneFields]
  rw [Node.prune, Node.write, hdump, hlevels, Node.write]

/-! ## Writing a relabelled tree -/

theorem isNull_relabelIn (f : Relabelling) (path : Path) (name : String) (index : List Nat)
    (v : Value) : (v.relabelIn f path name index).isNull = v.isNull := by
  cases v <;> rfl

mutual

theorem levels_relabelIn (f : Relabelling) (v : Value) (path : Path) (name : String)
    (index : List Nat) :
    Dump.valueLevels (v.relabelIn f path name index) = Dump.valueLevels v := by
  cases v with
  | scalar | object => rfl
  | list items =>
    rw [Value.relabelIn, Dump.valueLevels, levels_relabelItems f items, Dump.valueLevels]
  | node n =>
    obtain ⟨kind, p, fields⟩ := n
    rw [Value.relabelIn, Node.relabelAt, Dump.valueLevels, Dump.nodeLevels,
      levels_relabelFields f fields, Dump.valueLevels, Dump.nodeLevels]

theorem levels_relabelItems (f : Relabelling) (items : List Value) (path : Path) (name : String)
    (index : List Nat) (i : Nat) :
    Dump.itemLevels (Value.relabelItems f path name index i items) = Dump.itemLevels items := by
  cases items with
  | nil => rfl
  | cons v rest =>
    rw [Value.relabelItems, Dump.itemLevels, levels_relabelIn f v, levels_relabelItems f rest,
      Dump.itemLevels]

theorem levels_relabelFields (f : Relabelling) (fields : List (String × Value)) (path : Path) :
    Dump.fieldLevels (Node.relabelFields f path fields) = Dump.fieldLevels fields := by
  cases fields with
  | nil => rfl
  | cons e rest =>
    obtain ⟨name, v⟩ := e
    rw [Node.relabelFields, fieldLevels_cons, fieldLevels_cons, isNull_relabelIn,
      levels_relabelIn f v, levels_relabelFields f rest]

end

/-- Where nodes stand does not matter to how deep a tree is. -/
theorem dumpLevels_relabel (f : Relabelling) (n : Node) :
    (n.relabel f).dumpLevels = n.dumpLevels := by
  obtain ⟨kind, p, fields⟩ := n
  simp only [Node.relabel, Node.relabelAt, Node.dumpLevels, Dump.nodeLevels,
    levels_relabelFields f fields]

end SyntaxSpans
