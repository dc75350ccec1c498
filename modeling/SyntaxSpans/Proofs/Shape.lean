import SyntaxSpans.Proofs.Placed
import SyntaxSpans.Tree.Dump
import SyntaxSpans.Tree.Validation

/-!
# The shape of a tree

`Node.Forall names data` says something of the field names of every node of a tree and of all plain data
in its fields. A tree that was read from JSON is `Regular`: no node has two fields of one name or a field
of a reserved name, and no plain object could be taken for a node. Places have no part in it, so
annotating a tree changes nothing about its shape. Of a regular tree with new places it is enough to know
where its nodes stand (`relabelled_congr`).
-/

namespace SyntaxSpans

/-! ## Properties of all names and data -/

mutual

/-- `names` holds of the field names of each node, and `data` of the plain data. -/
def Node.Forall (names : List String → Prop) (data : Value → Prop) : Node → Prop
  | .mk _ _ fields => names (fields.map (·.1)) ∧ Node.ForallFields names data fields

def Node.ForallFields (names : List String → Prop) (data : Value → Prop) :
    List (String × Value) → Prop
  | [] => True
  | (_, v) :: rest => v.Forall names data ∧ Node.ForallFields names data rest

def Value.Forall (names : List String → Prop) (data : Value → Prop) : Value → Prop
  | .scalar s => data (.scalar s)
  | .object entries => data (.object entries)
  | .list items => Value.ForallItems names data items
  | .node n => n.Forall names data

def Value.ForallItems (names : List String → Prop) (data : Value → Prop) : List Value → Prop
  | [] => True
  | v :: rest => v.Forall names data ∧ Value.ForallItems names data rest

end

section
variable {names : List String → Prop} {data : Value → Prop}

theorem forallFields_iff {fields : List (String × Value)} :
    Node.ForallFields names data fields ↔ ∀ f ∈ fields, f.2.Forall names data := by
  induction fields with
  | nil => simp [Node.ForallFields]
  | cons f rest ih => simp [Node.ForallFields, ih]

theorem Node.forall_iff {n : Node} : n.Forall names data ↔
    names n.fieldNames ∧ ∀ f ∈ n.fields, f.2.Forall names data := by
  cases n
  rw [Node.Forall, forallFields_iff]
  rfl

mutual

theorem Value.forall_nodesAt (v : Value) (index : List Nat) (h : v.Forall names data) :
    ∀ p ∈ v.nodesAt index, p.2.Forall names data := by
  intro p hp
  cases v with
  | scalar | object => simp [Value.nodesAt] at hp
  | node n => simp [Value.nodesAt] at hp; subst hp; exact h
  | list items => exact Value.forall_nodesFrom items index 0 h p hp

theorem Value.forall_nodesFrom (items : List Value) (index : List Nat) (i : Nat)
    (h : Value.ForallItems names data items) :
    ∀ p ∈ Value.nodesFrom index i items, p.2.Forall names data := by
  intro p hp
  cases items with
  | nil => simp [Value.nodesFrom] at hp
  | cons v rest =>
    rw [Value.nodesFrom, List.mem_append] at hp
    rcases hp with hp | hp
    · exact Value.forall_nodesAt v _ h.1 p hp
    · exact Value.forall_nodesFrom rest index (i + 1) h.2 p hp

end

mutual

/-- It goes on to hold of the value with other nodes, if it goes on to hold of those. -/
theorem Value.forall_mapNodes {g : List Nat → Node → Node} (v : Value) (index : List Nat)
    (hg : ∀ q ∈ v.nodesAt index, q.2.Forall names data → (g q.1 q.2).Forall names data)
    (h : v.Forall names data) : (v.mapNodes g index).Forall names data := by
  cases v with
  | scalar | object => exact h
  | node n => exact hg (index, n) List.mem_cons_self h
  | list items => exact Value.forall_mapItems items index 0 hg h

theorem Value.forall_mapItems {g : List Nat → Node → Node} (items : List Value) (index : List Nat) (i : Nat)
    (hg : ∀ q ∈ Value.nodesFrom index i items, q.2.Forall names data → (g q.1 q.2).Forall names data)
    (h : Value.ForallItems names data items) :
    Value.ForallItems names data (Value.mapItems g index i items) := by
  cases items with
  | nil => trivial
  | cons v rest =>
    rw [Value.nodesFrom] at hg
    exact ⟨Value.forall_mapNodes v _ (fun q hq => hg q (List.mem_append_left _ hq)) h.1,
      Value.forall_mapItems rest index (i + 1) (fun q hq => hg q (List.mem_append_right _ hq)) h.2⟩

end

/-- What holds of a tree holds below each of its nodes. -/
theorem Cursor.forall_nodesIn {c d : Cursor} {name : String} (h : c.node.Forall names data)
    (hd : d ∈ c.nodesIn name) : d.node.Forall names data := by
  obtain ⟨v, hv, p, hp, rfl⟩ := Cursor.mem_nodesIn.1 hd
  obtain ⟨l, r, hsplit, -⟩ := List.lookup_eq_some_iff.1 hv
  have hmem : (name, v) ∈ c.node.fields := by rw [hsplit]; simp
  exact Value.forall_nodesAt v [] ((Node.forall_iff.1 h).2 _ hmem) p hp

theorem Cursor.Contains.forall {c d : Cursor} (hd : c.Contains d) (h : c.node.Forall names data) :
    d.node.Forall names data := by
  induction hd with
  | refl => exact h
  | down _ he ih => exact Cursor.forall_nodesIn ih he

theorem Node.forall_relabelAt (f : Relabelling) (n : Node) (path : Path) (h : n.Forall names data) :
    (n.relabelAt f path).Forall names data := by
  rw [Node.forall_iff] at h ⊢
  rw [fieldNames_relabelAt, fields_relabelAt, relabelFields_eq_map]
  refine ⟨h.1, fun e he => ?_⟩
  obtain ⟨e, hmem, rfl⟩ := List.mem_map.1 he
  rw [relabelIn_eq_mapNodes]
  refine Value.forall_mapNodes e.2 [] (fun q hq hnode => ?_) (h.2 e hmem)
  have := Node.sizeOf_nodesAt_lt hmem hq
  exact Node.forall_relabelAt f q.2 _ hnode
termination_by sizeOf n

end

/-! ## Regular trees -/

/-- Among fields of different names each is found under its own. -/
theorem lookup_of_mem {α : Type} {fields : List (String × α)} (h : (fields.map (·.1)).Nodup)
    {f : String × α} (hf : f ∈ fields) : fields.lookup f.1 = some f.2 := by
  obtain ⟨l, r, hsplit⟩ := List.append_of_mem hf
  refine List.lookup_eq_some_iff.2 ⟨l, r, hsplit, fun e he => ?_⟩
  rw [hsplit, List.map_append, List.nodup_append] at h
  rw [bne_iff_ne]
  exact fun heq => h.2.2 e.1 (List.mem_map_of_mem he) f.1 (by simp) heq.symm

/-- Names that fields can have together. -/
def Node.ProperNames (names : List String) : Prop :=
  names.Nodup ∧ ∀ name ∈ names, Validation.reserved.contains name = false

/-- Plain data that is not taken for a node. -/
def Value.Proper : Value → Prop
  | .object entries => Validation.isNode entries = false
  | _ => True

/-- A tree as it is read from JSON. -/
def Node.Regular (n : Node) : Prop := n.Forall Node.ProperNames Value.Proper

/-! ## Labels of regular trees -/

theorem Node.relabelAt_id (n : Node) (path : Path) : n.relabelAt (fun _ label => label) path = n := by
  have below : ∀ e ∈ n.fields, (e.1, e.2.relabelIn (fun _ label => label) path e.1 []) = e := fun e he => by
    rw [relabelIn_eq_mapNodes]
    refine congrArg (Prod.mk e.1) ((mapNodes_congr e.2 [] fun q hq => ?_).trans (mapNodes_id e.2 []))
    have := Node.sizeOf_nodesAt_lt he hq
    exact Node.relabelAt_id q.2 _
  obtain ⟨kind, placement, fields⟩ := n
  rw [Node.fields_mk] at below
  rw [Node.relabelAt, relabelFields_eq_map, List.map_congr_left below, List.map_id']
termination_by sizeOf n

/-- **The labels of a regular tree**: relabellings that agree on all its nodes give the same tree. -/
theorem relabelled_congr {f g : Relabelling} {c : Cursor} (hc : c.node.Regular)
    (h : ∀ d, c.Contains d →
      f d.path (d.kind, d.node.placement) = g d.path (d.kind, d.node.placement)) :
    c.node.relabelAt f c.path = c.node.relabelAt g c.path := by
  have below : ∀ e ∈ c.node.fields, e.2.relabelIn f c.path e.1 [] = e.2.relabelIn g c.path e.1 [] := by
    intro e he
    have hfield := lookup_of_mem (Node.forall_iff.1 hc).1.1 he
    rw [relabelIn_eq_mapNodes, relabelIn_eq_mapNodes]
    refine mapNodes_congr e.2 [] fun p hp => ?_
    have hin : c.down ⟨e.1, p.1⟩ p.2 ∈ c.nodesIn e.1 := Cursor.mem_nodesIn.2 ⟨e.2, hfield, p, hp, rfl⟩
    have hsize := Node.sizeOf_nodesAt_lt he hp
    exact relabelled_congr (c := c.down ⟨e.1, p.1⟩ p.2) (Cursor.forall_nodesIn hc hin)
      fun d hd => h d ((Cursor.Contains.refl.down hin).trans hd)
  have hself := h c .refl
  obtain ⟨⟨kind, placement, fields⟩, path, parentKind⟩ := c
  simp only [Cursor.kind, Node.kind_mk, Node.placement_mk] at hself
  simp only [Node.fields_mk] at below
  rw [Node.relabelAt, Node.relabelAt, hself, relabelFields_eq_map, relabelFields_eq_map,
    List.map_congr_left fun e he => by rw [below e he]]
termination_by sizeOf c.node

/-! ## Trees that were read -/

mutual

/-- No object has two entries of one name. -/
def Json.Distinct : Json → Prop
  | .scalar _ => True
  | .arr items => Json.DistinctItems items
  | .obj entries => (entries.map (·.1)).Nodup ∧ Json.DistinctEntries entries

def Json.DistinctItems : List Json → Prop
  | [] => True
  | j :: rest => j.Distinct ∧ Json.DistinctItems rest

def Json.DistinctEntries : List (String × Json) → Prop
  | [] => True
  | (_, j) :: rest => j.Distinct ∧ Json.DistinctEntries rest

end

namespace Validation

section
variable {α : Type}

theorem mem_upsert {entries : List (String × α)} {name : String} {value : α} {e : String × α}
    (h : e ∈ upsert entries name value) : e ∈ entries ∨ e = (name, value) := by
  induction entries with
  | nil => exact Or.inr (List.mem_singleton.1 h)
  | cons f rest ih =>
    obtain ⟨key, old⟩ := f
    rw [upsert] at h
    split at h
    · next hk =>
      rcases List.mem_cons.1 h with rfl | h
      · exact Or.inr (by rw [hk])
      · exact Or.inl (List.mem_cons_of_mem _ h)
    · rcases List.mem_cons.1 h with rfl | h
      · exact Or.inl List.mem_cons_self
      · exact (ih h).imp (List.mem_cons_of_mem _) id

theorem nodup_upsert {entries : List (String × α)} (name : String) (value : α)
    (h : (entries.map (·.1)).Nodup) : ((upsert entries name value).map (·.1)).Nodup := by
  induction entries with
  | nil => simp [upsert]
  | cons f rest ih =>
    obtain ⟨key, old⟩ := f
    rw [upsert]
    split
    · exact h
    · next hk =>
      simp only [List.map_cons, List.nodup_cons] at h ⊢
      refine ⟨fun hmem => ?_, ih h.2⟩
      obtain ⟨e, he, hkey⟩ := List.mem_map.1 hmem
      rcases mem_upsert he with he | rfl
      · exact h.1 (List.mem_map.2 ⟨e, he, hkey⟩)
      · exact hk hkey.symm

/-- Moving the superclass brings in nothing new, and no name twice. -/
theorem mem_moveSuperclass {entries : List (String × Json)} {converted : List (String × α)}
    {e : String × α} (h : e ∈ moveSuperclass entries converted) :
    ∃ name, (name, e.2) ∈ converted := by
  unfold moveSuperclass at h
  split at h
  · next x hx hlookup =>
    rcases mem_upsert h with h | rfl
    · exact ⟨e.1, h⟩
    · obtain ⟨l, r, hsplit, -⟩ := List.lookup_eq_some_iff.1 hlookup
      exact ⟨"parent", by rw [hsplit]; simp⟩
  · exact ⟨e.1, h⟩

theorem nodup_moveSuperclass (entries : List (String × Json)) {converted : List (String × α)}
    (h : (converted.map (·.1)).Nodup) : ((moveSuperclass entries converted).map (·.1)).Nodup := by
  unfold moveSuperclass
  split
  · exact nodup_upsert _ _ h
  · exact h

end

/-- The fields of a node are those that were converted, in the same order. -/
theorem sequence_ok {fields : List (String × Checked Value)} {values : List (String × Value)}
    (h : sequence fields = .ok values) : fields = values.map fun e => (e.1, .ok e.2) := by
  induction fields generalizing values with
  | nil => cases h; rfl
  | cons f rest ih =>
    obtain ⟨name, checked⟩ := f
    cases checked with
    | error issues => cases h
    | ok v =>
      rw [sequence] at h
      cases hrest : sequence rest with
      | error issues => rw [hrest] at h; cases h
      | ok values' =>
        rw [hrest] at h
        cases h
        rw [ih hrest]
        rfl

theorem conversions_eq_map (entries : List (String × Json)) :
    conversions entries = entries.map fun e => (e.1, value e.2) := by
  induction entries with
  | nil => rfl
  | cons e rest ih => rw [conversions, ih]; rfl

theorem fieldNames_conversions (entries : List (String × Json)) :
    (conversions entries).map (·.1) = entries.map (·.1) := by
  rw [conversions_eq_map, List.map_map]
  rfl

theorem regular_assemble {entries : List (String × Json)}
    {converted : List (String × Checked Value)} {n : Node}
    (hnames : (converted.map (·.1)).Nodup)
    (hvalues : ∀ name v, (name, .ok v) ∈ converted → v.Forall Node.ProperNames Value.Proper)
    (h : assemble entries converted = .ok n) : n.Regular := by
  unfold assemble at h
  cases hd : declared entries with
  | error issues => rw [hd] at h; cases h
  | ok label =>
    rw [hd] at h
    cases hs : sequence ((moveSuperclass entries converted).filter
        fun f => !reserved.contains f.1) with
    | error issues => simp only [bind, Except.bind, hs] at h; cases h
    | ok values =>
      simp only [bind, Except.bind, hs] at h
      cases h
      have hfields := sequence_ok hs
      have hvaluenames : values.map (·.1) = ((moveSuperclass entries converted).filter
          fun f => !reserved.contains f.1).map (·.1) := by
        rw [hfields, List.map_map]
        rfl
      -- the names are those of the object without the reserved ones, and the values were converted before
      refine Node.forall_iff.2 ⟨⟨?_, fun name hname => ?_⟩, fun f hf => ?_⟩
      · show (values.map (·.1)).Nodup
        rw [hvaluenames]
        exact ((nodup_moveSuperclass entries hnames).sublist (List.filter_sublist.map _))
      · have hname : name ∈ values.map (·.1) := hname
        rw [hvaluenames] at hname
        obtain ⟨e, he, rfl⟩ := List.mem_map.1 hname
        simpa using (List.mem_filter.1 he).2
      · have hmem : (f.1, Except.ok f.2) ∈ (moveSuperclass entries converted).filter
            fun f => !reserved.contains f.1 := by
          rw [hfields]
          exact List.mem_map.2 ⟨f, hf, rfl⟩
        obtain ⟨name, hname⟩ := mem_moveSuperclass (List.mem_filter.1 hmem).1
        exact hvalues name f.2 hname

mutual

theorem regular_value (j : Json) (hj : j.Distinct) :
    ∀ v, value j = .ok v → v.Forall Node.ProperNames Value.Proper := by
  intro v hv
  cases j with
  | scalar s => cases hv; trivial
  | arr items =>
    rw [value] at hv
    cases hitems : values items with
    | error issues => rw [hitems] at hv; cases hv
    | ok vs =>
      rw [hitems] at hv
      cases hv
      exact regular_values items hj vs hitems
  | obj entries =>
    rw [value] at hv
    split at hv
    · cases hn : assemble entries (conversions entries) with
      | error issues => rw [hn] at hv; cases hv
      | ok n =>
        rw [hn] at hv
        cases hv
        refine regular_assemble ?_ (regular_conversions entries hj.2) hn
        rw [fieldNames_conversions]
        exact hj.1
    · next hnode => cases hv; exact Bool.eq_false_iff.2 hnode

theorem regular_values (items : List Json) (hj : Json.DistinctItems items) :
    ∀ vs, values items = .ok vs → Value.ForallItems Node.ProperNames Value.Proper vs := by
  intro vs hvs
  cases items with
  | nil => cases hvs; trivial
  | cons j rest =>
    rw [values] at hvs
    cases hv : value j with
    | error issues => rw [hv] at hvs; cases hvs
    | ok v =>
      rw [hv] at hvs
      cases hrest : values rest with
      | error issues => rw [hrest] at hvs; cases hvs
      | ok vs' =>
        rw [hrest] at hvs
        cases hvs
        exact ⟨regular_value j hj.1 v hv, regular_values rest hj.2 vs' hrest⟩

theorem regular_conversions (entries : List (String × Json)) (hj : Json.DistinctEntries entries) :
    ∀ name v, (name, .ok v) ∈ conversions entries →
      v.Forall Node.ProperNames Value.Proper := by
  intro name v hmem
  cases entries with
  | nil => cases hmem
  | cons e rest =>
    obtain ⟨key, j⟩ := e
    rw [conversions, List.mem_cons] at hmem
    rcases hmem with hmem | hmem
    · exact regular_value j hj.1 v (Prod.mk.inj hmem).2.symm
    · exact regular_conversions rest hj.2 name v hmem

end

end Validation

/-- **A tree that is read from JSON is regular.** -/
theorem regular_of_ofJson {j : Json} {tree : Node} (hj : j.Distinct) (h : Node.ofJson j = .ok tree) :
    tree.Regular := by
  cases j with
  | obj entries =>
    refine Validation.regular_assemble ?_ (Validation.regular_conversions entries hj.2) h
    rw [Validation.fieldNames_conversions]
    exact hj.1
  | scalar | arr => cases h

/-! ## Finite numbers -/

/-- The scalar is no float without a value. -/
def Scalar.Finite : Scalar → Prop
  | .float x => (FloatKind.ofFloat x).isFinite = true
  | _ => True

mutual

/-- All numbers in the plain data are finite. -/
def Json.Finite : Json → Prop
  | .scalar s => s.Finite
  | .arr items => Json.FiniteItems items
  | .obj entries => Json.FiniteEntries entries

def Json.FiniteItems : List Json → Prop
  | [] => True
  | j :: rest => j.Finite ∧ Json.FiniteItems rest

def Json.FiniteEntries : List (String × Json) → Prop
  | [] => True
  | (_, j) :: rest => j.Finite ∧ Json.FiniteEntries rest

end

/-- Plain data with finite numbers. -/
def Value.FiniteData : Value → Prop
  | .scalar s => s.Finite
  | .object entries => Json.FiniteEntries entries
  | _ => True

/-- All numbers in the plain data of a tree are finite. -/
def Node.Finite (n : Node) : Prop := n.Forall (fun _ => True) Value.FiniteData

end SyntaxSpans
