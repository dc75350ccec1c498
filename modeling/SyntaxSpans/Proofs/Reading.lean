import Mathlib.Data.List.Forall2
import SyntaxSpans.Proofs.Outcome
import SyntaxSpans.Proofs.RoundTrip

/-!
# What a tree says of the JSON that it was read from

A tree is made of a JSON value place by place (`Describes`): a list of an array, a node of an object
with a textual `type`, and everything else is what it was, any other object with all that is in it. A
node has the entries that are not reserved as its fields, in their order, and an object under `parent`
as its `superclass`. Written as JSON and read again, a tree is the same without its empty fields, and
is written the same (`read_write_read`).
-/

namespace SyntaxSpans

/-! ## Entries that are fields -/

/-- The entries of an object that are fields of the node, in their order. An object under `parent`
comes last, or in the place of the `superclass` that is there already. -/
def fieldEntries (entries : List (String × Json)) : List (String × Json) :=
  let own := entries.filter fun e => !Validation.reserved.contains e.1
  match entries.lookup "parent" with
  | some (.obj superclass) => upsert own "superclass" (.obj superclass)
  | _ => own

/-- What a tree says of a JSON value. -/
inductive Describes : Json → Value → Prop where
  | scalar (s : Scalar) : Describes (.scalar s) (.scalar s)
  | list {items : List Json} {values : List Value} (hitems : List.Forall₂ Describes items values) :
    Describes (.arr items) (.list values)
  /-- An object without a textual `type` is plain data through and through. -/
  | object {entries : List (String × Json)} (htype : Validation.isNode entries = false) :
    Describes (.obj entries) (.object entries)
  /-- An object with a textual `type` is a node. -/
  | node {entries : List (String × Json)} {kind : String} {placement : Placement}
    {fields : List (String × Value)} (htype : Validation.isNode entries = true)
    (hdeclared : Validation.declared entries = .ok (kind, placement))
    (hnames : fields.map (·.1) = (fieldEntries entries).map (·.1))
    (hfields : List.Forall₂ Describes ((fieldEntries entries).map (·.2)) (fields.map (·.2))) :
    Describes (.obj entries) (.node (.mk kind placement fields))

section
variable {entries : List (String × Json)} {superclass : List (String × Json)} {name : String}

/-- **An object under `parent`** is the field `superclass`. -/
theorem lookup_superclass (h : entries.lookup "parent" = some (.obj superclass)) :
    (fieldEntries entries).lookup "superclass" = some (.obj superclass) := by
  rw [fieldEntries, h, lookup_upsert, if_pos rfl]

theorem mem_fieldEntries {e : String × Json} (h : e ∈ fieldEntries entries) :
    ∃ name, (name, e.2) ∈ entries := by
  unfold fieldEntries at h
  split at h
  · next superclass hparent =>
    rcases Validation.mem_upsert h with h | rfl
    · exact ⟨e.1, (List.mem_filter.1 h).1⟩
    · obtain ⟨l, r, rfl, -⟩ := List.lookup_eq_some_iff.1 hparent
      exact ⟨"parent", by simp⟩
  · exact ⟨e.1, (List.mem_filter.1 h).1⟩

theorem filter_upsert {α : Type} (keep : String → Bool) (entries : List (String × α)) (name : String)
    (value : α) (h : keep name = true) :
    (upsert entries name value).filter (fun e => keep e.1) =
      upsert (entries.filter fun e => keep e.1) name value := by
  induction entries with
  | nil => simp [upsert, h]
  | cons e rest ih =>
    obtain ⟨key, old⟩ := e
    by_cases hk : key = name
    · subst hk
      simp [upsert, h]
    · cases hkeep : keep key <;> simp [upsert, hk, hkeep, ih]

theorem map_upsert {α β : Type} (f : α → β) (entries : List (String × α)) (name : String)
    (value : α) : (upsert entries name value).map (fun e => (e.1, f e.2)) =
      upsert (entries.map fun e => (e.1, f e.2)) name (f value) := by
  induction entries with
  | nil => rfl
  | cons e rest ih =>
    obtain ⟨key, old⟩ := e
    by_cases hk : key = name <;> simp [upsert, hk, ih]

/-- **The fields of a node** are made of these entries. -/
theorem filter_moveSuperclass {α : Type} (f : Json → α) (entries : List (String × Json)) :
    (Validation.moveSuperclass entries (entries.map fun e => (e.1, f e.2))).filter
      (fun e => !Validation.reserved.contains e.1) =
      (fieldEntries entries).map fun e => (e.1, f e.2) := by
  have hfilter : (entries.map fun e => (e.1, f e.2)).filter
      (fun e => !Validation.reserved.contains e.1) =
      (entries.filter fun e => !Validation.reserved.contains e.1).map fun e => (e.1, f e.2) := by
    rw [List.filter_map]
    rfl
  have hlookup : (entries.map fun e => (e.1, f e.2)).lookup "parent" =
      (entries.lookup "parent").map f := lookup_map_snd entries (fun _ => f) _
  unfold Validation.moveSuperclass fieldEntries
  rw [hlookup]
  cases entries.lookup "parent" with
  | none => exact hfilter
  | some j =>
    cases j with
    | scalar | arr => exact hfilter
    | obj superclass =>
      simp only [Option.map_some]
      rw [filter_upsert (fun name => !Validation.reserved.contains name) _ _ _ (by decide), hfilter,
        map_upsert]

end

/-! ## Reading describes -/

namespace Validation

/-- Only what has a textual `type` can be a node. -/
theorem isNode_of_declared {entries : List (String × Json)} {label : String × Placement}
    (h : declared entries = .ok label) : isNode entries = true := by
  unfold declared at h
  split at h
  · next k _ _ _ _ hkind _ _ _ _ _ =>
    unfold kind at hkind
    split at hkind
    · next htype => rw [isNode, htype]
    · cases hkind
    · cases hkind
  · cases h

/-- **A node that is put together** has the declared kind and place, and its fields in order. -/
theorem assemble_ok {entries : List (String × Json)} {n : Node}
    (h : assemble entries (conversions entries) = .ok n) :
    ∃ kind placement fields, n = .mk kind placement fields ∧
      declared entries = .ok (kind, placement) ∧
      List.Forall₂ (fun e f => e.1 = f.1 ∧ value e.2 = .ok f.2) (fieldEntries entries) fields := by
  simp only [assemble, bind_ok_iff] at h
  obtain ⟨⟨kind, placement⟩, hdeclared, fields, hfields, h⟩ := h
  refine ⟨kind, placement, fields, (Except.ok.inj h).symm, hdeclared, ?_⟩
  have hsame := sequence_ok hfields
  rw [conversions_eq_map, filter_moveSuperclass] at hsame
  have hall : List.Forall₂ (· = ·) ((fieldEntries entries).map fun e => (e.1, value e.2))
      (fields.map fun f => (f.1, .ok f.2)) := by rw [hsame, List.forall₂_eq_eq_eq]
  simpa only [List.forall₂_map_left_iff, List.forall₂_map_right_iff, Prod.mk.injEq] using hall

theorem describes_fields {entries : List (String × Json)} {fields : List (String × Value)}
    (h : List.Forall₂ (fun e f => e.1 = f.1 ∧ value e.2 = .ok f.2) entries fields)
    (hall : ∀ e ∈ entries, ∀ v, value e.2 = .ok v → Describes e.2 v) :
    fields.map (·.1) = entries.map (·.1) ∧
    List.Forall₂ Describes (entries.map (·.2)) (fields.map (·.2)) := by
  induction h with
  | nil => exact ⟨rfl, .nil⟩
  | @cons e f entries fields hfield _ ih =>
    obtain ⟨hnames, hvalues⟩ := ih fun e he => hall e (List.mem_cons_of_mem _ he)
    refine ⟨?_, .cons (hall e List.mem_cons_self f.2 hfield.2) hvalues⟩
    rw [List.map_cons, List.map_cons, hnames, hfield.1]

theorem describes_assemble {entries : List (String × Json)} {n : Node}
    (hall : ∀ name j v, (name, j) ∈ entries → value j = .ok v → Describes j v)
    (h : assemble entries (conversions entries) = .ok n) : Describes (.obj entries) (.node n) := by
  obtain ⟨kind, placement, fields, rfl, hdeclared, hfields⟩ := assemble_ok h
  obtain ⟨hnames, hvalues⟩ := describes_fields hfields fun e he => by
    obtain ⟨name, hmem⟩ := mem_fieldEntries he
    exact fun v hv => hall name e.2 v hmem hv
  exact .node (isNode_of_declared hdeclared) hdeclared hnames hvalues

mutual

theorem describes_value (j : Json) : ∀ v, value j = .ok v → Describes j v := by
  intro v hv
  cases j with
  | scalar s => cases hv; exact .scalar s
  | arr items =>
    rw [value] at hv
    cases hitems : values items with
    | error issues => rw [hitems] at hv; cases hv
    | ok vs =>
      rw [hitems] at hv
      cases hv
      exact .list (describes_values items vs hitems)
  | obj entries =>
    rw [value] at hv
    split at hv
    · cases hn : assemble entries (conversions entries) with
      | error issues => rw [hn] at hv; cases hv
      | ok n =>
        rw [hn] at hv
        cases hv
        exact describes_assemble (describes_entries entries) hn
    · next htype =>
      cases hv
      exact .object (Bool.eq_false_iff.2 htype)

theorem describes_values (items : List Json) :
    ∀ vs, values items = .ok vs → List.Forall₂ Describes items vs := by
  intro vs hvs
  cases items with
  | nil => cases hvs; exact .nil
  | cons j rest =>
    rw [values] at hvs
    cases hv : value j with
    | error issues => rw [hv] at hvs; cases hvs
    | ok v =>
      rw [hv] at hvs
      cases hrest : values rest with
      | error issues => rw [hrest] at hvs; cases hvs
      | ok vs' =>
        rw [hrest] at hvs
        cases hvs
        exact .cons (describes_value j v hv) (describes_values rest vs' hrest)

theorem describes_entries (entries : List (String × Json)) :
    ∀ name j v, (name, j) ∈ entries → value j = .ok v → Describes j v := by
  intro name j v hmem hv
  cases entries with
  | nil => cases hmem
  | cons e rest =>
    obtain ⟨key, j'⟩ := e
    rcases List.mem_cons.1 hmem with hmem | hmem
    · rw [(Prod.mk.inj hmem).2] at hv ⊢
      exact describes_value j' v hv
    · exact describes_entries rest name j v hmem hv

end

end Validation

/-! ## Places -/

/-- A place in a JSON value, and the same place in a value that describes it. -/
inductive SamePlace (j : Json) (v : Value) : Json → Value → Prop where
  | root : SamePlace j v j v
  | item {items : List Json} {values : List Value} {i : Nat} {j' : Json} {v' : Value}
    (h : SamePlace j v (.arr items) (.list values)) (hj : items[i]? = some j')
    (hv : values[i]? = some v') : SamePlace j v j' v'
  | field {entries : List (String × Json)} {n : Node} {name : String} {j' : Json} {v' : Value}
    (h : SamePlace j v (.obj entries) (.node n)) (hj : (fieldEntries entries).lookup name = some j')
    (hv : n.field? name = some v') : SamePlace j v j' v'

section
variable {j j' : Json} {v v' : Value} {entries : List (String × Json)} {n : Node} {name : String}

theorem exists_lookup_of_names {es : List (String × Json)} {fs : List (String × Value)}
    (hnames : fs.map (·.1) = es.map (·.1))
    (h : List.Forall₂ Describes (es.map (·.2)) (fs.map (·.2))) (hj : es.lookup name = some j) :
    ∃ v, fs.lookup name = some v ∧ Describes j v := by
  induction es generalizing fs with
  | nil => cases hj
  | cons e rest ih =>
    cases fs with
    | nil => cases hnames
    | cons f fs =>
      obtain ⟨key, j₀⟩ := e
      obtain ⟨key', v₀⟩ := f
      simp only [List.map_cons, List.cons.injEq] at hnames
      obtain ⟨rfl, hnames⟩ := hnames
      obtain ⟨hfirst, hrest⟩ := List.forall₂_cons.1 h
      by_cases hk : name = key'
      · subst hk
        simp only [List.lookup_cons_self, Option.some.injEq] at hj
        subst hj
        exact ⟨v₀, List.lookup_cons_self, hfirst⟩
      · rw [List.lookup_cons, beq_eq_false_iff_ne.2 hk] at hj ⊢
        exact ih hnames hrest hj

/-- A field that is a field of the object describes what stands there. -/
theorem Describes.field (h : Describes (.obj entries) (.node n))
    (hj : (fieldEntries entries).lookup name = some j) :
    ∃ v, n.field? name = some v ∧ Describes j v := by
  cases h with
  | node _ _ hnames hfields => exact exists_lookup_of_names hnames hfields hj

/-- **At every place** a value describes what stands there. -/
theorem Describes.samePlace (h : Describes j v) (hplace : SamePlace j v j' v') :
    Describes j' v' := by
  induction hplace with
  | root => exact h
  | item _ hj hv ih =>
    cases ih with
    | list hitems =>
      obtain ⟨hi, rfl⟩ := List.getElem?_eq_some_iff.1 hj
      obtain ⟨hi', rfl⟩ := List.getElem?_eq_some_iff.1 hv
      exact hitems.get hi hi'
  | field _ hj hv ih =>
    obtain ⟨v, hv', hdescribes⟩ := ih.field hj
    rw [hv, Option.some.injEq] at hv'
    rw [hv']
    exact hdescribes

/-- A field that does not hold null is found after pruning, too. -/
theorem lookup_pruneFields_of_some {fields : List (String × Value)} (h : fields.lookup name = some v)
    (hv : v.isNull = false) : (Node.pruneFields fields).lookup name = some v.prune := by
  induction fields with
  | nil => cases h
  | cons f rest ih =>
    obtain ⟨key, w⟩ := f
    rw [Node.pruneFields]
    by_cases hk : name = key
    · subst hk
      simp only [List.lookup_cons_self, Option.some.injEq] at h
      subst h
      rw [if_neg (by simp [hv]), List.lookup_cons_self]
    · rw [List.lookup_cons, beq_eq_false_iff_ne.2 hk] at h
      split
      · exact ih h
      · rw [List.lookup_cons, beq_eq_false_iff_ne.2 hk]
        exact ih h

/-- **The superclass of a node** is what stands under `parent`. -/
theorem Describes.superclass {superclass : List (String × Json)}
    (h : Describes (.obj entries) (.node n))
    (hparent : entries.lookup "parent" = some (.obj superclass)) :
    ∃ u, n.field? "superclass" = some u ∧ n.prune.field? "superclass" = some u.prune ∧
      Describes (.obj superclass) u := by
  obtain ⟨u, hu, hdescribes⟩ := h.field (lookup_superclass hparent)
  have hobject : u.isNull = false := by cases hdescribes <;> rfl
  refine ⟨u, hu, ?_, hdescribes⟩
  rw [Node.field?, Node.fields_prune]
  exact lookup_pruneFields_of_some hu hobject

end

/-! ## Finite numbers -/

mutual

theorem finite_of_describes (j : Json) : ∀ v, Describes j v → j.Finite →
    v.Forall (fun _ => True) Value.FiniteData := by
  intro v h hj
  cases h with
  | scalar s => exact hj
  | object htype => exact hj
  | list hitems => exact finite_of_describesItems _ _ hitems hj
  | @node entries kind placement fields htype hdeclared hnames hfields =>
    refine Node.forall_iff.2 ⟨trivial, fun f hf => ?_⟩
    obtain ⟨j, hj', hdescribes⟩ := exists_left_of_forall₂ hfields f.2 (List.mem_map_of_mem hf)
    obtain ⟨e, he, rfl⟩ := List.mem_map.1 hj'
    obtain ⟨name, hmem⟩ := mem_fieldEntries he
    exact finite_of_describesEntries entries name e.2 f.2 hmem hdescribes hj

theorem finite_of_describesItems (items : List Json) : ∀ vs, List.Forall₂ Describes items vs →
    Json.FiniteItems items → Value.ForallItems (fun _ => True) Value.FiniteData vs := by
  intro vs h hj
  cases h with
  | nil => trivial
  | cons hv hrest =>
    exact ⟨finite_of_describes _ _ hv hj.1, finite_of_describesItems _ _ hrest hj.2⟩

theorem finite_of_describesEntries (entries : List (String × Json)) :
    ∀ name j v, (name, j) ∈ entries → Describes j v → Json.FiniteEntries entries →
      v.Forall (fun _ => True) Value.FiniteData := by
  intro name j v hmem h hj
  cases entries with
  | nil => cases hmem
  | cons e rest =>
    obtain ⟨key, j'⟩ := e
    rcases List.mem_cons.1 hmem with hmem | hmem
    · rw [(Prod.mk.inj hmem).2] at h
      exact finite_of_describes j' v h hj.1
    · exact finite_of_describesEntries rest name j v hmem h hj.2

end

/-! ## Reading, writing and reading again -/

section
variable {j : Json} {tree : Node}

/-- **What a tree is read from** it describes. -/
theorem describes_ofJson (h : Node.ofJson j = .ok tree) : Describes j (.node tree) := by
  cases j with
  | obj entries => exact Validation.describes_assemble (Validation.describes_entries entries) h
  | scalar | arr => cases h

/-- **Reading, writing and reading again.** A tree describes what it was read from: objects without a
textual `type` are kept whole, all others are nodes, whose superclass stands under `parent`. Unless the
tree is too deep it can be written, what is written is read as the tree without its empty fields, and
that is written the same. -/
theorem read_write_read (hj : j.Distinct) (hfinite : j.Finite) (h : Node.ofJson j = .ok tree) :
    Describes j (.node tree) ∧
    (∀ entries v, SamePlace j (.node tree) (.obj entries) v →
      (Validation.isNode entries = false → v = .object entries) ∧
      (Validation.isNode entries = true → ∃ n, v = .node n ∧
        ∀ superclass, entries.lookup "parent" = some (.obj superclass) →
          ∃ u, n.field? "superclass" = some u ∧ n.prune.field? "superclass" = some u.prune ∧
            Describes (.obj superclass) u)) ∧
    (tree.dumpLevels ≤ Dump.maxLevels → ∃ d, tree.write = .ok d ∧ Node.ofJson d = .ok tree.prune ∧
      tree.prune.write = .ok d) ∧
    (Dump.maxLevels < tree.dumpLevels → tree.write = .error .tooDeep) := by
  have hdescribes := describes_ofJson h
  refine ⟨hdescribes, fun entries v hplace => ?_, fun hlevels => ?_,
    fun hlevels => if_neg (Nat.not_le.2 hlevels)⟩
  · cases hdescribes.samePlace hplace with
    | object htype => exact ⟨fun _ => rfl, fun hnode => absurd (htype.symm.trans hnode) (by decide)⟩
    | node htype hdeclared hnames hfields =>
      have hnode := Describes.node htype hdeclared hnames hfields
      refine ⟨fun hplain => absurd (htype.symm.trans hplain) (by decide), fun _ => ⟨_, rfl, ?_⟩⟩
      exact fun superclass hparent => hnode.superclass hparent
  have hwrite : tree.write = .ok tree.dump := if_pos hlevels
  exact ⟨tree.dump, hwrite,
    ofJson_dump (regular_of_ofJson hj h) (finite_of_describes j _ hdescribes hfinite),
    (write_prune tree).trans hwrite⟩

end

/-- A class with a superclass, an empty field, and data that looks like a node further down. -/
def Json.derived : Json :=
  .obj [("type", .str "Class"), ("parent", .obj [("type", .str "Identifier"), ("raw", .str "A")]),
    ("doc", .null), ("data", .obj [("inner", .obj [("type", .str "T")])])]

/-- Its superclass comes last, and the data stays what it is. -/
theorem read_write_read_derived :
    ∃ tree d, Node.ofJson .derived = .ok tree ∧ Describes .derived (.node tree) ∧
      tree.fieldNames = ["doc", "data", "superclass"] ∧ tree.write = .ok d ∧
      Node.ofJson d = .ok tree.prune ∧ tree.prune.fieldNames = ["data", "superclass"] ∧
      tree.prune.write = .ok d := by
  have hdistinct : Json.derived.Distinct := by
    simp [Json.derived, Json.Distinct, Json.DistinctEntries, Json.str, Json.null]
  have hfinite : Json.derived.Finite := by
    simp [Json.derived, Json.Finite, Json.FiniteEntries, Json.str, Json.null, Scalar.Finite]
  obtain ⟨hdescribes, -, hwritten, -⟩ := read_write_read hdistinct hfinite rfl
  obtain ⟨d, hd, hread, hagain⟩ := hwritten (by decide)
  exact ⟨_, d, rfl, hdescribes, rfl, hd, hread, rfl, hagain⟩

/-! ## Data that is too deep -/

def Json.boxed : Nat → Json
  | 0 => .arr []
  | n + 1 => .arr [boxed n]

/-- The same as the content of a field. -/
def Value.boxed : Nat → Value
  | 0 => .list []
  | n + 1 => .list [boxed n]

theorem value_boxed (n : Nat) : Validation.value (.boxed n) = .ok (.boxed n) := by
  induction n with
  | zero => rfl
  | succ n ih =>
    rw [Json.boxed, Validation.value, Validation.values, ih]
    rfl

theorem levels_boxed (n : Nat) : Dump.valueLevels (.boxed n) = n + 1 := by
  induction n with
  | zero => rfl
  | succ n ih => rw [Value.boxed, Dump.valueLevels, Dump.itemLevels, ih, Dump.itemLevels]; omega

theorem distinct_boxed (n : Nat) : (Json.boxed n).Distinct := by
  induction n with
  | zero => trivial
  | succ n ih => exact ⟨ih, trivial⟩

theorem finite_boxed (n : Nat) : (Json.boxed n).Finite := by
  induction n with
  | zero => trivial
  | succ n ih => exact ⟨ih, trivial⟩

/-- A node with 255 lists in each other is read, and cannot be written. -/
theorem read_not_written :
    let j : Json := .obj [("type", .str "List"), ("items", .boxed 254)]
    j.Distinct ∧ j.Finite ∧
      ∃ tree, Node.ofJson j = .ok tree ∧ tree.write = .error .tooDeep := by
  intro j
  refine ⟨⟨by decide, trivial, distinct_boxed 254, trivial⟩, ⟨trivial, finite_boxed 254, trivial⟩,
    .mk "List" {} [("items", .boxed 254)], ?_, ?_⟩
  · rw [Node.ofJson]
    simp only [Validation.conversions, value_boxed]
    rfl
  · have hlevels : (Node.mk "List" {} [("items", .boxed 254)]).dumpLevels = 256 := by
      rw [Node.dumpLevels, Dump.nodeLevels, fieldLevels_cons, levels_boxed]
      rfl
    rw [Node.write, hlevels]
    exact if_neg (by decide)

end SyntaxSpans
