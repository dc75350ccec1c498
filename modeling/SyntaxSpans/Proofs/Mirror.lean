import SyntaxSpans.Proofs.Exchange
import SyntaxSpans.Proofs.Introductions

/-!
# Mirrored trees

Two trees mirror each other when a map between their nodes keeps the kinds and goes along with the
fields. The walk then reaches the same nodes in the same order (`Mirror.preorder_map`), and a pattern is
sound in the one tree if it is in the other (`Mirror.introduced_fault`). Where the nodes stand does not
matter to either, so a tree with other places is a mirror, and so is one without its empty fields. For the
patterns alone it is enough that the map goes along with the fields that patterns are read from (`Reflects`).
-/

namespace SyntaxSpans

/-! ## Mirrors -/

namespace Cursor

def patternFields : List String :=
  ["assignee", "keyAssignee", "valAssignee", "catchAssignee", "parameters", "members", "expression", "param"]

/-- `φ` keeps the kinds of the nodes in `S` and goes along with the fields of their patterns. -/
structure Reflects (S : Cursor → Prop) (φ : Cursor → Cursor) : Prop where
  kind : ∀ {c}, S c → (φ c).kind = c.kind
  child? : ∀ {c}, S c → ∀ name ∈ patternFields, (φ c).child? name = (c.child? name).map φ
  elements : ∀ {c}, S c → ∀ name ∈ patternFields,
    (φ c).elements name = (c.elements name).map (·.map (·.map φ))
  closed : ∀ {c d name}, S c → d ∈ c.nodesIn name → S d

/-- `φ` keeps the kinds of the nodes in `S` and goes along with their fields. -/
structure Mirror (S : Cursor → Prop) (φ : Cursor → Cursor) : Prop where
  kind : ∀ {c}, S c → (φ c).kind = c.kind
  child? : ∀ {c}, S c → ∀ name, (φ c).child? name = (c.child? name).map φ
  elements : ∀ {c}, S c → ∀ name, (φ c).elements name = (c.elements name).map (·.map (·.map φ))
  children : ∀ {c}, S c → (φ c).children = c.children.map φ
  closed : ∀ {c d name}, S c → d ∈ c.nodesIn name → S d

theorem mem_nodesFrom_of_getElem {items : List Value} (index : List Nat) (k : Nat) {i : Nat}
    (hi : i < items.length) {n : Node} (h : items[i] = .node n) :
    (index ++ [k + i], n) ∈ Value.nodesFrom index k items := by
  induction items generalizing k i with
  | nil => cases hi
  | cons v rest ih =>
    rw [Value.nodesFrom, List.mem_append]
    cases i with
    | zero =>
      rw [List.getElem_cons_zero] at h
      exact Or.inl (by simp [h, Value.nodesAt])
    | succ i =>
      have := ih (k + 1) (by simpa using hi) (by simpa using h)
      exact Or.inr (by rwa [Nat.add_right_comm] at this)

/-- The nodes among the elements of a field are nodes in it. -/
theorem mem_nodesIn_of_elements {c d : Cursor} {name : String} {es : List Element}
    (h : c.elements name = .ok es) (hd : Element.node d ∈ es) : d ∈ c.nodesIn name := by
  unfold elements at h
  split at h
  · cases h; simp at hd
  · next items hf =>
    cases h
    obtain ⟨i, hi, he⟩ := List.mem_mapIdx.1 hd
    refine mem_nodesIn.2 ⟨_, hf, ?_⟩
    unfold Element.ofValue at he
    split at he
    · cases he
    · next n hn =>
      cases he
      refine ⟨([i], n), ?_, rfl⟩
      rw [Value.nodesAt]
      simpa using mem_nodesFrom_of_getElem [] 0 hi hn
    · cases he
  · cases h; simp at hd
  · cases h; split at hd <;> simp at hd
  · split at h
    · cases h; simp at hd
    · cases h; simp at hd
    · cases h
    · split at h <;> cases h; simp at hd
    · split at h <;> cases h; simp at hd
    · cases h; split at hd <;> simp at hd

namespace Reflects

variable {S : Cursor → Prop} {φ : Cursor → Cursor} {c d : Cursor}

theorem closed_child? (h : Reflects S φ) (hc : S c) {name : String} (hd : c.child? name = some d) :
    S d :=
  h.closed hc (mem_nodesIn_of_child? hd)

theorem mapM_reflects {α β : Type} {xs : List α} {f : α → Except Fault β} {g : α → α} {k : β → β}
    (h : ∀ x ∈ xs, f (g x) = (f x).map k) : (xs.map g).mapM f = (xs.mapM f).map (·.map k) := by
  induction xs with
  | nil => rfl
  | cons x rest ih =>
    rw [List.map_cons, List.mapM_cons, List.mapM_cons, h x List.mem_cons_self,
      ih fun y hy => h y (List.mem_cons_of_mem _ hy)]
    cases f x with
    | error e => rfl
    | ok b => cases rest.mapM f <;> rfl

/-- A pattern binds the mirrored identifiers. -/
theorem identifiers_map (h : Reflects S φ) {c : Cursor} (hc : S c) :
    (φ c).identifiers = c.identifiers.map (·.map φ) := by
  -- the recursion goes down the tree: what a pattern leads to stands below it
  have below : ∀ {d : Cursor} {name : String}, d ∈ c.nodesIn name → sizeOf d.node < sizeOf c.node →
      (φ d).identifiers = d.identifiers.map (·.map φ) :=
    fun hd _ => identifiers_map h (h.closed hc hd)
  have hin : ∀ name ∈ patternFields,
      (φ c).identifiersIn name = (c.identifiersIn name).map (·.map φ) := by
    intro name hname
    rw [identifiersIn, identifiersIn, h.child? hc name hname]
    cases hd : c.child? name with
    | none => rfl
    | some d => exact below (mem_nodesIn_of_child? hd) (sizeOf_child?_lt hd)
  have hof : ∀ f : Element → Except Fault (List Cursor),
      (∀ es, c.elements "members" = .ok es → ∀ e ∈ es, f (e.map φ) = (f e).map (·.map φ)) →
      (φ c).identifiersOf f = (c.identifiersOf f).map (·.map φ) := by
    intro f hf
    rw [identifiersOf, identifiersOf, h.elements hc "members" (by decide)]
    cases he : c.elements "members" with
    | error e => rfl
    | ok es =>
      show ((es.map (Element.map φ)).mapM f).map List.flatten =
        ((es.mapM f).map List.flatten).map (List.map φ)
      rw [mapM_reflects (hf es he)]
      cases es.mapM f with
      | error e => rfl
      | ok found => exact congrArg Except.ok List.map_flatten.symm
  rw [identifiers_eq, identifiers_eq c, h.kind hc]
  unfold identifiersAs
  split
  · rfl
  · refine hof _ fun es he e hmem => ?_
    cases e with
    | node d => exact below (mem_nodesIn_of_elements he hmem) (sizeOf_element_lt he hmem)
    | absent | data => rfl
  · refine hof _ fun es he e hmem => ?_
    cases e with
    | node d =>
      have hd : S d := h.closed hc (mem_nodesIn_of_elements he hmem)
      simp only [Element.map, Element.inObject, h.child? hd "expression" (by decide)]
      cases hv : d.child? "expression" with
      | none => rfl
      | some v =>
        have := Nat.lt_trans (sizeOf_child?_lt hv) (sizeOf_element_lt he hmem)
        exact identifiers_map h (h.closed_child? hd hv)
    | absent | data => rfl
  · exact hin _ (by decide)
  · exact hin _ (by decide)
  · exact hin _ (by decide)
  · rfl
termination_by sizeOf c.node

theorem fault_ofPattern (h : Reflects S φ) (hc : S c) :
    (Introduced.ofPattern (φ c).identifiers).fault = (Introduced.ofPattern c.identifiers).fault := by
  rw [h.identifiers_map hc]
  cases c.identifiers <;> rfl

theorem fault_patternIn (h : Reflects S φ) (hc : S c) {name : String} (hname : name ∈ patternFields) :
    ((φ c).patternIn name).fault = (c.patternIn name).fault := by
  rw [patternIn, patternIn, h.child? hc name hname]
  cases hd : c.child? name with
  | none => rfl
  | some d => exact h.fault_ofPattern (h.closed_child? hc hd)

theorem fault_identifierIn (c : Cursor) (name : String) : (c.identifierIn name).fault = none := by
  unfold identifierIn
  split
  · split <;> rfl
  · rfl

theorem fault_parameters (h : Reflects S φ) {es : List Element}
    (hes : ∀ d, Element.node d ∈ es → S d) :
    (parameterIdentifiers (es.map (·.map φ))).fault = (parameterIdentifiers es).fault := by
  induction es with
  | nil => rfl
  | cons e rest ih =>
    have hrest := ih fun d hd => hes d (List.mem_cons_of_mem _ hd)
    rw [List.map_cons]
    simp only [parameterIdentifiers, Introduced.fault_append, hrest]
    cases e with
    | node d => simp only [Element.map, h.fault_ofPattern (hes d List.mem_cons_self)]
    | absent | data => rfl

theorem fault_introducedIn (h : Reflects S φ) (hc : S c) {field : String × Binder}
    (hfield : field.2 = .name ∨ field.1 ∈ patternFields) :
    ((φ c).introducedIn field).fault = (c.introducedIn field).fault := by
  obtain ⟨name, binder⟩ := field
  cases binder with
  | name => simp [introducedIn, fault_identifierIn]
  | pattern => exact h.fault_patternIn hc (by simpa using hfield)
  | patterns =>
    simp only [introducedIn, h.elements hc name (by simpa using hfield)]
    cases he : c.elements name with
    | error e => rfl
    | ok es => exact h.fault_parameters fun d hd => h.closed hc (mem_nodesIn_of_elements he hd)

theorem fault_introducedFrom (h : Reflects S φ) (hc : S c) {fields : List (String × Binder)}
    (hfields : ∀ field ∈ fields, field.2 = .name ∨ field.1 ∈ patternFields) :
    ((φ c).introducedFrom fields).fault = (c.introducedFrom fields).fault := by
  induction fields with
  | nil => rfl
  | cons field rest ih =>
    obtain ⟨hfield, hrest⟩ := List.forall_mem_cons.1 hfields
    simp only [introducedFrom, Introduced.fault_append, h.fault_introducedIn hc hfield, ih hrest]

/-- **A node binds by a sound pattern** if the node that it mirrors does. -/
theorem introduced_fault (h : Reflects S φ) (hc : S c) :
    (φ c).introduced.fault = c.introduced.fault := by
  have hrows : ∀ row ∈ bindingFields, ∀ field ∈ row.2,
      field.2 = .name ∨ field.1 ∈ patternFields := by decide
  rw [introduced_eq, introduced_eq c, h.kind hc]
  refine h.fault_introducedFrom hc fun field hfield => ?_
  obtain ⟨row, hrow, -, hmem⟩ := row_of_binder hfield
  exact hrows row hrow field hmem

end Reflects

namespace Mirror

variable {S : Cursor → Prop} {φ : Cursor → Cursor} {c : Cursor}

theorem preorder_map (h : Mirror S φ) {c : Cursor} (hc : S c) :
    (φ c).preorder = c.preorder.map φ := by
  have below : ∀ d ∈ c.children, (φ d).preorder = d.preorder.map φ := by
    intro d hd
    have := sizeOf_children_lt hd
    obtain ⟨name, -, hin⟩ := List.mem_flatMap.1 hd
    exact preorder_map h (h.closed hc hin)
  rw [preorder_eq, preorder_eq c, h.children hc, List.map_cons, List.flatMap_map, List.map_flatMap]
  congr 1
  rw [List.flatMap_def, List.flatMap_def, List.map_congr_left below]
termination_by sizeOf c.node

theorem reflects (h : Mirror S φ) : Reflects S φ :=
  ⟨h.kind, fun hc name _ => h.child? hc name, fun hc name _ => h.elements hc name, h.closed⟩

theorem introduced_fault (h : Mirror S φ) (hc : S c) :
    (φ c).introduced.fault = c.introduced.fault :=
  h.reflects.introduced_fault hc

end Mirror

end Cursor

end SyntaxSpans
