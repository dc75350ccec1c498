import SyntaxSpans.Proofs.Mirror
import SyntaxSpans.Proofs.Scoping

/-!
# Patterns and the walk

The identifiers of a pattern are found by following some fields of the pattern, and the walk follows some
fields of every node. Where the members of all objects are members indeed, the walk follows all fields that
a pattern does, and none of the nodes in between opens a scope (`mem_introduced`).
-/

namespace SyntaxSpans

namespace Cursor

/-- `d` is `c` or stands below it in the walk, and no node in between opens a scope. -/
inductive Shares (c : Cursor) : Cursor → Prop where
  | refl : Shares c c
  | down {d e : Cursor} (hd : Shares c d) (he : e ∈ d.children) (hshares : e.opensScope = false) :
      Shares c e

/-- The kinds of nodes that patterns consist of. -/
def patternKinds : List String :=
  ["Identifier", "ArrayInitialiser", "ObjectInitialiser", "ObjectInitialiserMember", "Rest", "Spread",
    "DefaultParam"]

/-- The members of an object that is a pattern are of the kind that members have. -/
def HasMembers (c : Cursor) : Prop :=
  c.kind = "ObjectInitialiser" → ∀ d ∈ c.nodesIn "members", d.kind = "ObjectInitialiserMember"

section
variable {c d e v : Cursor} {name : String}

theorem Shares.trans (hd : c.Shares d) (he : d.Shares e) : c.Shares e := by
  induction he with
  | refl => exact hd
  | down _ hmem hshares ih => exact ih.down hmem hshares

theorem Shares.mem_preorder (h : c.Shares d) : d ∈ c.preorder := by
  induction h with
  | refl => exact mem_preorder_self c
  | down _ hmem _ ih => exact mem_preorder_trans ih (mem_preorder_of_mem_children hmem)

theorem mem_children_of_nodesIn (hname : name ∈ c.node.childFields) (hd : d ∈ c.nodesIn name) :
    d ∈ c.children :=
  List.mem_flatMap.2 ⟨name, hname, hd⟩

theorem opensScope_of_pattern (hd : d ∈ c.nodesIn name) (hkind : d.kind ∈ patternKinds) :
    d.opensScope = false := by
  obtain ⟨index, hp⟩ := path_of_mem_nodesIn hd
  have hkinds : ∀ kind ∈ patternKinds, kind ∉ ["Program", "Function", "BoundFunction"] := by decide
  rw [← Bool.not_eq_true, opensScope_iff]
  simpa [hp] using hkinds d.kind hkind

theorem childFields_of_kind {kind : String} {fields : List String} (hkind : c.kind = kind)
    (h : Node.knownFields? kind = some fields) : c.node.childFields = fields := by
  unfold Node.childFields
  rw [show c.node.kind = kind from hkind, h]
  rfl

/-- A part of a pattern that the walk follows. -/
theorem shares_of_part (hname : name ∈ c.node.childFields) (hd : d ∈ c.nodesIn name)
    (hkind : d.kind ∈ patternKinds) : c.Shares d :=
  .down .refl (mem_children_of_nodesIn hname hd) (opensScope_of_pattern hd hkind)

end

/-! ## Identifiers of a pattern -/

/-- What steps along a list have found, one of them has found. -/
theorem exists_of_mem_flatten {α β : Type} {f : α → Except Fault (List β)} {xs : List α}
    {found : List (List β)} {v : β} (h : xs.mapM f = .ok found) (hv : v ∈ found.flatten) :
    ∃ x ∈ xs, ∃ ys, f x = .ok ys ∧ v ∈ ys := by
  obtain ⟨ys, hys, hv⟩ := List.mem_flatten.1 hv
  obtain ⟨x, hx, hfx⟩ := (mem_mapM_iff h).1 hys
  exact ⟨x, hx, ys, hfx, hv⟩

section
variable {c d e v : Cursor} {name : String} {ids : List Cursor}

theorem exists_of_mem_identifiersOf {f : Element → Except Fault (List Cursor)}
    (h : c.identifiersOf f = .ok ids) (hv : v ∈ ids) :
    ∃ es, c.elements "members" = .ok es ∧ ∃ e ∈ es, ∃ found, f e = .ok found ∧ v ∈ found := by
  unfold identifiersOf at h
  cases he : c.elements "members" with
  | error e => rw [he] at h; cases h
  | ok es =>
    cases hf : es.mapM f with
    | error e => simp only [he, hf, bind, Except.bind] at h; cases h
    | ok found =>
      simp only [he, hf, bind, Except.bind, pure, Except.pure, Except.ok.injEq] at h
      subst h
      exact ⟨es, rfl, exists_of_mem_flatten hf hv⟩

theorem exists_of_mem_identifiersIn (h : c.identifiersIn name = .ok ids) (hv : v ∈ ids) :
    ∃ d, c.child? name = some d ∧ d.identifiers = .ok ids := by
  unfold identifiersIn at h
  split at h
  · next d hd => exact ⟨d, hd, h⟩
  · cases h; cases hv

/-- **The identifiers of a pattern** are below it in the walk, and nothing in between opens a scope. -/
theorem mem_identifiers {c : Cursor} {ids : List Cursor} (hall : ∀ d ∈ c.preorder, d.HasMembers)
    (h : c.identifiers = .ok ids) (hv : v ∈ ids) :
    c.kind ∈ patternKinds ∧ v.kind = "Identifier" ∧ c.Shares v := by
  -- a pattern in a field that the walk follows
  have part : ∀ {d e : Cursor} {name found}, c.Shares d → name ∈ d.node.childFields →
      e ∈ d.nodesIn name → sizeOf e.node < sizeOf c.node → e.identifiers = .ok found → v ∈ found →
      v.kind = "Identifier" ∧ c.Shares v := by
    intro d e name found hd hname he hsize hfound hv
    have hin := mem_preorder_trans hd.mem_preorder
      (mem_preorder_of_mem_children (mem_children_of_nodesIn hname he))
    obtain ⟨hkind, hv, hshares⟩ :=
      mem_identifiers (fun x hx => hall x (mem_preorder_trans hin hx)) hfound hv
    exact ⟨hv, (hd.trans (shares_of_part hname he hkind)).trans hshares⟩
  -- a rest, a spread or a default value is around one pattern
  have inField : ∀ {name}, name ∈ c.node.childFields → c.identifiersIn name = .ok ids →
      v.kind = "Identifier" ∧ c.Shares v := by
    intro name hname hids
    obtain ⟨d, hd, hfound⟩ := exists_of_mem_identifiersIn hids hv
    exact part .refl hname (mem_nodesIn_of_child? hd) (sizeOf_child?_lt hd) hfound hv
  rw [identifiers_eq] at h
  generalize hkind : c.kind = kind at h
  unfold identifiersAs at h
  split at h
  · -- an identifier
    cases h
    obtain rfl := List.mem_singleton.1 hv
    exact ⟨by decide, hkind, .refl⟩
  · -- a list
    obtain ⟨es, hes, e, he, found, hfound, hv⟩ := exists_of_mem_identifiersOf h hv
    have hmembers : "members" ∈ c.node.childFields := by simp [childFields_of_kind hkind rfl]
    cases e with
    | absent => cases hfound; cases hv
    | data => cases hfound
    | node d =>
      exact ⟨by decide, part .refl hmembers (mem_nodesIn_of_elements hes he) (sizeOf_element_lt hes he)
        hfound hv⟩
  · -- an object, whose members hold the patterns
    obtain ⟨es, hes, e, he, found, hfound, hv⟩ := exists_of_mem_identifiersOf h hv
    have hmembers : "members" ∈ c.node.childFields := by simp [childFields_of_kind hkind rfl]
    cases e with
    | absent | data => cases hfound
    | node d =>
      have hd := mem_nodesIn_of_elements hes he
      have hmember : d.kind = "ObjectInitialiserMember" := hall c (mem_preorder_self c) hkind d hd
      have hexpression : "expression" ∈ d.node.childFields := by simp [childFields_of_kind hmember rfl]
      have hshares : c.Shares d := shares_of_part hmembers hd (by rw [hmember]; decide)
      simp only [Element.inObject] at hfound
      split at hfound
      · next e he' =>
        exact ⟨by decide, part hshares hexpression (mem_nodesIn_of_child? he')
          (Nat.lt_trans (sizeOf_child?_lt he') (sizeOf_element_lt hes he)) hfound hv⟩
      · cases hfound
        cases hv
  · exact ⟨by decide, inField (by simp [childFields_of_kind hkind rfl]) h⟩
  · exact ⟨by decide, inField (by simp [childFields_of_kind hkind rfl]) h⟩
  · exact ⟨by decide, inField (by simp [childFields_of_kind hkind rfl]) h⟩
  · cases h
    cases hv
termination_by sizeOf c.node

end

/-! ## Identifiers that a node introduces -/

section
variable {c d v : Cursor} {name : String}

/-- An identifier that comes from a pattern in a field of the node. -/
def FromField (c : Cursor) (name : String) (v : Cursor) : Prop :=
  ∃ d ∈ c.nodesIn name, ∃ ids, d.identifiers = .ok ids ∧ v ∈ ids

theorem mem_ofPattern {d : Cursor} (h : v ∈ (Introduced.ofPattern d.identifiers).identifiers) :
    ∃ ids, d.identifiers = .ok ids ∧ v ∈ ids := by
  cases hids : d.identifiers with
  | error e => rw [hids] at h; cases h
  | ok ids => rw [hids] at h; exact ⟨ids, rfl, h⟩

theorem mem_patternIn (h : v ∈ (c.patternIn name).identifiers) : c.FromField name v := by
  unfold patternIn at h
  split at h
  · next d hd => exact ⟨d, mem_nodesIn_of_child? hd, mem_ofPattern h⟩
  · cases h

theorem mem_identifierIn (h : v ∈ (c.identifierIn name).identifiers) : c.FromField name v := by
  unfold identifierIn at h
  split at h
  · next d hd =>
    split at h
    · next hkind =>
      exact ⟨d, mem_nodesIn_of_child? hd, [d], identifiers_of_identifier hkind, h⟩
    · cases h
  · cases h

theorem mem_parameterIdentifiers {es : List Element}
    (h : v ∈ (parameterIdentifiers es).identifiers) :
    ∃ d, Element.node d ∈ es ∧ ∃ ids, d.identifiers = .ok ids ∧ v ∈ ids := by
  induction es with
  | nil => cases h
  | cons e rest ih =>
    simp only [parameterIdentifiers] at h
    rcases Introduced.mem_append h with h | h
    · cases e with
      | absent | data => cases h
      | node d => exact ⟨d, List.mem_cons_self, mem_ofPattern h⟩
    · obtain ⟨d, hd, hids⟩ := ih h
      exact ⟨d, List.mem_cons_of_mem _ hd, hids⟩

theorem mem_introducedIn {field : String × Binder} (h : v ∈ (c.introducedIn field).identifiers) :
    c.FromField field.1 v := by
  obtain ⟨name, binder⟩ := field
  cases binder with
  | name => exact mem_identifierIn h
  | pattern => exact mem_patternIn h
  | patterns =>
    simp only [introducedIn] at h
    split at h
    · next es hes =>
      obtain ⟨d, hd, hids⟩ := mem_parameterIdentifiers h
      exact ⟨d, mem_nodesIn_of_elements hes hd, hids⟩
    · cases h

/-- A node takes its identifiers from fields that the walk follows. -/
theorem fromField_of_introduced (h : v ∈ c.introduced.identifiers) :
    ∃ name ∈ c.node.childFields, c.FromField name v := by
  rw [introduced_eq] at h
  obtain ⟨field, hfield, h⟩ := mem_introducedFrom h
  obtain ⟨known, hknown, hmem⟩ := known_of_binder hfield
  exact ⟨field.1, by rwa [childFields_of_kind rfl hknown], mem_introducedIn h⟩

/-- **What a node introduces** are identifiers below it in the walk, with nothing in between that opens a
scope. -/
theorem mem_introduced (hall : ∀ d ∈ c.preorder, d.HasMembers) (h : v ∈ c.introduced.identifiers) :
    v.kind = "Identifier" ∧ c.Shares v := by
  obtain ⟨name, hname, d, hd, ids, hids, hv⟩ := fromField_of_introduced h
  have hin := mem_preorder_of_mem_children (mem_children_of_nodesIn hname hd)
  obtain ⟨hkind, hv, hshares⟩ := mem_identifiers (fun e he => hall e (mem_preorder_trans hin he)) hids hv
  exact ⟨hv, (shares_of_part hname hd hkind).trans hshares⟩

end

end Cursor

end SyntaxSpans
