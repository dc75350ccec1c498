import SyntaxSpans.Scope.Binding

/-!
# What each kind of node introduces

A node introduces the identifiers in some of its fields. `bindingFields` lists for each kind which fields
these are, in their order, and what is expected there; `introduced_eq` says that a node introduces what the
list has for its kind, and nothing else. In the same way `identifiersAs` says what a pattern of a kind
consists of.
-/

namespace SyntaxSpans

/-! ## Identifiers of a pattern, by its kind -/

/-- The identifiers of an item of an array. -/
def Element.inArray : Element → Except Fault (List Cursor)
  | .absent => .ok []
  | .node d => d.identifiers
  | .data => .error .notNode

def Element.inObject : Element → Except Fault (List Cursor)
  | .node d =>
    match d.child? "expression" with
    | some v => v.identifiers
    | none => .ok []
  | _ => .error .notNode

namespace Cursor

def identifiersIn (c : Cursor) (name : String) : Except Fault (List Cursor) :=
  match c.child? name with
  | some d => d.identifiers
  | none => .ok []

/-- The identifiers of all items of a list. -/
def identifiersOf (c : Cursor) (f : Element → Except Fault (List Cursor)) :
    Except Fault (List Cursor) := do
  let members ← c.elements "members"
  return (← members.mapM f).flatten

variable {c : Cursor}

theorem mapM_attach {α β : Type} (xs : List α) (f : α → Except Fault β) :
    (xs.attach.mapM fun x => f x.1) = xs.mapM f := by
  change xs.attach.mapM (f ∘ Subtype.val) = _
  rw [← List.mapM_map, List.attach_map_subtype_val]

theorem identifiersOf_of_error {fault : Fault} (f : Element → Except Fault (List Cursor))
    (h : c.elements "members" = .error fault) : c.identifiersOf f = .error fault := by
  rw [identifiersOf, h]
  rfl

/-- The recursion of patterns carries with each item that it is one of the list. -/
theorem identifiersOf_of_ok {ms : List Element} {f : Element → Except Fault (List Cursor)}
    {g : {e // e ∈ ms} → Except Fault (List Cursor)} (h : c.elements "members" = .ok ms)
    (hg : ∀ e, g e = f e.1) : c.identifiersOf f = (ms.attach.mapM g).map List.flatten := by
  rw [funext hg, mapM_attach, identifiersOf, h]
  rfl

/-- The identifiers of a pattern of the given kind. -/
def identifiersAs (c : Cursor) : String → Except Fault (List Cursor)
  | "Identifier" => .ok [c]
  | "ArrayInitialiser" => c.identifiersOf Element.inArray
  | "ObjectInitialiser" => c.identifiersOf Element.inObject
  | "Rest" | "Spread" => c.identifiersIn "expression"
  | "DefaultParam" => c.identifiersIn "param"
  | _ => .ok []

theorem identifiers_eq (c : Cursor) : c.identifiers = c.identifiersAs c.kind := by
  rw [identifiers]
  split
  · next hk => rw [hk]; rfl
  · next hk =>
    rw [hk, identifiersAs]
    split
    · next h => rw [identifiersOf_of_error _ h]
    · next ms h =>
      refine (identifiersOf_of_ok h fun e => ?_).symm
      obtain ⟨e, -⟩ := e
      cases e <;> rfl
  · next hk =>
    rw [hk, identifiersAs]
    split
    · next h => rw [identifiersOf_of_error _ h]
    · next ms h =>
      refine (identifiersOf_of_ok h fun e => ?_).symm
      obtain ⟨e, -⟩ := e
      cases e with
      | node d =>
        simp only [Element.inObject]
        cases d.child? "expression" <;> rfl
      | absent | data => rfl
  · next hk =>
    rw [hk, identifiersAs, identifiersIn]
    cases c.child? "expression" <;> rfl
  · next hk =>
    rw [hk, identifiersAs, identifiersIn]
    cases c.child? "expression" <;> rfl
  · next hk =>
    rw [hk, identifiersAs, identifiersIn]
    cases c.child? "param" <;> rfl
  · rw [identifiersAs] <;> assumption

theorem identifiers_of_identifier (h : c.kind = "Identifier") : c.identifiers = .ok [c] := by
  rw [identifiers_eq, h]
  rfl

end Cursor

/-! ## Identifiers that a node introduces, by its kind -/

/-- What is expected in a field: an identifier, a pattern, or a list of patterns. -/
inductive Binder where
  | name
  | pattern
  | patterns
deriving DecidableEq, Repr

namespace Introduced

variable {a b : Introduced} {v : Cursor}

@[simp] theorem append_nothing (a : Introduced) : a.append nothing = a := by
  obtain ⟨ids, _ | fault⟩ := a <;> simp [append, nothing]

theorem fault_append (a b : Introduced) : (a.append b).fault = (a.fault <|> b.fault) := by
  unfold append
  cases ha : a.fault <;> simp [ha]

theorem mem_append (h : v ∈ (a.append b).identifiers) : v ∈ a.identifiers ∨ v ∈ b.identifiers := by
  unfold append at h
  split at h
  · exact Or.inl h
  · simpa using h

end Introduced

namespace Cursor

/-- The fields in which a node of a kind has the identifiers that it introduces. -/
def bindingFields : List (String × List (String × Binder)) := [
  ("AssignOp", [("assignee", .pattern)]),
  ("CompoundAssignOp", [("assignee", .name)]),
  ("ExistsAssignOp", [("assignee", .name)]),
  ("Function", [("parameters", .patterns)]),
  ("BoundFunction", [("parameters", .patterns)]),
  ("ForIn", [("keyAssignee", .pattern), ("valAssignee", .pattern)]),
  ("ForOf", [("keyAssignee", .pattern), ("valAssignee", .pattern)]),
  ("Class", [("nameAssignee", .name)]),
  ("Try", [("catchAssignee", .pattern)])]

def bindersOf (kind : String) : List (String × Binder) := (bindingFields.lookup kind).getD []

def introducedIn (c : Cursor) : String × Binder → Introduced
  | (field, .name) => c.identifierIn field
  | (field, .pattern) => c.patternIn field
  | (field, .patterns) =>
    match c.elements field with
    | .ok patterns => parameterIdentifiers patterns
    | .error fault => ⟨[], some fault⟩

/-- What a node introduces in some of its fields, one after the other until one is unsound. -/
def introducedFrom (c : Cursor) : List (String × Binder) → Introduced
  | [] => .nothing
  | field :: rest => (c.introducedIn field).append (c.introducedFrom rest)

section
variable {c d v : Cursor} {kind : String} {field : String × Binder} {fields : List (String × Binder)}
  {ids : List Cursor}

/-- **What a node introduces** is what the fields that are listed for its kind have. -/
theorem introduced_eq (c : Cursor) : c.introduced = c.introducedFrom (bindersOf c.kind) := by
  unfold introduced
  split
  case h_10 =>
    have hnone : bindingFields.lookup c.kind = none := by
      rw [List.lookup_eq_none_iff]
      simp_all [bindingFields]
    simp [bindersOf, hnone, introducedFrom]
  case h_4 hkind | h_5 hkind =>
    have hrow : bindersOf c.kind = [("parameters", .patterns)] := by rw [hkind]; rfl
    rw [hrow, introducedFrom, introducedFrom, Introduced.append_nothing]
    rfl
  all_goals
    next hkind =>
      simp [hkind, bindersOf, bindingFields, List.lookup_cons, introducedFrom, introducedIn]

theorem introduced_of_binder {f : String × Binder} (h : bindersOf c.kind = [f]) :
    c.introduced = c.introducedIn f := by
  simp [introduced_eq, h, introducedFrom]

theorem row_of_binder (h : field ∈ bindersOf kind) :
    ∃ row ∈ bindingFields, row.1 = kind ∧ field ∈ row.2 := by
  unfold bindersOf at h
  cases hrow : bindingFields.lookup kind with
  | none => simp [hrow] at h
  | some fields =>
    obtain ⟨before, after, hsplit, -⟩ := List.lookup_eq_some_iff.1 hrow
    exact ⟨(kind, fields), by simp [hsplit], rfl, by simpa [hrow] using h⟩

/-- The walk follows the fields in which identifiers are introduced. -/
theorem known_of_binder (h : field ∈ bindersOf kind) :
    ∃ known, Node.knownFields? kind = some known ∧ field.1 ∈ known := by
  have hrows : ∀ row ∈ bindingFields, ∀ field ∈ row.2,
      field.1 ∈ (Node.knownFields? row.1).getD [] := by decide
  obtain ⟨row, hrow, rfl, hfield⟩ := row_of_binder h
  have hmem := hrows row hrow field hfield
  cases hknown : Node.knownFields? row.1 with
  | none => simp [hknown] at hmem
  | some known => exact ⟨known, rfl, by simpa [hknown] using hmem⟩

theorem introduced_of_unknown (h : Node.knownFields? c.kind = none) : c.introduced = .nothing := by
  have hnone : bindersOf c.kind = [] := by
    refine List.eq_nil_iff_forall_not_mem.2 fun field hfield => ?_
    obtain ⟨known, hknown, -⟩ := known_of_binder hfield
    simp [h] at hknown
  simp [introduced_eq, hnone, introducedFrom]

theorem mem_introducedFrom (h : v ∈ (c.introducedFrom fields).identifiers) :
    ∃ field ∈ fields, v ∈ (c.introducedIn field).identifiers := by
  induction fields with
  | nil => simp [introducedFrom, Introduced.nothing] at h
  | cons field rest ih =>
    rcases Introduced.mem_append h with h | h
    · exact ⟨field, by simp, h⟩
    · obtain ⟨other, hother, h⟩ := ih h
      exact ⟨other, by simp [hother], h⟩

theorem introduced_assign (h : c.kind = "AssignOp") (hd : c.child? "assignee" = some d)
    (hids : d.identifiers = .ok ids) : c.introduced = ⟨ids, none⟩ := by
  rw [introduced_of_binder (f := ("assignee", .pattern)) (by rw [h]; rfl)]
  simp [introducedIn, patternIn, hd, hids, Introduced.ofPattern]

theorem introduced_function (h : c.kind = "Function") (hd : c.elements "parameters" = .ok [.node d])
    (hids : d.identifiers = .ok ids) : c.introduced = ⟨ids, none⟩ := by
  rw [introduced_of_binder (f := ("parameters", .patterns)) (by rw [h]; rfl)]
  simp [introducedIn, parameterIdentifiers, hd, hids, Introduced.ofPattern]

end

end Cursor

end SyntaxSpans
