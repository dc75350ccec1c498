import Mathlib.Data.List.Nodup
import SyntaxSpans.Proofs.Shape

/-!
# Each node is visited once

A walk comes to no node twice: the children of a node have different slots, provided that no two fields
have one name, and the nodes below two children have paths that end differently.
-/

namespace SyntaxSpans

/-! ## Slots -/

mutual

theorem Value.nodup_nodesAt (v : Value) (index : List Nat) :
    ((v.nodesAt index).map (·.1)).Nodup := by
  cases v with
  | scalar | object | node => simp [Value.nodesAt]
  | list items => exact Value.nodup_nodesFrom items index 0

theorem Value.nodup_nodesFrom (items : List Value) (index : List Nat) (i : Nat) :
    ((Value.nodesFrom index i items).map (·.1)).Nodup := by
  cases items with
  | nil => simp [Value.nodesFrom]
  | cons v rest =>
    rw [Value.nodesFrom, List.map_append, List.nodup_append]
    refine ⟨Value.nodup_nodesAt v _, Value.nodup_nodesFrom rest index (i + 1), ?_⟩
    intro p hp q hq heq
    obtain ⟨a, ha, rfl⟩ := List.mem_map.1 hp
    obtain ⟨b, hb, rfl⟩ := List.mem_map.1 hq
    -- the way to the first item and the way to a later one differ in their position in this list
    obtain ⟨tail, h1⟩ := Value.index_of_mem_nodesAt v (index ++ [i]) a ha
    obtain ⟨k, tail', hk, h2⟩ := Value.index_of_mem_nodesFrom rest index (i + 1) b hb
    rw [h1, h2, List.append_assoc, List.append_cancel_left_eq] at heq
    simp at heq
    omega

end

theorem Node.nodup_childFields {n : Node} (h : n.fieldNames.Nodup) : n.childFields.Nodup := by
  have hknown : ∀ fields, Node.knownFields? n.kind = some fields → fields.Nodup := by
    intro fields hfields
    unfold Node.knownFields? at hfields
    split at hfields
    · cases hfields; decide
    · split at hfields
      · cases hfields; decide
      · split at hfields
        · cases hfields; decide
        · have hall : ∀ e ∈ Node.compoundKinds, e.2.Nodup := by decide
          obtain ⟨l, r, hsplit, -⟩ := List.lookup_eq_some_iff.1 hfields
          exact hall (n.kind, fields) (by rw [hsplit]; simp)
  unfold Node.childFields
  cases hk : Node.knownFields? n.kind with
  | none => exact h
  | some fields => exact hknown fields hk

namespace Cursor

variable {c d e : Cursor}

theorem nodup_children (h : c.node.fieldNames.Nodup) : (c.children.map path).Nodup := by
  rw [children, List.map_flatMap, List.nodup_flatMap]
  constructor
  · intro name _
    unfold nodesIn
    split
    · next v _ =>
      rw [List.map_map]
      have hslots := (Value.nodup_nodesAt v []).map
        (f := fun index => (⟨name, index⟩ : Slot) :: c.path) fun i j hij => by
          simpa using hij
      rwa [List.map_map] at hslots
    · simp
  · refine (Node.nodup_childFields h).imp fun {name name'} hne => ?_
    intro p hp hp'
    obtain ⟨d, hd, rfl⟩ := List.mem_map.1 hp
    obtain ⟨e, he, heq⟩ := List.mem_map.1 hp'
    obtain ⟨i, hi⟩ := path_of_mem_nodesIn hd
    obtain ⟨j, hj⟩ := path_of_mem_nodesIn he
    rw [hi, hj] at heq
    simp only [List.cons.injEq, Slot.mk.injEq, and_true] at heq
    exact hne heq.1.symm

theorem path_of_mem_children (h : d ∈ c.children) : ∃ slot, d.path = slot :: c.path := by
  obtain ⟨name, -, hin⟩ := List.mem_flatMap.1 h
  obtain ⟨index, hp⟩ := path_of_mem_nodesIn hin
  exact ⟨_, hp⟩

/-- **Each node is visited once** in a regular tree. -/
theorem nodup_preorder {c : Cursor} (h : c.node.Regular) : (c.preorder.map path).Nodup := by
  have below : ∀ d ∈ c.children, (d.preorder.map path).Nodup := by
    intro d hd
    have := sizeOf_children_lt hd
    obtain ⟨name, -, hin⟩ := List.mem_flatMap.1 hd
    exact nodup_preorder (Cursor.forall_nodesIn h hin)
  rw [preorder_eq, List.map_cons, List.nodup_cons, List.map_flatMap, List.nodup_flatMap]
  refine ⟨fun hmem => ?_, below, ?_⟩
  · obtain ⟨d, hd, hin⟩ := List.mem_flatMap.1 hmem
    obtain ⟨e, he, hpath⟩ := List.mem_map.1 hin
    obtain ⟨slot, hslot⟩ := path_of_mem_children hd
    have hlen := (contains_of_mem_preorder he).length_path_le
    rw [hpath, hslot, List.length_cons] at hlen
    omega
  · have hslots := nodup_children (Node.forall_iff.1 h).1.1
    rw [List.nodup_iff_pairwise_ne, List.pairwise_map] at hslots
    refine hslots.imp_of_mem fun {d e} hd he hne => ?_
    intro p hp hp'
    obtain ⟨x, hx, rfl⟩ := List.mem_map.1 hp
    obtain ⟨y, hy, heq⟩ := List.mem_map.1 hp'
    obtain ⟨slot, hslot⟩ := path_of_mem_children hd
    obtain ⟨slot', hslot'⟩ := path_of_mem_children he
    -- both children are on the way to the node, at the same level
    have hsuffix := (contains_of_mem_preorder hx).path_suffix
    have hsuffix' := (contains_of_mem_preorder hy).path_suffix
    rw [heq] at hsuffix'
    exact hne ((List.suffix_of_suffix_length_le hsuffix hsuffix' (by simp [hslot, hslot'])).eq_of_length
      (by simp [hslot, hslot']))
termination_by sizeOf c.node

end Cursor

end SyntaxSpans
