import SyntaxSpans.Proofs.Bindings
import SyntaxSpans.Proofs.Fixpoint
import SyntaxSpans.Proofs.Patterns
import SyntaxSpans.Proofs.WalkFault

/-!
# What the entries of a scope stand for

A scope has one entry for each name that it binds, and the entry leads to an identifier of that name which
the walk reaches inside the scope (`entries_in_scope`). The annotation does not change the name: nothing
below an identifier is visited, and no place is drawn from the field that names it (`name_placed`).
-/

namespace SyntaxSpans

/-! ## One entry for each name -/

namespace Forest

def BindsOnce {α : Type} (f : Forest α) : Prop :=
  ∀ i s, f.scope? i = some s → (s.bindings.map (·.1)).Nodup

section
variable {α : Type} {f : Forest α} {i : Nat} {s : Scope α} {name : String} {v : α}

theorem BindsOnce.own?_of_mem (h : f.BindsOnce) (hs : f.scope? i = some s) (hmem : (name, v) ∈ s.bindings) :
    f.own? i name = some v := by
  rw [own?, hs]
  exact lookup_of_mem (h i s hs) hmem

theorem BindsOnce.add (h : f.BindsOnce) (p : Option ScopeId) : (f.add p).1.BindsOnce := by
  intro i s hs
  simp only [scope?, Forest.add, Array.getElem?_push] at hs
  split at hs
  · cases hs
    exact List.nodup_nil
  · exact h i s hs

theorem BindsOnce.declare (h : f.BindsOnce) (t : Nat) (name : String) (v : α) :
    (f.declare t name v).BindsOnce := by
  intro i s hs
  rw [scope?_declare] at hs
  split at hs
  · obtain ⟨s', hs', rfl⟩ := Option.map_eq_some_iff.1 hs
    rw [Scope.bind, List.map_cons, List.nodup_cons]
    refine ⟨fun hmem => ?_, (h i s' hs').sublist (List.filter_sublist.map _)⟩
    obtain ⟨e, he, rfl⟩ := List.mem_map.1 hmem
    simpa using (List.mem_filter.1 he).2
  · exact h i s hs

end

theorem BindsOnce.introduceAll {f : Forest Cursor} (h : f.BindsOnce) (i : Nat) (declares : Bool)
    (ids : List Cursor) : (f.introduceAll i declares ids).BindsOnce := by
  induction ids generalizing f with
  | nil => exact h
  | cons d rest ih =>
    refine ih (f := f.introduce i declares d) ?_
    rcases introduce_cases f i declares d with hd | hd <;> rw [hd]
    · exact h.declare i d.node.name d
    · exact h

end Forest

namespace Scoping

theorem Entered.bindsOnce {s s' : Scoping} {c : Cursor} {i : Nat} (he : Entered s c i s')
    (h : s.forest.BindsOnce) : s'.forest.BindsOnce := by
  rcases he.forest with ⟨-, -, hforest⟩ | ⟨-, -, -, hforest⟩ <;> rw [hforest]
  · exact (h.add _).introduceAll _ _ _
  · exact h.introduceAll _ _ _

/-- At any time of the walk each scope has one entry for each name. -/
theorem Begins.bindsOnce {r : Cursor} {nodes : List Cursor} (h : Begins r nodes) :
    (ofNodes nodes).forest.BindsOnce := by
  induction nodes using List.reverseRecOn with
  | nil =>
    intro i s hs
    simp [ofNodes, Forest.scope?] at hs
  | append_singleton nodes c ih =>
    obtain ⟨i, he⟩ := h.entered
    exact he.bindsOnce (ih h.init)

theorem Sound.at?_of_shares {s : Scoping} {r c d : Cursor} (h : s.Sound r.preorder) (hc : c ∈ r.preorder)
    (hd : c.Shares d) : s.at? d.path = s.at? c.path := by
  induction hd with
  | refl => rfl
  | down hd he hshares ih =>
    rw [h.at?_of_child (Cursor.mem_preorder_trans hc hd.mem_preorder) he hshares, ih]

end Scoping

/-! ## Names after the annotation -/

section
variable {source : Text} {window : Window} {tree : Node} {a : Annotated} {v x e : Cursor}

/-- Nothing below an identifier is visited. -/
theorem not_visited_of_identifier (hv : (Cursor.root tree).Contains v) (hkind : v.kind = "Identifier")
    {name : String} (hx : x ∈ v.nodesIn name) : x ∉ (Cursor.root tree).preorder := by
  intro hmem
  obtain ⟨before, after, hsplit⟩ := List.append_of_mem hmem
  obtain ⟨index, hpath⟩ := Cursor.path_of_mem_nodesIn hx
  rcases Cursor.mem_children_of_preorder hsplit with rfl | ⟨p, hp, hchild⟩
  · cases hpath
  · obtain ⟨name', hname', hin⟩ := List.mem_flatMap.1 hchild
    have hvisited : (Cursor.root tree).Contains p :=
      Cursor.contains_of_mem_preorder (by rw [hsplit]; exact List.mem_append_left _ hp)
    obtain rfl := Cursor.parent_unique hv hvisited hx hin
    simp [Cursor.childFields_of_kind hkind rfl] at hname'

theorem not_drawn_of_data (hv : (Cursor.root tree).Contains v) (hkind : v.kind = "Identifier")
    (hx : x ∈ v.nodesIn "data") (he : x.Contains e) : ¬ ∃ c ∈ (Cursor.root tree).preorder, c.Draws e := by
  rintro ⟨c, hc, hdraw⟩
  have hunvisited := not_visited_of_identifier hv hkind hx
  have hxin : (Cursor.root tree).Contains x := hv.down hx
  have hcin := Cursor.contains_of_mem_preorder hc
  rcases Cursor.draws_or_contains hcin hxin hdraw he with hdraw | habove
  · cases hdraw with
    | refl => exact hunvisited hc
    | down hd hop =>
      -- the node would be an operand, but operands are in other fields
      obtain ⟨name, hname, hchild⟩ := Cursor.child_of_mem_operands hop
      obtain rfl := Cursor.parent_unique hv (Progress.contains_of_draws hcin hd) hx
        (Cursor.mem_nodesIn_of_child? hchild)
      obtain ⟨index, hpath⟩ := Cursor.path_of_mem_nodesIn hx
      rw [Cursor.path_of_child? hchild] at hpath
      simp only [List.cons.injEq, Slot.mk.injEq, and_true] at hpath
      rw [hpath.1] at hname
      exact absurd hname (by decide)
  · exact hunvisited (Cursor.mem_before_of_contains rfl (List.append_nil _).symm hxin habove hc)

/-- **An identifier keeps its name** when it is placed. -/
theorem name_placed (htree : tree.Regular) (h : annotate source window tree = .ok a)
    (hv : v ∈ (Cursor.root tree).preorder) (hkind : v.kind = "Identifier") :
    (a.annotation.progress.placed v).node.name = v.node.name := by
  have hin := Cursor.contains_of_mem_preorder hv
  have hregular : v.node.Regular := hin.forall htree
  have hdata : (a.annotation.progress.placed v).node.field? "data" = v.node.field? "data" := by
    show (v.node.relabelAt a.annotation.progress.labels v.path).field? "data" = _
    rw [field?_relabelAt]
    cases hfield : v.node.field? "data" with
    | none => rfl
    | some value =>
      refine congrArg some (relabelIn_eq_self _ value v.path "data" [] fun p hp => ?_)
      have hx : v.down ⟨"data", p.1⟩ p.2 ∈ v.nodesIn "data" :=
        Cursor.mem_nodesIn.2 ⟨value, hfield, p, hp, rfl⟩
      refine relabelled_eq_self (c := v.down ⟨"data", p.1⟩ p.2) (Cursor.forall_nodesIn hregular hx)
        fun e he => Progress.labels_eq_self ?_
      exact (annotate_completes h).rest e ((hin.down hx).trans he) (not_drawn_of_data hin hkind hx he)
  rw [Node.name, Node.name, hdata]

/-- **Entries stand for nodes of their scope**: each entry of a scope leads to an identifier that the walk
reaches in that scope, and that has the name of the entry also after the annotation. -/
theorem entries_in_scope {j : Json} (hj : j.Distinct) (htree : Node.ofJson j = .ok tree)
    (hmembers : ∀ c ∈ (Cursor.root tree).preorder, c.HasMembers)
    (h : annotate source window tree = .ok a) :
    ∀ i s, a.annotation.forest.scope? i = some s → ∀ name v, (name, v) ∈ s.bindings →
      v ∈ (Cursor.root tree).preorder ∧ ∃ w ∈ a.nodes, w.path = v.path ∧
        w.kind = "Identifier" ∧ w.node.name = name ∧ a.scope? w = some i := by
  intro i s hs name v hmem
  have hregular := regular_of_ofJson hj htree
  have hbegins := begins_preorder hregular
  have hscoping := scoping_of_ok h
  have hown : (Scoping.ofNodes (Cursor.root tree).preorder).forest.own? i name = some v := by
    refine hbegins.bindsOnce.own?_of_mem ?_ hmem
    rw [← hscoping]
    exact hs
  obtain ⟨n, hn, hat, hoffer⟩ := hbegins.offered hown
  obtain ⟨hkind, hshares⟩ := Cursor.mem_introduced
    (fun d hd => hmembers d (Cursor.mem_preorder_trans hn hd)) (Cursor.mem_of_offer? hoffer)
  have hv := Cursor.mem_preorder_trans hn hshares.mem_preorder
  refine ⟨hv, a.annotation.progress.placed v, ?_, rfl, ?_, ?_, ?_⟩
  · rw [nodes_eq h]
    exact List.mem_map_of_mem hv
  · rw [Progress.kind_placed, hkind]
  · rw [name_placed hregular h hv hkind, Cursor.name_of_offer? hoffer]
  · show a.annotation.scoping.at? v.path = some i
    rw [hscoping, hbegins.sound.at?_of_shares hn hshares, hat]

end

/-! ## An object that is taken apart -/

theorem Cursor.introduced_object {c d m v : Cursor} (h : c.kind = "AssignOp")
    (hd : c.child? "assignee" = some d) (hobject : d.kind = "ObjectInitialiser")
    (hm : d.elements "members" = .ok [.node m]) (hv : m.child? "expression" = some v)
    (hkind : v.kind = "Identifier") : c.introduced = ⟨[v], none⟩ := by
  have hmember : Element.inObject (.node m) = .ok [v] := by
    rw [Element.inObject, hv]
    exact identifiers_of_identifier hkind
  have hids : d.identifiers = .ok [v] := by
    rw [identifiers_eq, hobject]
    show d.identifiersOf Element.inObject = _
    simp [identifiersOf, hm, hmember, bind, Except.bind, pure, Except.pure]
  exact introduced_assign h hd hids

/-- The assignment of `b` to an object pattern with the one member `a`. -/
def Node.destructuring : Node :=
  .reported "AssignOp" ['\x7b', 'a', '\x7d', '=', 'b'] 0 [
    ("assignee", .node (.reported "ObjectInitialiser" ['\x7b', 'a', '\x7d'] 0 [("members", .list [
      .node (.reported "ObjectInitialiserMember" ['a'] 1 [
        ("key", .node (.letter 'a' 1)), ("expression", .node (.letter 'a' 1))])])])),
    ("expression", .node (.letter 'b' 4))]

/-- Its scope has an entry for the member, which stands for the identifier there. -/
theorem entries_in_scope_destructuring : Node.ofJson (Node.destructuring).dump = .ok .destructuring ∧
    (∀ c ∈ (Cursor.root .destructuring).preorder, c.HasMembers) ∧
    ∃ a, annotate ['\x7b', 'a', '\x7d', '=', 'b'] .standard .destructuring = .ok a ∧
      ∀ i s, a.annotation.forest.scope? i = some s → ∀ name v, (name, v) ∈ s.bindings →
        v ∈ (Cursor.root .destructuring).preorder ∧ ∃ w ∈ a.nodes, w.path = v.path ∧
          w.kind = "Identifier" ∧ w.node.name = name ∧ a.scope? w = some i := by
  have hdistinct : (Node.destructuring).dump.Distinct := by
    repeat' constructor
    all_goals decide
  have hother : ∀ {c : Cursor}, c.kind ≠ "ObjectInitialiser" → c.HasMembers := fun hne hkind =>
    absurd hkind hne
  have hmembers : ∀ c ∈ (Cursor.root .destructuring).preorder, c.HasMembers := by
    refine Cursor.forall_preorder [_, _] rfl (hother (by decide))
      (List.forall_mem_cons.2 ⟨?_, List.forall_mem_singleton.2 ?_⟩)
    · refine Cursor.forall_preorder [_] rfl (fun _ => List.forall_mem_singleton.2 rfl)
        (List.forall_mem_singleton.2 ?_)
      refine Cursor.forall_preorder [_, _] rfl (hother (by decide))
        (List.forall_mem_cons.2 ⟨?_, List.forall_mem_singleton.2 ?_⟩) <;>
      exact Cursor.forall_preorder_leaf rfl (hother (by decide))
    · exact Cursor.forall_preorder_leaf rfl (hother (by decide))
  have hok : ∃ a, annotate ['\x7b', 'a', '\x7d', '=', 'b'] .standard .destructuring = .ok a := by
    rw [annotate_ok_iff]
    refine Cursor.forall_preorder [_, _] rfl ⟨Locator.final?_ne_none_of_reads rfl rfl rfl,
      congrArg Introduced.fault (Cursor.introduced_object rfl rfl rfl rfl rfl rfl)⟩
      (List.forall_mem_cons.2 ⟨?_, List.forall_mem_singleton.2 ?_⟩)
    · refine Cursor.forall_preorder [_] rfl ⟨Locator.final?_ne_none_of_reads rfl rfl rfl, rfl⟩
        (List.forall_mem_singleton.2 ?_)
      refine Cursor.forall_preorder [_, _] rfl ⟨Locator.final?_ne_none_of_reads rfl rfl rfl, rfl⟩
        (List.forall_mem_cons.2 ⟨?_, List.forall_mem_singleton.2 ?_⟩) <;>
      exact Cursor.forall_preorder_leaf rfl ⟨Locator.final?_ne_none_of_reads rfl rfl rfl, rfl⟩
    · exact Cursor.forall_preorder_leaf rfl ⟨Locator.final?_ne_none_of_reads rfl rfl rfl, rfl⟩
  obtain ⟨a, ha⟩ := hok
  exact ⟨rfl, hmembers, a, ha, entries_in_scope hdistinct rfl hmembers ha⟩

end SyntaxSpans
