import SyntaxSpans.Tree.Walk

/-!
# Nodes below a node

`c.Contains d` says that `d` is `c` or stands somewhere in the fields of `c`, walked or not. Inside one
tree a path leads to at most one node (`Contains.eq_of_path`), so what is kept by path is kept by node.
The walk visits the nodes of `preorder` one after the other (`walk_eq_forM`), and a node only after
its parent (`mem_children_of_preorder`).
-/

namespace SyntaxSpans

/-! ## Slots -/

mutual

theorem Value.index_of_mem_nodesAt (v : Value) (index : List Nat) :
    ∀ p ∈ v.nodesAt index, ∃ rest, p.1 = index ++ rest := by
  intro p hp
  cases v with
  | scalar | object => simp [Value.nodesAt] at hp
  | node n => simp [Value.nodesAt] at hp; subst hp; exact ⟨[], by simp⟩
  | list items =>
    rw [Value.nodesAt] at hp
    obtain ⟨k, rest, -, h⟩ := Value.index_of_mem_nodesFrom items index 0 p hp
    exact ⟨k :: rest, h⟩

theorem Value.index_of_mem_nodesFrom (items : List Value) (index : List Nat) (i : Nat) :
    ∀ p ∈ Value.nodesFrom index i items, ∃ k rest, i ≤ k ∧ p.1 = index ++ k :: rest := by
  intro p hp
  cases items with
  | nil => simp [Value.nodesFrom] at hp
  | cons v rest =>
    rw [Value.nodesFrom, List.mem_append] at hp
    rcases hp with hp | hp
    · obtain ⟨tail, h⟩ := Value.index_of_mem_nodesAt v (index ++ [i]) p hp
      exact ⟨i, tail, Nat.le_refl i, by simp [h]⟩
    · obtain ⟨k, tail, hk, h⟩ := Value.index_of_mem_nodesFrom rest index (i + 1) p hp
      exact ⟨k, tail, by omega, h⟩

end

mutual

/-- No two nodes of a value have the same way to them. -/
theorem Value.nodesAt_inj (v : Value) (index : List Nat) :
    ∀ p ∈ v.nodesAt index, ∀ q ∈ v.nodesAt index, p.1 = q.1 → p = q := by
  intro p hp q hq h
  cases v with
  | scalar | object => simp [Value.nodesAt] at hp
  | node n => simp [Value.nodesAt] at hp hq; rw [hp, hq]
  | list items =>
    rw [Value.nodesAt] at hp hq
    exact Value.nodesFrom_inj items index 0 p hp q hq h

theorem Value.nodesFrom_inj (items : List Value) (index : List Nat) (i : Nat) :
    ∀ p ∈ Value.nodesFrom index i items, ∀ q ∈ Value.nodesFrom index i items, p.1 = q.1 → p = q := by
  intro p hp q hq h
  cases items with
  | nil => simp [Value.nodesFrom] at hp
  | cons v rest =>
    -- a node of the first item and one of a later item differ in their position in this list
    have apart : ∀ a ∈ v.nodesAt (index ++ [i]), ∀ b ∈ Value.nodesFrom index (i + 1) rest,
        a.1 ≠ b.1 := by
      intro a ha b hb hab
      obtain ⟨tail, h1⟩ := Value.index_of_mem_nodesAt v (index ++ [i]) a ha
      obtain ⟨k, tail', hk, h2⟩ := Value.index_of_mem_nodesFrom rest index (i + 1) b hb
      rw [h1, h2, List.append_assoc, List.append_cancel_left_eq] at hab
      simp at hab
      omega
    rw [Value.nodesFrom, List.mem_append] at hp hq
    rcases hp with hp | hp <;> rcases hq with hq | hq
    · exact Value.nodesAt_inj v _ p hp q hq h
    · exact absurd h (apart p hp q hq)
    · exact absurd h.symm (apart q hq p hp)
    · exact Value.nodesFrom_inj rest index (i + 1) p hp q hq h

end

namespace Cursor

theorem mem_nodesIn {c d : Cursor} {name : String} :
    d ∈ c.nodesIn name ↔
      ∃ v, c.node.field? name = some v ∧ ∃ p ∈ v.nodesAt [], c.down ⟨name, p.1⟩ p.2 = d := by
  unfold nodesIn
  cases c.node.field? name <;> simp

theorem path_of_mem_nodesIn {c d : Cursor} {name : String} (h : d ∈ c.nodesIn name) :
    ∃ index, d.path = ⟨name, index⟩ :: c.path := by
  obtain ⟨v, -, p, -, rfl⟩ := mem_nodesIn.1 h
  exact ⟨p.1, rfl⟩

theorem nodesIn_inj {c d e : Cursor} {name name' : String} (hd : d ∈ c.nodesIn name)
    (he : e ∈ c.nodesIn name') (h : d.path = e.path) : d = e := by
  obtain ⟨v, hv, p, hp, rfl⟩ := mem_nodesIn.1 hd
  obtain ⟨w, hw, q, hq, rfl⟩ := mem_nodesIn.1 he
  simp only [down, List.cons.injEq, Slot.mk.injEq, and_true] at h
  obtain ⟨rfl, hpq⟩ := h
  obtain rfl : v = w := Option.some.inj (hv.symm.trans hw)
  rw [Value.nodesAt_inj v [] p hp q hq hpq]

theorem mem_nodesIn_of_child? {c d : Cursor} {name : String} (h : c.child? name = some d) :
    d ∈ c.nodesIn name := by
  simp only [child?, Node.child?, Option.map_eq_some_iff] at h
  obtain ⟨n, hn, rfl⟩ := h
  split at hn
  · next c' hf =>
    cases hn
    simp [nodesIn, hf, Value.nodesAt]
  · cases hn

theorem path_of_child? {c d : Cursor} {name : String} (h : c.child? name = some d) :
    d.path = ⟨name, []⟩ :: c.path := by
  simp only [child?, Option.map_eq_some_iff] at h
  obtain ⟨n, -, rfl⟩ := h
  rfl

/-! ## Containment -/

/-- `d` is `c` or stands below it. -/
inductive Contains (c : Cursor) : Cursor → Prop where
  | refl : Contains c c
  | down {d e : Cursor} {name : String} (hd : Contains c d) (he : e ∈ d.nodesIn name) : Contains c e

namespace Contains

theorem trans {c d e : Cursor} (hd : c.Contains d) (he : d.Contains e) : c.Contains e := by
  induction he with
  | refl => exact hd
  | down _ hm ih => exact ih.down hm

theorem child {c d e : Cursor} {name : String} (hd : c.Contains d) (h : d.child? name = some e) :
    c.Contains e :=
  hd.down (mem_nodesIn_of_child? h)

theorem length_path_le {c d : Cursor} (h : c.Contains d) : c.path.length ≤ d.path.length := by
  induction h with
  | refl => exact Nat.le_refl _
  | down _ he ih =>
    obtain ⟨index, hp⟩ := path_of_mem_nodesIn he
    rw [hp, List.length_cons]
    omega

/-- The path of a node ends with that of every node above it. -/
theorem path_suffix {c d : Cursor} (h : c.Contains d) : c.path <:+ d.path := by
  induction h with
  | refl => exact List.suffix_rfl
  | down _ he ih =>
    obtain ⟨index, hp⟩ := path_of_mem_nodesIn he
    rw [hp]
    exact ih.trans (List.suffix_cons _ _)

theorem not_child {c d : Cursor} {name : String} (h : c.child? name = some d) : ¬ d.Contains c := by
  intro hd
  have hlen := hd.length_path_le
  rw [path_of_child? h, List.length_cons] at hlen
  omega

theorem disjoint {c d e x : Cursor} {name name' : String} (hd : c.child? name = some d)
    (he : c.child? name' = some e) (hne : name ≠ name') (hx : d.Contains x) : ¬ e.Contains x := by
  intro hx'
  have hd' := path_of_child? hd
  have he' := path_of_child? he
  have hpath : d.path = e.path :=
    (List.suffix_of_suffix_length_le hx.path_suffix hx'.path_suffix (by simp [hd', he'])).eq_of_length
      (by simp [hd', he'])
  rw [hd', he'] at hpath
  exact hne (by injection hpath with hslot; injection hslot)

/-- Below one node a path leads to one node only. -/
theorem eq_of_path {c d e : Cursor} (hd : c.Contains d) (he : c.Contains e) (h : d.path = e.path) :
    d = e := by
  induction hd generalizing e with
  | refl =>
    cases he with
    | refl => rfl
    | down hf he =>
      obtain ⟨index, hp⟩ := path_of_mem_nodesIn he
      have := hf.length_path_le
      rw [hp] at h
      have := congrArg List.length h
      rw [List.length_cons] at this
      omega
  | down hd' hm ih =>
    obtain ⟨i, hi⟩ := path_of_mem_nodesIn hm
    cases he with
    | refl =>
      have := hd'.length_path_le
      have := congrArg List.length (hi.symm.trans h)
      rw [List.length_cons] at this
      omega
    -- the parents have the same path, and the field has one node in a slot
    | down hf hm' =>
      obtain ⟨j, hj⟩ := path_of_mem_nodesIn hm'
      rw [hi, hj] at h
      have hparent := ih hf (List.cons.inj h).2
      subst hparent
      exact nodesIn_inj hm hm' (by rw [hi, hj, h])

end Contains

/-! ## Preorder -/

theorem preorder_eq (c : Cursor) : c.preorder = c :: c.children.flatMap preorder := by
  rw [preorder]
  congr 1
  rw [List.flatMap_def, List.flatMap_def]
  congr 1
  exact List.attach_map_val

theorem preorder_leaf {c : Cursor} (h : c.children = []) : c.preorder = [c] := by
  rw [preorder_eq, h]
  rfl

theorem preorder_of_leaves {c : Cursor} (h : ∀ d ∈ c.children, d.children = []) :
    c.preorder = c :: c.children := by
  rw [preorder_eq, List.flatMap_def, List.map_congr_left fun d hd => preorder_leaf (h d hd)]
  exact congrArg (c :: ·) (List.flatMap_singleton' c.children)

theorem forall_preorder {P : Cursor → Prop} {c : Cursor} (ds : List Cursor) (h : c.children = ds)
    (hc : P c) (hds : ∀ d ∈ ds, ∀ e ∈ d.preorder, P e) : ∀ d ∈ c.preorder, P d := by
  rw [preorder_eq, h]
  refine List.forall_mem_cons.2 ⟨hc, fun e he => ?_⟩
  obtain ⟨d, hd, he⟩ := List.mem_flatMap.1 he
  exact hds d hd e he

theorem forall_preorder_leaf {P : Cursor → Prop} {c : Cursor} (h : c.children = []) (hc : P c) :
    ∀ d ∈ c.preorder, P d :=
  forall_preorder [] h hc (by simp)

theorem contains_of_mem_children {c d : Cursor} (h : d ∈ c.children) : c.Contains d := by
  obtain ⟨name, -, hd⟩ := List.mem_flatMap.1 h
  exact Contains.refl.down hd

theorem contains_of_mem_preorder {c d : Cursor} (h : d ∈ c.preorder) : c.Contains d := by
  rw [preorder_eq, List.mem_cons] at h
  rcases h with rfl | h
  · exact .refl
  · obtain ⟨e, he, hd⟩ := List.mem_flatMap.1 h
    have := sizeOf_children_lt he
    exact (contains_of_mem_children he).trans (contains_of_mem_preorder hd)
termination_by sizeOf c.node

@[simp] theorem mem_preorder_self (c : Cursor) : c ∈ c.preorder := by
  rw [preorder_eq]
  exact List.mem_cons_self

theorem mem_preorder_of_mem_children {c d : Cursor} (h : d ∈ c.children) : d ∈ c.preorder := by
  rw [preorder_eq, List.mem_cons]
  exact Or.inr (List.mem_flatMap.2 ⟨d, h, mem_preorder_self d⟩)

theorem mem_preorder_trans {c d e : Cursor} (hd : d ∈ c.preorder) (he : e ∈ d.preorder) :
    e ∈ c.preorder := by
  rw [preorder_eq, List.mem_cons] at hd
  rcases hd with rfl | hd
  · exact he
  · obtain ⟨child, hchild, hd⟩ := List.mem_flatMap.1 hd
    have := sizeOf_children_lt hchild
    rw [preorder_eq, List.mem_cons]
    exact Or.inr (List.mem_flatMap.2 ⟨child, hchild, mem_preorder_trans hd he⟩)
termination_by sizeOf c.node

theorem flatMap_filter_of_nil {α β : Type} {p : α → Bool} {f : α → List β} {xs : List α}
    (h : ∀ x ∈ xs, p x = false → f x = []) : (xs.filter p).flatMap f = xs.flatMap f := by
  induction xs with
  | nil => rfl
  | cons x rest ih =>
    have hrest := ih fun y hy => h y (List.mem_cons_of_mem _ hy)
    rw [List.filter_cons, List.flatMap_cons]
    split
    · rw [List.flatMap_cons, hrest]
    · next hx => rw [hrest, h x List.mem_cons_self (Bool.eq_false_iff.2 hx), List.nil_append]

/-- An element of a concatenation stands in one of the parts, behind the same elements or fewer. -/
theorem split_of_flatMap {α β : Type} {f : α → List β} {xs : List α} {before after : List β} {y : β}
    (h : xs.flatMap f = before ++ y :: after) :
    ∃ x ∈ xs, ∃ b a, f x = b ++ y :: a ∧ ∀ z ∈ b, z ∈ before := by
  induction xs generalizing before with
  | nil => simp at h
  | cons x rest ih =>
    rw [List.flatMap_cons, List.append_eq_append_iff] at h
    rcases h with ⟨as, rfl, h⟩ | ⟨bs, hx, h⟩
    · obtain ⟨x', hx', b, a, hf, hb⟩ := ih h
      exact ⟨x', List.mem_cons_of_mem _ hx', b, a, hf, fun z hz => List.mem_append_right _ (hb z hz)⟩
    · cases bs with
      | nil =>
        obtain ⟨x', hx', b, a, hf, hb⟩ := @ih [] (by simpa using h.symm)
        exact ⟨x', List.mem_cons_of_mem _ hx', b, a, hf, fun z hz => absurd (hb z hz) List.not_mem_nil⟩
      | cons z bs =>
        obtain ⟨rfl, -⟩ := List.cons.inj h
        exact ⟨x, List.mem_cons_self, before, bs, hx, fun _ hz => hz⟩

/-- In the order of the walk a node comes after its parent. -/
theorem mem_children_of_preorder {c d : Cursor} {before after : List Cursor}
    (h : c.preorder = before ++ d :: after) : d = c ∨ ∃ e ∈ before, d ∈ e.children := by
  rw [preorder_eq] at h
  cases before with
  | nil => exact Or.inl (List.cons.inj h).1.symm
  | cons c' before =>
    obtain ⟨rfl, htail⟩ := List.cons.inj h
    obtain ⟨e, he, b, a, hsplit, hb⟩ := split_of_flatMap htail
    have := sizeOf_children_lt he
    rcases mem_children_of_preorder hsplit with rfl | ⟨g, hg, hd⟩
    · exact Or.inr ⟨c, List.mem_cons_self, he⟩
    · exact Or.inr ⟨g, List.mem_cons_of_mem _ (hb g hg), hd⟩
termination_by sizeOf c.node

/-- What holds of a node and goes from each node of the walk to its children holds of all nodes of the
walk. -/
theorem preorder_induction {motive : Cursor → Prop} {r : Cursor} (root : motive r)
    (child : ∀ c ∈ r.preorder, motive c → ∀ d ∈ c.children, motive d) :
    ∀ c ∈ r.preorder, motive c := by
  intro c hc
  rw [preorder_eq, List.mem_cons] at hc
  rcases hc with rfl | hc
  · exact root
  · obtain ⟨e, he, hc⟩ := List.mem_flatMap.1 hc
    have := sizeOf_children_lt he
    have hin := mem_preorder_of_mem_children he
    exact preorder_induction (child r (mem_preorder_self r) root e he)
      (fun d hd => child d (mem_preorder_trans hin hd)) c hc
termination_by sizeOf r.node

/-- `c` is the node of the tree below `r` that the walk comes to after those in `before`. -/
structure Next (r : Cursor) (before : List Cursor) (c : Cursor) : Prop where
  contains : r.Contains c
  visited : ∀ d ∈ before, r.Contains d
  parent : c.path = [] ∨ ∃ e ∈ before, c ∈ e.children

theorem next_of_preorder {r c : Cursor} {before after : List Cursor} (hroot : r.path = [])
    (h : r.preorder = before ++ c :: after) : r.Next before c := by
  have hin : ∀ d ∈ before ++ c :: after, r.Contains d := fun d hd =>
    contains_of_mem_preorder (h ▸ hd)
  refine ⟨hin c (by simp), fun d hd => hin d (by simp [hd]), ?_⟩
  exact (mem_children_of_preorder h).imp (fun heq => by rw [heq, hroot]) id

section
variable {m : Type → Type} [Monad m] [LawfulMonad m]

theorem forM_attach {α : Type} (xs : List α) (f : α → m PUnit) :
    (xs.attach.forM fun x => f x.1) = xs.forM f := by
  conv => rhs; rw [← List.attach_map_subtype_val xs]
  rw [List.forM_eq_forM, List.forM_eq_forM, List.forM_map]

theorem forM_flatMap {α β : Type} (xs : List α) (f : α → List β) (g : β → m PUnit) :
    (xs.flatMap f).forM g = xs.forM fun x => (f x).forM g := by
  induction xs with
  | nil => rfl
  | cons x rest ih =>
    simp only [List.forM_eq_forM] at ih ⊢
    rw [List.flatMap_cons, List.forM_append, List.forM_cons, ih]

/-- A visitor that never declines is called on the nodes of `preorder` in turn. -/
theorem walk_eq_forM {visit : Cursor → m Bool} (step : Cursor → m PUnit)
    (h : ∀ c, visit c = do step c; pure true) (c : Cursor) :
    c.walk visit = c.preorder.forM step := by
  have below : ∀ d ∈ c.children, d.walk visit = d.preorder.forM step := by
    intro d hd
    have := sizeOf_children_lt hd
    exact walk_eq_forM step h d
  rw [walk, h, preorder_eq, bind_assoc]
  simp only [pure_bind, if_true, List.forM_eq_forM, List.forM_cons]
  congr 1
  funext _
  rw [← List.forM_eq_forM, ← List.forM_eq_forM, forM_attach c.children (walk visit), forM_flatMap]
  generalize c.children = ds at below
  induction ds with
  | nil => rfl
  | cons d rest ih =>
    simp only [List.forM_eq_forM, List.forM_cons] at ih ⊢
    rw [below d List.mem_cons_self, ih fun e he => below e (List.mem_cons_of_mem _ he),
      List.forM_eq_forM]
termination_by sizeOf c.node

end

end Cursor

end SyntaxSpans
