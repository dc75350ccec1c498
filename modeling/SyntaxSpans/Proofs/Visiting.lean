import SyntaxSpans.Proofs.Distinct
import SyntaxSpans.Proofs.Fixpoint
import SyntaxSpans.Proofs.WalkFault

/-!
# What a walk visits

A walk sets the parent link of a node and then calls its visitor there. Walking a list of nodes, the next
one gives way to its children, unless the visitor declined (`forM_walk_cons`); `Trace` says which calls this
leads to, and all else is by induction on it. The nodes that are called on stand in `preorder`, without all
that is below a node where the visitor declined (`Trace.order`).
-/

namespace SyntaxSpans

/-! ## Counting -/

namespace Cursor

/-- Counting the nodes below one after the other counts `preorder`. -/
theorem count_eq_length (c : Cursor) : c.count = c.preorder.length := by
  have below : ∀ d ∈ c.children, d.count = d.preorder.length := by
    intro d hd
    have := sizeOf_children_lt hd
    exact count_eq_length d
  have hsum : ∀ (ds : List Cursor) (n : Nat), (∀ d ∈ ds, d.count = d.preorder.length) →
      ds.foldl (fun n d => n + d.count) n = n + (ds.flatMap preorder).length := by
    intro ds
    induction ds with
    | nil => simp
    | cons d rest ih =>
      intro n hds
      obtain ⟨hd, hrest⟩ := List.forall_mem_cons.1 hds
      rw [List.foldl_cons, ih _ hrest, List.flatMap_cons, List.length_append, hd, Nat.add_assoc]
  rw [count, preorder_eq, List.length_cons, Nat.add_comm, ← hsum _ 1 below]
  exact List.foldl_attach (f := fun (n : Nat) (d : Cursor) => n + d.count)
termination_by sizeOf c.node

/-! ## Above and below -/

section
variable {r c d e : Cursor}

/-- Whether a node stands below another one of the tree, by their paths. -/
def isBelow (d c : Cursor) : Bool := c.path.isSuffixOf d.path && d.path != c.path

theorem isBelow_eq_true : d.isBelow c = true ↔ c.path <:+ d.path ∧ d.path ≠ c.path := by
  simp [isBelow, List.isSuffixOf_iff_suffix]

/-- In a tree what the paths say is so. -/
theorem contains_of_suffix (hc : r.Contains c) (hd : r.Contains d) (h : c.path <:+ d.path) :
    c.Contains d := by
  induction hd with
  | refl =>
    have hpath := h.eq_of_length (Nat.le_antisymm h.length_le hc.length_path_le)
    rw [hc.eq_of_path .refl hpath]
    exact .refl
  | down hd he ih =>
    obtain ⟨index, hpath⟩ := path_of_mem_nodesIn he
    rw [hpath, List.suffix_cons_iff, ← hpath] at h
    rcases h with h | h
    · rw [hc.eq_of_path (hd.down he) h]
      exact .refl
    · exact (ih h).down he

theorem isBelow_of_child (h : d ∈ c.children) (he : d.Contains e) : e.isBelow c = true := by
  obtain ⟨slot, hpath⟩ := path_of_mem_children h
  have hsuffix := he.path_suffix
  have hlength := hsuffix.length_le
  rw [hpath] at hsuffix hlength
  refine isBelow_eq_true.2 ⟨(List.suffix_cons slot c.path).trans hsuffix, fun heq => ?_⟩
  rw [heq, List.length_cons] at hlength
  omega

theorem isBelow_trans (h : d.isBelow c = true) (he : e.isBelow d = true) : e.isBelow c = true := by
  rw [isBelow_eq_true] at h he ⊢
  have hlt : c.path.length < d.path.length :=
    Nat.lt_of_le_of_ne h.1.length_le fun heq => h.2 (h.1.eq_of_length heq).symm
  have hle := he.1.length_le
  refine ⟨h.1.trans he.1, fun heq => ?_⟩
  rw [heq] at hle
  omega

end

/-! ## Walking a list of nodes -/

/-- The children, if the walk goes on below the node. -/
def childrenIf (c : Cursor) (goesOn : Bool) : List Cursor := if goesOn then c.children else []

section
variable {m : Type → Type} [Monad m] [LawfulMonad m]

/-- The next node gives way to its children, unless the visitor declined. -/
theorem forM_walk_cons (visit : Cursor → m Bool) (c : Cursor) (rest : List Cursor) :
    (c :: rest).forM (walk visit) = (do
      let goesOn ← visit c
      (c.childrenIf goesOn ++ rest).forM (walk visit)) := by
  simp only [List.forM_eq_forM]
  rw [List.forM_cons, walk, bind_assoc]
  congr 1
  funext goesOn
  cases goesOn with
  | false => simp [childrenIf]
  | true =>
    have hattach := forM_attach c.children (walk visit)
    simp only [List.forM_eq_forM] at hattach
    simp [childrenIf, List.forM_append, hattach]

end

theorem flatMap_preorder_cons (c : Cursor) (rest : List Cursor) : (c :: rest).flatMap preorder =
    c :: (c.children.flatMap preorder ++ rest.flatMap preorder) := by
  rw [List.flatMap_cons, preorder_eq, List.cons_append]

/-- What the walk comes to after a node and its answer, it comes to from the node on. -/
theorem sublist_of_next (c : Cursor) (rest : List Cursor) (goesOn : Bool) :
    ((c.childrenIf goesOn ++ rest).flatMap preorder).Sublist
      (c.children.flatMap preorder ++ rest.flatMap preorder) := by
  rw [List.flatMap_append]
  cases goesOn with
  | true => exact .refl _
  | false => exact List.sublist_append_right _ _

/-- What goes to a list of nodes from those that the walk has next, whatever the visitor answers at the
first one, holds of every list. -/
theorem agenda_induction {motive : List Cursor → Prop} (nil : motive [])
    (cons : ∀ c rest, (∀ goesOn, motive (c.childrenIf goesOn ++ rest)) → motive (c :: rest))
    (agenda : List Cursor) : motive agenda := by
  generalize hn : (agenda.flatMap preorder).length = n
  induction n using Nat.strongRecOn generalizing agenda with
  | ind n ih =>
    cases agenda with
    | nil => exact nil
    | cons c rest =>
      refine cons c rest fun goesOn => ih _ ?_ _ rfl
      have hle := (sublist_of_next c rest goesOn).length_le
      rw [← hn, flatMap_preorder_cons, List.length_cons]
      omega

end Cursor

/-! ## Visitors -/

namespace Progress

/-- The path of the parent of a node, if the node is linked to it. -/
def parent? (p : Progress) (c : Cursor) : Option Path :=
  if (p.mark c).linked then c.path.tail? else none

/-- The parent link of a node leads to its parent in the tree, which is one of the nodes `above`. The root
has no parent link. -/
def LinkedAmong (p : Progress) (above : List Cursor) (c : Cursor) : Prop :=
  c.path = [] ∧ p.parent? c = none ∨ ∃ e ∈ above, c ∈ e.children ∧ p.parent? c = some e.path

theorem linkedAmong {p : Progress} {above : List Cursor} {c : Cursor}
    (hlinked : c.path = [] ∨ (p.mark c).linked = true)
    (habove : c.path = [] ∨ ∃ e ∈ above, c ∈ e.children) : p.LinkedAmong above c := by
  by_cases hroot : c.path = []
  · refine Or.inl ⟨hroot, ?_⟩
    rw [parent?, hroot]
    split <;> rfl
  · obtain ⟨e, he, hchild⟩ := habove.resolve_left hroot
    obtain ⟨slot, hpath⟩ := Cursor.path_of_mem_children hchild
    refine Or.inr ⟨e, he, hchild, ?_⟩
    rw [parent?, if_pos (hlinked.resolve_left hroot), hpath]
    rfl

end Progress

/-- One call of a visitor: the node, the state that the visitor found, and its answer. -/
structure Call (σ : Type) where
  node : Cursor
  found : σ
  goesOn : Bool

/-- Notes each call of a visitor that returns. -/
def noting {ε σ : Type} (visit : Cursor → EStateM ε σ Bool) (c : Cursor) :
    EStateM ε (σ × List (Call σ)) Bool := fun s =>
  match visit c s.1 with
  | .ok goesOn s' => .ok goesOn (s', s.2 ++ [⟨c, s.1, goesOn⟩])
  | .error e s' => .error e (s', s.2)

/-- Where the state of a visitor keeps what has been found out about the tree. -/
structure View (σ : Type) where
  progress : σ → Progress
  put : σ → Progress → σ
  progress_put : ∀ s p, progress (put s p) = p

namespace View

variable {ε σ : Type}

/-- A visitor with a state of its own besides. -/
def beside (v : View σ) (τ : Type) : View (σ × τ) where
  progress s := v.progress s.1
  put s p := (v.put s.1 p, s.2)
  progress_put s p := v.progress_put s.1 p

def whole : View Progress where
  progress := id
  put _ p := p
  progress_put _ _ := rfl

def ofAnnotation : View Annotation where
  progress := Annotation.progress
  put a p := { a with progress := p }
  progress_put _ _ := rfl

/-- Links a node to its parent, unless it is the root. -/
def link (v : View σ) (c : Cursor) (s : σ) : σ :=
  if c.path.isEmpty then s
  else v.put s ((v.progress s).setMark c { (v.progress s).mark c with linked := true })

/-- Walks a tree: each node is linked to its parent and then visited. -/
def traverse (v : View σ) (visit : Cursor → EStateM ε σ Bool) (c : Cursor) : EStateM ε σ Unit :=
  c.walk fun d => do
    modify (v.link d)
    visit d

/-- The visitor changes no parent links. -/
def KeepsLinks (v : View σ) (visit : Cursor → EStateM ε σ Bool) : Prop :=
  ∀ c s goesOn s', visit c s = .ok goesOn s' → ∀ d, (v.progress s').parent? d = (v.progress s).parent? d

section
variable (v : View σ) (visit : Cursor → EStateM ε σ Bool)

/-- The calls of a walk over a list of nodes that comes to its end. -/
inductive Trace : List Cursor → σ → List (Call σ) → σ → Prop where
  | done {s : σ} : Trace [] s [] s
  | call {c : Cursor} {rest : List Cursor} {s s₁ s' : σ} {goesOn : Bool} {calls : List (Call σ)}
      (hvisit : visit c (v.link c s) = .ok goesOn s₁)
      (hrest : Trace (c.childrenIf goesOn ++ rest) s₁ calls s') :
      Trace (c :: rest) s (⟨c, v.link c s, goesOn⟩ :: calls) s'

end

section
variable {v : View σ} {c : Cursor}

theorem link_of_root (h : c.path.isEmpty = true) : v.link c = id := by
  funext s
  exact if_pos h

theorem link_of_child (h : ¬ c.path.isEmpty = true) : v.link c = fun s =>
    v.put s ((v.progress s).setMark c { (v.progress s).mark c with linked := true }) := by
  funext s
  exact if_neg h

theorem link_beside {τ : Type} (c : Cursor) (s : σ) (t : τ) :
    (v.beside τ).link c (s, t) = (v.link c s, t) := by
  unfold link
  split <;> rfl

/-- Walking a list of nodes goes on after a call of the visitor as the visitor answers. -/
theorem forM_traverse_cons (v : View σ) (visit : Cursor → EStateM ε σ Bool) (c : Cursor)
    (rest : List Cursor) (s : σ) : (c :: rest).forM (v.traverse visit) s =
      match visit c (v.link c s) with
      | .ok goesOn s₁ => (c.childrenIf goesOn ++ rest).forM (v.traverse visit) s₁
      | .error e s₁ => .error e s₁ := by
  have hcons := Cursor.forM_walk_cons (fun d => do modify (v.link d); visit d) c rest
  have hlink : (do modify (v.link c); visit c : EStateM ε σ Bool) s = visit c (v.link c s) := rfl
  refine (congrFun hcons s).trans ?_
  simp only [bind, EStateM.bind] at hlink ⊢
  rw [hlink]
  cases visit c (v.link c s) <;> rfl

/-- **A walk** comes to its end, and noting its calls changes nothing else, or a call of the visitor
fails. -/
theorem exists_trace (v : View σ) (visit : Cursor → EStateM ε σ Bool) (agenda : List Cursor)
    (s : σ) (before : List (Call σ)) :
    (∃ calls s', agenda.forM (v.traverse visit) s = .ok () s' ∧
      agenda.forM ((v.beside _).traverse (noting visit)) (s, before) = .ok () (s', before ++ calls) ∧
      v.Trace visit agenda s calls s') ∨
    ∃ e s', agenda.forM (v.traverse visit) s = .error e s' ∧
      ∃ c ∈ agenda.flatMap Cursor.preorder, ∃ t, visit c t = .error e s' := by
  induction agenda using Cursor.agenda_induction generalizing s before with
  | nil => exact Or.inl ⟨[], s, rfl, by rw [List.append_nil]; rfl, .done⟩
  | cons c rest ih =>
    rw [forM_traverse_cons]
    cases hvisit : visit c (v.link c s) with
    | error e s₁ =>
      refine Or.inr ⟨e, s₁, rfl, c, ?_, v.link c s, hvisit⟩
      rw [Cursor.flatMap_preorder_cons]
      exact List.mem_cons_self
    | ok goesOn s₁ =>
      have hnoted : noting visit c ((v.beside _).link c (s, before)) =
          .ok goesOn (s₁, before ++ [⟨c, v.link c s, goesOn⟩]) := by
        rw [link_beside, noting, hvisit]
      rw [forM_traverse_cons, hnoted]
      rcases ih goesOn s₁ (before ++ [⟨c, v.link c s, goesOn⟩]) with
        ⟨calls, s', hrun, hnotes, htrace⟩ | ⟨e, s', hrun, d, hd, hfail⟩
      · rw [List.append_assoc, List.singleton_append] at hnotes
        exact Or.inl ⟨_, s', hrun, hnotes, .call hvisit htrace⟩
      · refine Or.inr ⟨e, s', hrun, d, ?_, hfail⟩
        rw [Cursor.flatMap_preorder_cons]
        exact List.mem_cons_of_mem c ((Cursor.sublist_of_next c rest goesOn).subset hd)

end

/-! ## The calls of a walk -/

/-- The visitor declined at no node above. -/
def reached (calls : List (Call σ)) (c : Cursor) : Bool :=
  calls.all fun k => k.goesOn || !c.isBelow k.node

section
variable {v : View σ} {visit : Cursor → EStateM ε σ Bool} {agenda : List Cursor} {s s' : σ}
  {c d : Cursor} {calls all : List (Call σ)}

theorem reached_eq_true : reached calls c = true ↔
    ∀ k ∈ calls, k.goesOn = false → c.isBelow k.node = false := by
  simp only [reached, List.all_eq_true]
  refine forall₂_congr fun k _ => ?_
  cases k.goesOn <;> simp

theorem reached_above (h : reached calls d = true) (hd : d.isBelow c = true) : reached calls c = true := by
  rw [reached_eq_true] at h ⊢
  intro k hk hdeclined
  by_contra hbelow
  have := Cursor.isBelow_trans (Bool.of_not_eq_false hbelow) hd
  rw [h k hk hdeclined] at this
  cases this

/-- The children of a node that is reached are reached, unless the visitor declined there. -/
theorem reached_child (h : reached calls c = true)
    (hopen : ∀ k ∈ calls, k.node.path = c.path → k.goesOn = true) (hd : d ∈ c.children) :
    reached calls d = true := by
  rw [reached_eq_true] at h ⊢
  intro k hk hdeclined
  by_contra hbelow
  obtain ⟨hsuffix, hne⟩ := Cursor.isBelow_eq_true.1 (Bool.of_not_eq_false hbelow)
  obtain ⟨slot, hpath⟩ := Cursor.path_of_mem_children hd
  rw [hpath, List.suffix_cons_iff, ← hpath] at hsuffix
  have habove := hsuffix.resolve_left fun heq => hne heq.symm
  by_cases heq : k.node.path = c.path
  · rw [hopen k hk heq] at hdeclined
    cases hdeclined
  · have := Cursor.isBelow_eq_true.2 ⟨habove, fun heq' => heq heq'.symm⟩
    rw [h k hk hdeclined] at this
    cases this

theorem Trace.sublist (h : v.Trace visit agenda s calls s') :
    (calls.map Call.node).Sublist (agenda.flatMap Cursor.preorder) := by
  induction h with
  | done => exact .slnil
  | @call c rest _ _ _ goesOn _ _ _ ih =>
    rw [List.map_cons, Cursor.flatMap_preorder_cons]
    exact (ih.trans (Cursor.sublist_of_next c rest goesOn)).cons_cons c

/-- The order of the calls, among all those of a walk around them: where the visitor declined, nothing below
is reached. -/
theorem Trace.order (h : v.Trace visit agenda s calls s') (hall : ∀ k ∈ calls, k ∈ all)
    (hnodup : (all.map (·.node.path)).Nodup) (hagenda : ∀ c ∈ agenda, reached all c = true) :
    calls.map Call.node = (agenda.flatMap Cursor.preorder).filter (reached all) := by
  induction h with
  | done => rfl
  | @call c rest s s₁ s' goesOn calls hvisit hrest ih =>
    obtain ⟨hcall, hcalls⟩ := List.forall_mem_cons.1 hall
    obtain ⟨hc, hrests⟩ := List.forall_mem_cons.1 hagenda
    rw [Cursor.flatMap_preorder_cons, List.filter_cons, if_pos hc, List.map_cons, List.filter_append]
    congr 1
    cases goesOn with
    | true =>
      -- no other call is made on the node, so its children are reached
      have hopen : ∀ k ∈ all, k.node.path = c.path → k.goesOn = true := by
        intro k hk hpath
        rw [List.inj_on_of_nodup_map hnodup hk hcall hpath]
      have hchildren : ∀ d ∈ c.children, reached all d = true := fun d hd => reached_child hc hopen hd
      rw [ih hcalls (List.forall_mem_append.2 ⟨hchildren, hrests⟩), List.flatMap_append,
        List.filter_append]
      rfl
    | false =>
      have hnone : (c.children.flatMap Cursor.preorder).filter (reached all) = [] := by
        rw [List.filter_eq_nil_iff]
        intro e he hreached
        obtain ⟨d, hd, hin⟩ := List.mem_flatMap.1 he
        have hbelow := Cursor.isBelow_of_child hd (Cursor.contains_of_mem_preorder hin)
        rw [reached_eq_true.1 hreached _ hcall rfl] at hbelow
        cases hbelow
      rw [hnone, List.nil_append]
      exact ih hcalls hrests

/-- Each node is linked when the visitor is called there. -/
theorem Trace.found (h : v.Trace visit agenda s calls s') :
    ∀ k ∈ calls, ∃ t, k.found = v.link k.node t := by
  induction h with
  | done => simp
  | call _ _ ih => exact List.forall_mem_cons.2 ⟨⟨_, rfl⟩, ih⟩

theorem linked_link (v : View σ) (c : Cursor) (s : σ) :
    c.path = [] ∨ ((v.progress (v.link c s)).mark c).linked = true := by
  rw [link]
  split
  · next hroot => exact Or.inl (List.isEmpty_iff.1 hroot)
  · rw [v.progress_put, Progress.mark_setMark_self]
    exact Or.inr rfl

theorem parent?_link_of_ne (v : View σ) (s : σ) (h : c.path ≠ d.path) :
    (v.progress (v.link c s)).parent? d = (v.progress s).parent? d := by
  rw [link]
  split
  · rfl
  · rw [v.progress_put, Progress.parent?, Progress.mark_setMark_of_ne _ _ h]
    rfl

/-- A walk leaves the parent links of the nodes that it does not visit. -/
theorem Trace.parent?_eq (h : v.Trace visit agenda s calls s') (hkeeps : v.KeepsLinks visit)
    (hd : ∀ k ∈ calls, k.node.path ≠ d.path) :
    (v.progress s').parent? d = (v.progress s).parent? d := by
  induction h with
  | done => rfl
  | call hvisit _ ih =>
    obtain ⟨hne, hcalls⟩ := List.forall_mem_cons.1 hd
    rw [ih hcalls, hkeeps _ _ _ _ hvisit d, parent?_link_of_ne v _ hne]

end

/-! ## What a walk does -/

/-- A visitor is called on the nodes of the tree in order, without what is below a node where it declined.
It is called on no node twice, and on a node when it has been called on all above it and the node is linked to
its parent. -/
structure Visits (v : View σ) (r : Cursor) (calls : List (Call σ)) : Prop where
  order : calls.map Call.node = r.preorder.filter (reached calls)
  once : (calls.map (·.node.path)).Nodup
  parent : ∀ before k after, calls = before ++ k :: after →
    (v.progress k.found).LinkedAmong (before.map Call.node) k.node
  above : ∀ before k after, calls = before ++ k :: after →
    ∀ c, r.Contains c → k.node.isBelow c = true → c ∈ before.map Call.node

section
variable {v : View σ} {visit : Cursor → EStateM ε σ Bool} {s s' : σ} {r c : Cursor}
  {calls before after : List (Call σ)} {k : Call σ}

theorem split_of_filter {α : Type} {p : α → Bool} {xs before after : List α} {y : α}
    (h : xs.filter p = before ++ y :: after) :
    p y = true ∧ ∃ b a, xs = b ++ y :: a ∧ b.filter p = before := by
  obtain ⟨front, back, rfl, hfront, hback⟩ := List.filter_eq_append_iff.1 h
  obtain ⟨skipped, a, rfl, hskipped, hy, -⟩ := List.filter_eq_cons_iff.1 hback
  refine ⟨hy, front ++ skipped, a, by rw [List.append_assoc], ?_⟩
  rw [List.filter_append, hfront, List.filter_eq_nil_iff.2 hskipped, List.append_nil]

theorem mem_of_isBelow {b a : List Cursor} (hroot : r.path = []) (h : r.preorder = b ++ c :: a)
    {d : Cursor} (hd : r.Contains d) (hbelow : c.isBelow d = true) : d ∈ b := by
  obtain ⟨hsuffix, hne⟩ := Cursor.isBelow_eq_true.1 hbelow
  have hc : r.Contains c := Cursor.contains_of_mem_preorder (by rw [h]; simp)
  have hpre : r.preorder = (b ++ [c]) ++ a := by rw [h, List.append_assoc, List.singleton_append]
  have hmem := Cursor.mem_before_of_contains hroot hpre hd (Cursor.contains_of_suffix hd hc hsuffix)
    (List.mem_append_right b List.mem_cons_self)
  rcases List.mem_append.1 hmem with hmem | hmem
  · exact hmem
  · rw [List.mem_singleton.1 hmem] at hne
    exact absurd rfl hne

/-- **What a walk visits**, from the calls that it makes. -/
theorem Trace.visits (h : v.Trace visit [r] s calls s') (hroot : r.path = []) (hr : r.node.Regular) :
    v.Visits r calls := by
  have hsublist := h.sublist
  rw [List.flatMap_singleton] at hsublist
  have honce : (calls.map (·.node.path)).Nodup := by
    have := (hsublist.map Cursor.path).nodup (Cursor.nodup_preorder hr)
    rwa [List.map_map] at this
  have hreached : reached calls r = true := by
    rw [reached_eq_true]
    intro k _ _
    simp [Cursor.isBelow, hroot]
  have horder : calls.map Call.node = r.preorder.filter (reached calls) := by
    have := h.order (fun _ hk => hk) honce (List.forall_mem_singleton.2 hreached)
    rwa [List.flatMap_singleton] at this
  -- what was visited before a node is what is reached in front of it in the order of the walk
  have hsplit : ∀ before k after, calls = before ++ k :: after → reached calls k.node = true ∧
      ∃ b a, r.preorder = b ++ k.node :: a ∧ b.filter (reached calls) = before.map Call.node := by
    intro before k after hcalls
    have hnodes : r.preorder.filter (reached calls) =
        before.map Call.node ++ k.node :: after.map Call.node := by
      rw [← horder]
      simp [hcalls]
    exact split_of_filter hnodes
  refine ⟨horder, honce, fun before k after hcalls => ?_, fun before k after hcalls c hc hbelow => ?_⟩
  · obtain ⟨hk, b, a, hpre, hb⟩ := hsplit before k after hcalls
    obtain ⟨t, hfound⟩ := h.found k (by simp [hcalls])
    refine Progress.linkedAmong (hfound ▸ linked_link v k.node t) ?_
    refine (Cursor.next_of_preorder hroot hpre).parent.imp id fun ⟨e, he, hchild⟩ => ⟨e, ?_, hchild⟩
    rw [← hb]
    exact List.mem_filter.2 ⟨he, reached_above hk (Cursor.isBelow_of_child hchild .refl)⟩
  · obtain ⟨hk, b, a, hpre, hb⟩ := hsplit before k after hcalls
    rw [← hb]
    exact List.mem_filter.2 ⟨mem_of_isBelow hroot hpre hc hbelow, reached_above hk hbelow⟩

/-- **When a walk comes to its end**: it does so unless a call of the visitor fails. -/
theorem traverse_cases (v : View σ) (visit : Cursor → EStateM ε σ Bool) (r : Cursor) (s : σ) :
    (∃ calls s', v.traverse visit r s = .ok () s' ∧
      (v.beside _).traverse (noting visit) r (s, []) = .ok () (s', calls) ∧
      v.Trace visit [r] s calls s') ∨
    ∃ e s', v.traverse visit r s = .error e s' ∧ ∃ c ∈ r.preorder, ∃ t, visit c t = .error e s' := by
  have h := exists_trace v visit [r] s []
  have hone : ∀ {σ : Type} (v : View σ) (visit : Cursor → EStateM ε σ Bool) (s : σ),
      [r].forM (v.traverse visit) s = v.traverse visit r s := by
    intro σ v visit s
    simp only [List.forM_eq_forM, List.forM_cons, List.forM_nil]
    rw [bind_pure_unit]
  simpa only [hone, List.flatMap_singleton, List.nil_append] using h

end

end View

/-! ## The walk of the annotation -/

namespace Annotation

section
variable {l : Locator} {tree : Node} {a b : Annotation} {c : Cursor}

/-- What is done at a node that is linked; the walk always goes on. -/
def visitLinked (l : Locator) (c : Cursor) : Annotating Bool := do
  stepLinked l c
  return true

/-- The walk of the annotation links each node before all else. -/
theorem walk_visit (l : Locator) (c : Cursor) :
    c.walk (visit l) = View.ofAnnotation.traverse (visitLinked l) c := by
  have hlink : ∀ d : Cursor,
      (if d.path.isEmpty then pure () else resolving (Resolving.link d) : Annotating Unit) =
        modify (View.ofAnnotation.link d) := by
    intro d
    funext a
    split
    · next hroot => rw [View.link_of_root hroot]; rfl
    · next hroot => rw [View.link_of_child hroot]; rfl
  refine congrArg (fun visit => c.walk visit) (funext fun d => ?_)
  rw [← hlink d]
  unfold visit visitLinked stepLinked
  split <;> simp only [bind_assoc, pure_bind]

theorem visitLinked_outcome : Outcome (visitLinked l c) a
    (fun goesOn b => goesOn = true ∧ b.visited = a.visited + 1) (fun _ _ => True) := by
  have hscope : Outcome (enterScope c) a (fun _ b => b.visited = a.visited) (fun _ _ => True) := by
    rw [enterScope, outcome_bind, outcome_get]
    simp only [outcome_bind, outcome_set]
    split
    · trivial
    · rfl
  rw [visitLinked, stepLinked, outcome_bind, outcome_bind]
  refine hscope.imp (fun _ a₁ h₁ => ?_) fun _ _ _ => trivial
  rw [outcome_bind, outcome_resolving]
  unfold Outcome
  split
  · exact ⟨rfl, congrArg (· + 1) h₁⟩
  · trivial

/-- The calls of the walk: each is counted, and none declines. -/
theorem trace_spec {agenda : List Cursor} {calls : List (Call Annotation)}
    (h : View.ofAnnotation.Trace (visitLinked l) agenda a calls b) :
    (∀ k ∈ calls, k.goesOn = true) ∧ b.visited = a.visited + calls.length := by
  induction h with
  | done => simp
  | @call c _ a a₁ _ goesOn _ hvisit _ ih =>
    obtain ⟨hgoes, hcount⟩ := visitLinked_outcome.of_ok hvisit
    have hlink : (View.ofAnnotation.link c a).visited = a.visited := by
      unfold View.link
      split <;> rfl
    refine ⟨List.forall_mem_cons.2 ⟨hgoes, ih.1⟩, ?_⟩
    rw [ih.2, hcount, hlink, List.length_cons]
    omega

/-- **An annotation visits the whole tree.** -/
theorem visits_of_ok (hregular : tree.Regular) (h : pass l tree {} = .ok () a) :
    ∃ b calls, (View.ofAnnotation.beside _).traverse (noting (visitLinked l)) (.root tree) ({}, []) =
        .ok () (b, calls) ∧
      View.ofAnnotation.Visits (.root tree) calls ∧
      calls.map Call.node = (Cursor.root tree).preorder ∧
      a = { b with progress := b.progress.record [.annotated (Cursor.root tree).preorder.length] } := by
  rw [pass, walk_visit] at h
  rcases View.ofAnnotation.traverse_cases (visitLinked l) (.root tree) {} with
    ⟨calls, b, hrun, hnoted, htrace⟩ | ⟨e, b, hrun, -⟩
  · obtain ⟨hgoes, hcount⟩ := trace_spec htrace
    have hvisits := htrace.visits rfl hregular
    have hall : calls.map Call.node = (Cursor.root tree).preorder := by
      rw [hvisits.order, List.filter_eq_self]
      intro c _
      rw [View.reached_eq_true]
      intro k hk hdeclined
      rw [hgoes k hk] at hdeclined
      cases hdeclined
    refine ⟨b, calls, hnoted, hvisits, hall, ?_⟩
    have hlength : b.visited = (Cursor.root tree).preorder.length := by
      rw [hcount, ← hall, List.length_map]
      exact Nat.zero_add _
    rw [← hlength]
    simp only [bind, EStateM.bind, hrun] at h
    cases h
    rfl
  · simp only [bind, EStateM.bind, hrun] at h
    cases h

end

end Annotation

/-! ## Walks over trees that were read -/

/-- The walk with a visitor that leaves the parent links alone. -/
theorem View.traverse_visits {ε σ : Type} {tree : Node} {v : View σ} {visit : Cursor → EStateM ε σ Bool}
    (hregular : tree.Regular) (hkeeps : v.KeepsLinks visit) (s : σ) :
    (∃ calls s', v.traverse visit (.root tree) s = .ok () s' ∧
      (v.beside _).traverse (noting visit) (.root tree) (s, []) = .ok () (s', calls) ∧
      v.Visits (.root tree) calls ∧
      ∀ d, (Cursor.root tree).Contains d → d ∉ calls.map Call.node →
        (v.progress s').parent? d = (v.progress s).parent? d) ∨
    ∃ e s', v.traverse visit (.root tree) s = .error e s' ∧
      ∃ c ∈ (Cursor.root tree).preorder, ∃ t, visit c t = .error e s' := by
  rcases v.traverse_cases visit (.root tree) s with ⟨calls, s', hrun, hnoted, htrace⟩ | hfail
  · refine Or.inl ⟨calls, s', hrun, hnoted, htrace.visits rfl hregular, fun d hd hd' => ?_⟩
    refine htrace.parent?_eq hkeeps fun k hk hpath => hd' ?_
    -- in a tree a node is known by its path
    have hin := htrace.sublist.subset (List.mem_map_of_mem hk)
    rw [List.flatMap_singleton] at hin
    rw [← (Cursor.contains_of_mem_preorder hin).eq_of_path hd hpath]
    exact List.mem_map_of_mem hk
  · exact Or.inr hfail

/-- Annotating a tree changes nothing about how many nodes it has. -/
theorem count_annotated {source : Text} {window : Window} {tree : Node} {a : Annotated}
    (h : annotate source window tree = .ok a) : a.tree.count = (Cursor.root tree).preorder.length := by
  rw [Node.count, Cursor.count_eq_length]
  exact (congrArg List.length (nodes_eq h)).trans (List.length_map _)

theorem linkedAmong_of_ok {source : Text} {window : Window} {tree : Node} {a : Annotated} {c : Cursor}
    (h : annotate source window tree = .ok a) (hc : c ∈ (Cursor.root tree).preorder) :
    a.annotation.progress.LinkedAmong (Cursor.root tree).preorder c := by
  have hstart := Annotation.midway_start (.ofSource source window) tree
  have hpassed := Annotation.pass_outcome hstart
  have hlinked := (hpassed.of_ok (annotate_ok.1 h).1).2 c hc
  obtain ⟨before, after, hpre⟩ := List.append_of_mem hc
  refine Progress.linkedAmong hlinked ?_
  refine (Cursor.next_of_preorder rfl hpre).parent.imp id fun ⟨e, he, hchild⟩ => ⟨e, ?_, hchild⟩
  rw [hpre]
  exact List.mem_append_left _ he

/-- **What a walk visits.** Over any tree that was read, with any visitor that leaves the parent links alone,
the walk visits the nodes in order, each when all above it have been visited and it is linked to its parent,
and leaves out just what is below a node where the visitor declined; those nodes keep their parent link. It
ends early only if the visitor fails. Counting the nodes counts all of them. The annotation, which may link
nodes early, visits all nodes, leaves each linked to its parent, and records how many they are. -/
theorem visited_in_order {j : Json} {tree : Node} (hj : j.Distinct) (htree : Node.ofJson j = .ok tree) :
    (∀ {ε σ : Type} (v : View σ) (visit : Cursor → EStateM ε σ Bool), v.KeepsLinks visit → ∀ s : σ,
      (∃ calls s', v.traverse visit (.root tree) s = .ok () s' ∧
        (v.beside _).traverse (noting visit) (.root tree) (s, []) = .ok () (s', calls) ∧
        v.Visits (.root tree) calls ∧
        ∀ d, (Cursor.root tree).Contains d → d ∉ calls.map Call.node →
          (v.progress s').parent? d = (v.progress s).parent? d) ∨
      ∃ e s', v.traverse visit (.root tree) s = .error e s' ∧
        ∃ c ∈ (Cursor.root tree).preorder, ∃ t, visit c t = .error e s') ∧
    tree.count = (Cursor.root tree).preorder.length ∧
    ∀ source window a, annotate source window tree = .ok a →
      let step := Annotation.visit (.ofSource source window)
      let visit := Annotation.visitLinked (.ofSource source window)
      (Cursor.root tree).walk step = View.ofAnnotation.traverse visit (.root tree) ∧
      (∃ b calls, (View.ofAnnotation.beside _).traverse (noting visit) (.root tree) ({}, []) =
          .ok () (b, calls) ∧
        View.ofAnnotation.Visits (.root tree) calls ∧
        calls.map Call.node = (Cursor.root tree).preorder ∧
        a.annotation = { b with progress := b.progress.record [.annotated a.tree.count] } ∧
        a.log = b.progress.log ++ [.annotated a.tree.count]) ∧
      ∀ c ∈ (Cursor.root tree).preorder,
        a.annotation.progress.LinkedAmong (Cursor.root tree).preorder c := by
  have hregular := regular_of_ofJson hj htree
  refine ⟨fun v visit hkeeps s => View.traverse_visits hregular hkeeps s, Cursor.count_eq_length _,
    fun source window a ha => ?_⟩
  have hwalk := Annotation.walk_visit (.ofSource source window) (.root tree)
  obtain ⟨b, calls, hnoted, hvisits, hall, hb⟩ := Annotation.visits_of_ok hregular (annotate_ok.1 ha).1
  rw [← count_annotated ha] at hb
  have hlog : a.log = b.progress.log ++ [.annotated a.tree.count] := by
    rw [Annotated.log, hb, Progress.log, Progress.record]
    exact List.reverse_append
  exact ⟨hwalk, ⟨b, calls, hnoted, hvisits, hall, hb, hlog⟩, fun c hc => linkedAmong_of_ok ha hc⟩

/-- A walk over a sum that stops at the operator, and its annotation. -/
theorem visited_in_order_sum :
    let stopping : Cursor → Resolving Bool := fun c => pure (c.kind != "PlusOp")
    let left : Cursor := ⟨.identifier 'a' 1, [⟨"left", []⟩], some "PlusOp"⟩
    (Node.sum).dump.Distinct ∧ Node.ofJson (Node.sum).dump = .ok .sum ∧ View.whole.KeepsLinks stopping ∧
      (∃ calls p, View.whole.traverse stopping (.root .sum) {} = .ok () p ∧
        View.whole.Visits (.root .sum) calls ∧ calls.map Call.node = [.root .sum] ∧
        p.parent? left = none) ∧
      (Node.sum).count = 3 ∧
      ∃ a, annotate ['a', '+', 'b'] .standard .sum = .ok a ∧ a.log.getLast? = some (.annotated 3) ∧
        a.annotation.progress.LinkedAmong (Cursor.root .sum).preorder left := by
  intro stopping left
  have hread : Node.ofJson (Node.sum).dump = .ok .sum := rfl
  have hkeeps : View.whole.KeepsLinks stopping := by
    intro c p goesOn p' hvisit d
    cases hvisit
    rfl
  obtain ⟨hwalk, hcount, hannotate⟩ := visited_in_order distinct_sum hread
  rw [preorder_sum] at hcount
  obtain ⟨a, ha⟩ := annotate_sum
  obtain ⟨-, ⟨b, -, -, -, -, -, hlog⟩, hlinked⟩ := hannotate _ _ a ha
  have hin : left ∈ (Cursor.root .sum).preorder := by
    rw [preorder_sum]
    exact List.mem_cons_of_mem _ List.mem_cons_self
  have hleft := Cursor.contains_of_mem_preorder hin
  refine ⟨distinct_sum, hread, hkeeps, ?_, hcount, a, ha, ?_, hlinked left hin⟩
  · have hstops : (View.whole.beside _).traverse (noting stopping) (.root .sum) ({}, []) =
        .ok () ({}, [⟨.root .sum, {}, false⟩]) := by
      rw [View.traverse, Cursor.walk]
      rfl
    rcases hwalk View.whole stopping hkeeps {} with
      ⟨calls, p, hrun, hnoted, hvisits, hrest⟩ | ⟨e, p, -, c, -, t, hfail⟩
    · cases hstops.symm.trans hnoted
      refine ⟨_, {}, hrun, hvisits, rfl, hrest left hleft ?_⟩
      rw [List.map_singleton, List.mem_singleton]
      exact fun heq => List.cons_ne_nil _ _ (congrArg Cursor.path heq)
    · cases hfail
  · rw [hlog, List.getLast?_concat, count_annotated ha, preorder_sum]
    rfl

end SyntaxSpans
