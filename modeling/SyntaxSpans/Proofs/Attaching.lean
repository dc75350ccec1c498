import SyntaxSpans.Proofs.Scoping
import SyntaxSpans.Scope.Attach

/-!
# Attaching nodes as the walk does

Nodes can be attached one by one, in any order. Whoever attaches the nodes of a tree in the order of the
walk, each below its parent, gives them the scopes that they have in the annotation (`attached_as_annotated`).
An answer names a scope by its place among those that were named, and this name is good for ever: asking
again gives the same place, and no other scope gets it (`name_idem`, `name_injective`).
-/

namespace SyntaxSpans

namespace Attachment

variable {a : Attachment} {i j : ScopeId} {k : Nat} {c : Cursor} {parent : Option Nat} {f : Forest Cursor}
  {fault : Option Fault}

/-! ## The names of scopes -/

@[simp] theorem name_nodes (a : Attachment) (i : ScopeId) : (a.name i).1.nodes = a.nodes := by
  unfold name; split <;> rfl

@[simp] theorem name_held (a : Attachment) (i : ScopeId) : (a.name i).1.held = a.held := by
  unfold name; split <;> rfl

@[simp] theorem name_forest (a : Attachment) (i : ScopeId) : (a.name i).1.forest = a.forest := by
  unfold name; split <;> rfl

theorem getElem?_named (a : Attachment) (i : ScopeId) : (a.name i).1.named[(a.name i).2]? = some i := by
  unfold name
  split
  · next k hk =>
    obtain ⟨hlt, heq, -⟩ := Array.findIdx?_eq_some_iff_getElem.1 hk
    simpa [hlt] using heq
  · simp

theorem scopeNamed_name (a : Attachment) (i : ScopeId) : (a.name i).1.scopeNamed (a.name i).2 = i := by
  simp [scopeNamed, getElem?_named]

theorem named_name (h : a.named[k]? = some j) (i : ScopeId) : (a.name i).1.named[k]? = some j := by
  unfold name
  split
  · exact h
  · have hlt : k < a.named.size := (Array.getElem?_eq_some_iff.1 h).1
    simp [Array.getElem?_push, Nat.ne_of_lt hlt, h]

theorem name_idem (a : Attachment) (i : ScopeId) : (a.name i).1.name i = a.name i := by
  unfold name
  cases h : a.named.findIdx? (· == i) with
  | some k => simp [h]
  | none => simp [h, Array.findIdx?_push]

theorem name_injective (a : Attachment) (i j : ScopeId)
    (h : ((a.name i).1.name j).2 = (a.name i).2) : j = i := by
  have hj := getElem?_named (a.name i).1 j
  rw [h, named_name (getElem?_named a i)] at hj
  exact (Option.some.inj hj).symm

/-! ## Attaching one node -/

/-- **Attaching a node** enters it below its parent, and the node holds the scope that it gets. -/
theorem attach_spec (hc : a.nodes[k]? = some c)
    (henter : a.forest.enterNode c parent.isNone (a.outer parent).scope? = (f, some i, fault)) :
    (a.attach k parent).1.nodes = a.nodes ∧ (a.attach k parent).1.forest = f ∧
      (a.attach k parent).1.held = a.held.setIfInBounds k (.scope i) ∧
      ∀ place, (a.attach k parent).2 = .ok place → (a.attach k parent).1.scopeNamed place = i := by
  unfold attach
  simp only [hc, Option.getD_some, henter]
  cases fault <;> simp [entered, scopeNamed_name]

/-! ## Attaching the nodes of a walk -/

/-- Nodes of which none has been attached. -/
def ofCursors (cs : List Cursor) : Attachment :=
  { nodes := cs.toArray, held := Array.replicate cs.length .nothing }

def parentIn (cs : List Cursor) (c : Cursor) : Option Nat :=
  match c.path with
  | [] => none
  | _ :: up => cs.findIdx? (·.path == up)

/-- Attaches the nodes `before` out of `cs`, each below its parent. -/
def attachAll (cs before : List Cursor) : Attachment :=
  before.zipIdx.foldl (fun a (c, k) => (a.attach k (parentIn cs c)).1) (ofCursors cs)

/-- The nodes that have been attached hold the scopes that they have in the walk. -/
structure Agrees (a : Attachment) (cs before : List Cursor) : Prop where
  nodes : a.nodes = cs.toArray
  size : a.held.size = cs.length
  forest : a.forest = (Scoping.ofNodes before).forest
  held : ∀ (k : Nat) (c : Cursor), before[k]? = some c →
    ∃ i, (Scoping.ofNodes before).at? c.path = some i ∧ a.held[k]? = some (.scope i)

theorem agrees_ofCursors (cs : List Cursor) : (ofCursors cs).Agrees cs [] :=
  ⟨rfl, by simp [ofCursors], rfl, by simp⟩

section
variable {cs before after : List Cursor}

/-- Below the parent of a node stands what the walk has around the node. -/
theorem Agrees.outer (h : a.Agrees (before ++ c :: after) before)
    (hc : Scoping.Follows before c) :
    (a.outer (parentIn (before ++ c :: after) c)).scope? = (Scoping.ofNodes before).outer? c.path ∧
      (parentIn (before ++ c :: after) c).isNone = c.path.isEmpty := by
  unfold parentIn
  rcases hc.parent with hroot | ⟨e, he, slot, hpath⟩
  · simp [hroot, Attachment.outer, Held.scope?, Scoping.outer?]
  · obtain ⟨p, hp⟩ : ∃ p, before.findIdx? (·.path == e.path) = some p := by
      rw [← Option.isSome_iff_exists, List.findIdx?_isSome]
      simpa using ⟨e, he, rfl⟩
    obtain ⟨hlt, hsame, -⟩ := List.findIdx?_eq_some_iff_getElem.1 hp
    obtain ⟨i, hi, hheld⟩ := h.held p _ (List.getElem?_eq_getElem hlt)
    simp only [hpath, List.findIdx?_append, hp, Option.some_or, Attachment.outer, hheld, Scoping.outer?]
    rw [beq_iff_eq] at hsame
    simp [Held.scope?, ← hsame, hi]

/-- The scope that a node enters is the one that it has from then on. -/
theorem enterNode_of_sound {s : Scoping} (hs : s.Sound before) (hc : Scoping.Follows before c) :
    ∃ f i fault, s.forest.enterNode c c.path.isEmpty (s.outer? c.path) = (f, some i, fault) ∧
      (s.enter c).forest = f ∧ (s.enter c).at? c.path = some i := by
  obtain ⟨i, he⟩ := hs.enter_spec hc
  have hat : (s.enter c).at? c.path = some i := by rw [he.at?, if_pos rfl]
  rcases hentered : s.forest.enterNode c c.path.isEmpty (s.outer? c.path) with ⟨f, scope, fault⟩
  cases scope with
  | none =>
    simp only [Scoping.enter, hentered] at hat
    obtain ⟨d, hd, hpath⟩ := hs.known c.path i hat
    exact absurd hpath (hc.new d hd)
  | some j =>
    simp only [Scoping.enter, hentered, Scoping.at?_insert, if_true] at hat ⊢
    exact ⟨f, j, fault, rfl, rfl, rfl⟩

/-- **One node more**, and the nodes still agree. -/
theorem Agrees.attach (h : a.Agrees (before ++ c :: after) before) (hc : Scoping.Follows before c)
    (hs : (Scoping.ofNodes before).Sound before) :
    (a.attach before.length (parentIn (before ++ c :: after) c)).1.Agrees (before ++ c :: after)
      (before ++ [c]) := by
  obtain ⟨f, i, fault, hentered, hforest, hat⟩ := enterNode_of_sound hs hc
  obtain ⟨houter, hroot⟩ := h.outer hc
  rw [← houter, ← hroot, ← h.forest] at hentered
  obtain ⟨hnodes, hf, hheld, -⟩ := attach_spec (k := before.length) (by simp [h.nodes]) hentered
  refine ⟨hnodes.trans h.nodes, by simp [hheld, h.size], ?_, fun k d hk => ?_⟩
  · rw [hf, Scoping.ofNodes_append, hforest]
  · rw [Scoping.ofNodes_append, hheld]
    by_cases hlast : k = before.length
    · subst hlast
      obtain rfl : c = d := by simpa using hk
      exact ⟨i, hat, by simp [h.size]⟩
    · have hlt : k < before.length := by
        have := (List.getElem?_eq_some_iff.1 hk).1
        simp at this
        omega
      rw [List.getElem?_append_left hlt] at hk
      obtain ⟨j, hj, hkeep⟩ := h.held k d hk
      obtain ⟨_, he⟩ := hs.enter_spec hc
      refine ⟨j, (he.at?_of_mem hc (List.mem_of_getElem? hk)).trans hj, ?_⟩
      rw [Array.getElem?_setIfInBounds_ne (Ne.symm hlast), hkeep]

/-- **Attaching along the walk** leads to the scopes of the walk. -/
theorem agrees_attachAll {r : Cursor} (hroot : r.path = []) (hr : r.node.Regular)
    (h : r.preorder = before ++ after) : (attachAll r.preorder before).Agrees r.preorder before := by
  induction before using List.reverseRecOn generalizing after with
  | nil => exact agrees_ofCursors _
  | append_singleton before c ih =>
    rw [List.append_assoc, List.singleton_append] at h
    have hagrees := ih h
    rw [h] at hagrees ⊢
    have hstep := hagrees.attach (Scoping.follows_of_preorder hroot hr h) (Scoping.sound_of_prefix hroot hr h)
    simpa [attachAll, List.zipIdx_append] using hstep

end

end Attachment

/-- **Attaching the nodes of a tree**, in the order of the walk and each below its parent, gives each of
them the scope that it has in the annotation, and binds the same names. -/
theorem attached_as_annotated {source : Text} {window : Window} {tree : Node} {a : Annotated}
    (hregular : tree.Regular) (h : annotate source window tree = .ok a) :
    let cs := (Cursor.root tree).preorder
    (Attachment.attachAll cs cs).forest = a.annotation.forest ∧
      ∀ (k : Nat) (c : Cursor), cs[k]? = some c →
        ∃ i, a.scope? c = some i ∧ (Attachment.attachAll cs cs).held[k]? = some (.scope i) := by
  intro cs
  have hagrees : (Attachment.attachAll cs cs).Agrees cs cs :=
    Attachment.agrees_attachAll (r := .root tree) rfl hregular (List.append_nil _).symm
  have hscoping := scoping_of_ok h
  refine ⟨hagrees.forest.trans (congrArg Scoping.forest hscoping).symm, fun k c hk => ?_⟩
  obtain ⟨i, hi, hheld⟩ := hagrees.held k c hk
  exact ⟨i, (congrArg (·.at? c.path) hscoping).trans hi, hheld⟩

end SyntaxSpans
