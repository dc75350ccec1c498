import SyntaxSpans.Proofs.Exactness
import SyntaxSpans.Proofs.RoundTrip

/-!
# Annotating again

An annotated tree is a fixed point of the annotation. Its nodes rest: they have a text that settling
does not change, or stay without one (`rests_placed`). A walk over such a tree comes to its end and
leaves every node where it is, whatever links, scopes and records there are from an earlier walk
(`pass_of_rests`). Empty fields play no part in this, so it holds as well of the tree that is read from
what was written.
-/

namespace SyntaxSpans

/-! ## Resting nodes -/

/-- The node stands at its final place already. -/
def Locator.Rests (l : Locator) (c : Cursor) : Prop :=
  c.rule = .bare ∨
  ∃ raw, c.node.placement.raw = some raw ∧ l.AtRest c.role raw c.node.placement.toAnchor

namespace Locator

section
variable {l : Locator} {c d : Cursor}

theorem final?_of_rests (h : l.Rests c) : l.final? c = some c.node.placement := by
  rcases h with h | ⟨raw, hraw, h⟩
  · exact final?_bare h
  · rw [final?_own (Cursor.rule_own.2 hraw), settled?_of_atRest h, ← hraw]

/-- A resting node needs no other one. -/
theorem operands_of_rests (h : l.Rests c) : c.operands = [] := by
  rcases h with h | ⟨raw, hraw, -⟩
  · exact Cursor.operands_bare h
  · exact Cursor.operands_own (Cursor.rule_own.2 hraw)

theorem eq_of_draws (h : l.Rests c) (hd : c.Draws d) : d = c := by
  induction hd with
  | refl => rfl
  | down _ he ih =>
    subst ih
    rw [operands_of_rests h] at he
    cases he

theorem Rests.congr (h : l.Rests c) (hkind : d.kind = c.kind) (hpath : d.path = c.path)
    (hparent : d.parentKind = c.parentKind) (hplace : d.node.placement = c.node.placement) :
    l.Rests d := by
  have hin : ∀ name, d.isIn name = c.isIn name := fun name => by
    rw [Cursor.isIn, hpath]; rfl
  rcases h with h | ⟨raw, hraw, h⟩
  · left
    rw [Cursor.rule_bare] at h ⊢
    rw [Cursor.isImplicit, Cursor.isLoopGuard, hplace, hkind, hin, hparent]
    exact h
  · right
    refine ⟨raw, hplace ▸ hraw, ?_⟩
    have hrole : d.role = c.role := by rw [Cursor.role, hkind, hin]; rfl
    rw [hrole, hplace]
    exact h

end

end Locator

/-- **An annotated tree rests.** -/
theorem rests_placed {source : Text} {window : Window} {tree : Node} {a : Annotated} {c : Cursor}
    (h : annotate source window tree = .ok a) (hc : c ∈ (Cursor.root tree).preorder) :
    (Locator.ofSource source window).Rests (a.annotation.progress.placed c) := by
  rcases settles_of_final? (final?_mark h hc) with ⟨hbare, hq⟩ | ⟨text, raw, -, hraw, hs⟩
  · refine Locator.Rests.congr (Or.inl hbare) ?_ rfl rfl ?_
    · exact Progress.kind_placed _ c
    · rw [Progress.placement_placed, hq]
  · refine Or.inr ⟨raw, ?_, ?_⟩
    · rw [Progress.placement_placed, hraw]
    · have hrole : (a.annotation.progress.placed c).role = c.role := by
        rw [Cursor.role, Progress.kind_placed]; rfl
      rw [hrole, Progress.placement_placed]
      exact hs.atRest

/-! ## A walk over a resting tree -/

/-- A value whose nodes keep their labels stays as it is. -/
theorem relabelIn_eq_self (f : Relabelling) (v : Value) (path : Path) (name : String)
    (index : List Nat)
    (h : ∀ p ∈ v.nodesAt index, p.2.relabelAt f (⟨name, p.1⟩ :: path) = p.2) :
    v.relabelIn f path name index = v := by
  rw [relabelIn_eq_mapNodes]
  exact (mapNodes_congr v index h).trans (mapNodes_id v index)

/-- A regular tree whose nodes keep their labels stays as it is. -/
theorem relabelled_eq_self {f : Relabelling} {c : Cursor} (hc : c.node.Regular)
    (h : ∀ d, c.Contains d → f d.path (d.kind, d.node.placement) = (d.kind, d.node.placement)) :
    c.node.relabelAt f c.path = c.node := by
  rw [relabelled_congr (g := fun _ label => label) hc h, Node.relabelAt_id]

namespace Progress

theorem labels_eq_self {p : Progress} {c : Cursor} (h : (p.mark c).placement = c.node.placement) :
    p.labels c.path (c.kind, c.node.placement) = (c.kind, c.node.placement) := by
  rw [labels_mark, h]

theorem place_congr {p q : Progress} {tree : Node} (htree : tree.Regular)
    (h : ∀ d, (Cursor.root tree).Contains d → (p.mark d).placement = (q.mark d).placement) :
    p.place tree = q.place tree :=
  relabelled_congr (f := p.labels) (g := q.labels) (c := .root tree) htree fun d hd => by
    rw [labels_mark, labels_mark, h d hd]

/-- A resolution that leaves all nodes of a regular tree where they are leaves the tree as it is. -/
theorem place_eq_self {p : Progress} {tree : Node} (htree : tree.Regular)
    (h : ∀ d, (Cursor.root tree).Contains d → (p.mark d).placement = d.node.placement) :
    p.place tree = tree := by
  exact relabelled_eq_self (c := .root tree) htree fun d hd => labels_eq_self (h d hd)

end Progress

namespace Annotation

/-- **A walk over a resting tree** comes to its end and leaves all nodes where they are. -/
theorem pass_of_rests {l : Locator} {tree : Node} {a : Annotation} (htree : tree.Regular)
    (ha : a.progress.Midway l (.root tree) [])
    (h : ∀ c ∈ (Cursor.root tree).preorder, l.Rests c ∧ c.introduced.fault = none) :
    ∃ b, pass l tree a = .ok () b ∧ b.progress.place tree = tree := by
  obtain ⟨b, hb⟩ := (pass_ok_iff ha).2 fun c hc =>
    ⟨by rw [Locator.final?_of_rests (h c hc).1]; simp, (h c hc).2⟩
  have hcompletes := completes_of_pass ha hb
  refine ⟨b, hb, Progress.place_eq_self htree fun d hd => ?_⟩
  by_cases hdraw : ∃ c ∈ (Cursor.root tree).preorder, c.Draws d
  · have hfinal := hcompletes.drawn d hd hdraw
    obtain ⟨c, hc, hdraw⟩ := hdraw
    obtain rfl := Locator.eq_of_draws (h c hc).1 hdraw
    rw [Locator.final?_of_rests (h d hc).1] at hfinal
    exact (Option.some.inj hfinal).symm
  · exact hcompletes.rest d hd hdraw

/-- The annotation as another walk over the same tree finds it: the links and scopes are there still,
but nothing counts as resolved. -/
def reopened (a : Annotation) : Annotation :=
  { a with
    progress := { marks := a.progress.marks.map fun _ m => { m with resolved := false } }
    visited := 0 }

/-- In the placed tree, another walk begins with every node where it stands. -/
theorem midway_reopened (l : Locator) (a : Annotation) (tree : Node) :
    a.reopened.progress.Midway l (.root (a.progress.place tree)) [] := by
  have hcontains : ∀ d, (Cursor.root (a.progress.place tree)).Contains d →
      ∃ c, a.progress.placed c = d := by
    intro d hd
    induction hd with
    | refl => exact ⟨.root tree, rfl⟩
    | down _ he ih =>
      obtain ⟨c, rfl⟩ := ih
      rw [Progress.placed, (Cursor.exchanges_relabelled a.progress.kind_labels c _).nodesIn] at he
      obtain ⟨e, -, rfl⟩ := List.mem_map.1 he
      exact ⟨e, rfl⟩
  refine .start fun d hd => ?_
  obtain ⟨c, rfl⟩ := hcontains d hd
  rw [Progress.placement_placed]
  unfold reopened Progress.mark
  simp only [Progress.path_placed, Std.TreeMap.getElem?_map]
  cases hm : a.progress.marks[c.path]? with
  | none => simp [Progress.mark, hm]
  | some m => simp

end Annotation

/-! ## Fixed points -/

/-- Annotates an annotated tree another time. -/
def Annotated.again (a : Annotated) (source : Text) (window : Window) : Except Fault Annotated :=
  match Annotation.pass (.ofSource source window) a.tree a.annotation.reopened with
  | .ok () b => .ok ⟨b.progress.place a.tree, b⟩
  | .error fault _ => .error fault

section
variable {source : Text} {window : Window} {tree : Node} {a : Annotated}

/-- The walk over an annotated tree meets resting nodes with sound patterns only. -/
theorem rests_annotated (h : annotate source window tree = .ok a) :
    ∀ c ∈ (Cursor.root a.tree).preorder,
      (Locator.ofSource source window).Rests c ∧ c.introduced.fault = none := by
  intro c' hc'
  rw [show (Cursor.root a.tree).preorder = a.nodes from rfl, nodes_eq h] at hc'
  obtain ⟨c, hc, rfl⟩ := List.mem_map.1 hc'
  refine ⟨rests_placed h hc, ?_⟩
  rw [(Progress.mirror_placed _).introduced_fault trivial]
  exact (annotate_ok_iff.1 ⟨a, h⟩ c hc).2

theorem rests_pruned (h : annotate source window tree = .ok a) (ha : a.tree.Regular) :
    ∀ c ∈ (Cursor.root a.tree.prune).preorder,
      (Locator.ofSource source window).Rests c ∧ c.introduced.fault = none := by
  intro c' hc'
  have hmirror := Cursor.mirror_pruned.preorder_map (c := .root a.tree) ha
  rw [show Cursor.root a.tree.prune = (Cursor.root a.tree).pruned from rfl, hmirror] at hc'
  obtain ⟨c, hc, rfl⟩ := List.mem_map.1 hc'
  have hregular : c.node.Regular := (Cursor.contains_of_mem_preorder hc).forall ha
  obtain ⟨hrests, hsound⟩ := rests_annotated h c hc
  refine ⟨hrests.congr (Cursor.kind_pruned c) rfl rfl (Node.placement_prune _), ?_⟩
  rw [Cursor.mirror_pruned.introduced_fault hregular]
  exact hsound

/-- Annotating leaves the shape of a tree alone. -/
theorem forall_annotated {names : List String → Prop} {data : Value → Prop}
    (h : annotate source window tree = .ok a) (htree : tree.Forall names data) :
    a.tree.Forall names data := by
  rw [(annotate_ok.1 h).2]
  exact Node.forall_relabelAt _ tree [] htree

/-- **An annotated tree is a fixed point** of the annotation. Annotating it again, as it is or read from
what was written, leaves every node as it is. It can be written unless it is too deep. -/
theorem annotate_fixpoint {j : Json} (hj : j.Distinct) (htree : Node.ofJson j = .ok tree)
    (hfinite : tree.Finite) (h : annotate source window tree = .ok a) :
    (∃ b, a.again source window = .ok b ∧ b.tree = a.tree) ∧
    (tree.dumpLevels ≤ Dump.maxLevels → ∃ d again b, a.tree.write = .ok d ∧
      Node.ofJson d = .ok again ∧ annotate source window again = .ok b ∧ b.tree.write = .ok d) := by
  have hregular : a.tree.Regular := forall_annotated h (regular_of_ofJson hj htree)
  refine ⟨?_, fun hlevels => ?_⟩
  · have hstart := Annotation.midway_reopened (.ofSource source window) a.annotation tree
    rw [← (annotate_ok.1 h).2] at hstart
    obtain ⟨b, hb, hplace⟩ := Annotation.pass_of_rests hregular hstart (rests_annotated h)
    exact ⟨⟨b.progress.place a.tree, b⟩, by rw [Annotated.again, hb], hplace⟩
  · have hwrite : a.tree.write = .ok a.tree.dump := by
      rw [Node.write, if_pos]
      rwa [(annotate_ok.1 h).2, Progress.place_eq, dumpLevels_relabel]
    have hstart := Annotation.midway_start (.ofSource source window) a.tree.prune
    obtain ⟨b, hb, hplace⟩ := Annotation.pass_of_rests (regular_prune hregular) hstart
      (rests_pruned h hregular)
    refine ⟨a.tree.dump, a.tree.prune, ⟨b.progress.place a.tree.prune, b⟩, hwrite,
      ofJson_dump hregular (forall_annotated h hfinite), annotate_ok.2 ⟨hb, rfl⟩, ?_⟩
    rw [hplace, write_prune, hwrite]

end

theorem distinct_sum : (Node.sum).dump.Distinct :=
  have names : ["type", "raw", "line", "column"].Nodup := by decide
  ⟨by decide, trivial, ⟨names, trivial, trivial, trivial, trivial, trivial⟩,
    ⟨names, trivial, trivial, trivial, trivial, trivial⟩, trivial⟩

/-- A sum is read, annotated, annotated again, written, read and annotated once more. -/
theorem annotate_fixpoint_sum : ∃ a, annotate ['a', '+', 'b'] .standard .sum = .ok a ∧
    (∃ b, a.again ['a', '+', 'b'] .standard = .ok b ∧ b.tree = a.tree) ∧
    ∃ d again b, a.tree.write = .ok d ∧ Node.ofJson d = .ok again ∧
      annotate ['a', '+', 'b'] .standard again = .ok b ∧ b.tree.write = .ok d := by
  obtain ⟨a, ha⟩ := annotate_sum
  have hfinite : (Node.sum).Finite := ⟨trivial, ⟨trivial, trivial⟩, ⟨trivial, trivial⟩, trivial⟩
  obtain ⟨hagain, hwritten⟩ := annotate_fixpoint distinct_sum rfl hfinite ha
  exact ⟨a, ha, hagain, hwritten (by decide)⟩

/-! ## A tree that is too deep -/

/-- `n` operators around a name. -/
def Node.nested : Nat → Node
  | 0 => .identifier 'a' 1
  | n + 1 =>
    .mk "Return" { raw := some ['a'], line := some 1, column := some 1 }
      [("expression", .node (nested n))]

theorem regular_nested (n : Nat) : (Node.nested n).Regular := by
  have names : Node.ProperNames ["expression"] := ⟨by decide, by decide⟩
  induction n with
  | zero => exact ⟨⟨by decide, fun _ h => nomatch h⟩, trivial⟩
  | succ n ih => exact ⟨names, ih, trivial⟩

theorem finite_nested (n : Nat) : (Node.nested n).Finite := by
  induction n with
  | zero => exact ⟨trivial, trivial⟩
  | succ n ih => exact ⟨trivial, ih, trivial⟩

theorem prune_nested (n : Nat) : (Node.nested n).prune = Node.nested n := by
  induction n with
  | zero => rfl
  | succ n ih =>
    rw [Node.nested, Node.prune, Node.pruneFields, isNull_node, Value.prune, ih]
    rfl

theorem distinct_nested (n : Nat) : (Node.nested n).dump.Distinct := by
  have leaf : ["type", "raw", "line", "column"].Nodup := by decide
  have names : ["type", "raw", "line", "column", "expression"].Nodup := by decide
  induction n with
  | zero => exact ⟨leaf, trivial, trivial, trivial, trivial, trivial⟩
  | succ n ih => exact ⟨names, trivial, trivial, trivial, trivial, ih, trivial⟩

theorem dumpLevels_nested (n : Nat) : (Node.nested n).dumpLevels = 1 + 2 * n := by
  have hlevels : Dump.nodeLevels (Node.nested n) = 2 * n := by
    induction n with
    | zero => rfl
    | succ n ih =>
      rw [Node.nested, Dump.nodeLevels, fieldLevels_cons, isNull_node, Dump.valueLevels, ih,
        Dump.fieldLevels, if_neg Bool.false_ne_true]
      omega
  rw [Node.dumpLevels, hlevels]

theorem nested_of_mem_preorder (n : Nat) {c d : Cursor} (hc : c.node = .nested n)
    (hd : d ∈ c.preorder) : ∃ m, d.node = .nested m := by
  induction n generalizing c with
  | zero =>
    obtain ⟨_, path, parentKind⟩ := c
    obtain rfl := hc
    rw [Cursor.preorder_leaf rfl] at hd
    exact ⟨0, by rw [List.mem_singleton.1 hd]⟩
  | succ n ih =>
    obtain ⟨_, path, parentKind⟩ := c
    obtain rfl := hc
    rw [Cursor.preorder_eq, List.mem_cons] at hd
    rcases hd with rfl | hd
    · exact ⟨n + 1, rfl⟩
    · obtain ⟨e, he, hd⟩ := List.mem_flatMap.1 hd
      obtain rfl := List.mem_singleton.1 he
      exact ih rfl hd

/-- All nodes stand at the beginning of the source, so the tree can be annotated. -/
theorem annotate_nested (n : Nat) : ∃ a, annotate ['a'] .standard (.nested n) = .ok a := by
  rw [annotate_ok_iff]
  intro c hc
  obtain ⟨m, hm⟩ := nested_of_mem_preorder n rfl hc
  obtain ⟨_, path, parentKind⟩ := c
  obtain rfl := hm
  have hsettled : ∀ kind isStep, kind = "Identifier" ∨ kind = "Return" →
      (Locator.ofSource ['a'] .standard).settled? ⟨kind, isStep⟩
        (['a'], { line := some 1, column := some 1 }) ≠ none := by
    rintro kind isStep (rfl | rfl) <;> cases isStep <;> decide +kernel
  cases m with
  | zero =>
    refine ⟨?_, rfl⟩
    rw [Locator.final?_own (Cursor.rule_own.2 rfl)]
    exact hsettled _ _ (Or.inl rfl)
  | succ m =>
    refine ⟨?_, rfl⟩
    rw [Locator.final?_own (Cursor.rule_own.2 rfl)]
    exact hsettled _ _ (Or.inr rfl)

/-- A tree may be too deep to be written, and is annotated all the same. -/
theorem nested_not_written : (Node.nested 128).dump.Distinct ∧
    Node.ofJson (Node.nested 128).dump = .ok (.nested 128) ∧ (Node.nested 128).Finite ∧
    ∃ a, annotate ['a'] .standard (.nested 128) = .ok a ∧ a.tree.write = .error .tooDeep := by
  refine ⟨distinct_nested 128, ?_, finite_nested 128, ?_⟩
  · rw [ofJson_dump (regular_nested 128) (finite_nested 128), prune_nested]
  · obtain ⟨a, ha⟩ := annotate_nested 128
    refine ⟨a, ha, ?_⟩
    rw [Node.write, if_neg]
    rw [(annotate_ok.1 ha).2, Progress.place_eq, dumpLevels_relabel, dumpLevels_nested]
    decide

end SyntaxSpans
