import SyntaxSpans.Proofs.Placed
import SyntaxSpans.Proofs.WalkFault

/-!
# The order of resolution

The nodes that the walk visits may be resolved in any order and any number of times, from the
beginning, all parent links being set: what one order places, every order places, and at the same
places. The annotation, which links nodes as it goes, places them there as well. Apart from that it
ends in a fault only at a node whose pattern binds no names.
-/

namespace SyntaxSpans

namespace Session

open Progress

section
variable {l : Locator} {tree : Node} {cs : List Cursor}

/-- **What a schedule of walked nodes does** to a session: it comes to its end if its nodes have final
places, and then they stand there. -/
theorem resolveAll_outcome (hcs : ∀ c ∈ cs, c ∈ (Cursor.root tree).preorder) :
    (((linked l tree).resolveAll cs).2 = .ok () ↔ ∀ c ∈ cs, l.final? c ≠ none) ∧
    (((linked l tree).resolveAll cs).2 = .ok () →
      Completes l (.root tree) cs ((linked l tree).resolveAll cs).1.progress) := by
  obtain ⟨hfresh, hlinked⟩ := linked_progress l tree
  have hr : ∀ c ∈ cs, (Cursor.root tree).Contains c :=
    fun c hc => Cursor.contains_of_mem_preorder (hcs c hc)
  have hrun := Midway.resolveAll hr (fun c hc => hlinked c (hcs c hc)) (.start (l := l) hfresh)
  unfold resolveAll Session.run
  rw [locator_linked]
  split
  · next u p hp =>
    have hmid := hrun.of_ok hp
    exact ⟨⟨fun _ c hc => hmid.final_ne_none hr hc, fun _ => rfl⟩, fun _ => hmid.completes hr⟩
  · next e p hp =>
    obtain ⟨c, hc, hf⟩ := hrun.of_error hp
    refine ⟨⟨fun h => ?_, fun h => absurd hf (h c hc)⟩, fun h => ?_⟩ <;> cases h

end

end Session

/-- Two resolutions have left every node of a tree at the same place. -/
def Progress.Agree (tree : Node) (p q : Progress) : Prop :=
  ∀ d, (Cursor.root tree).Contains d → (p.mark d).placement = (q.mark d).placement

section
variable {source : Text} {window : Window} {tree : Node}

theorem placements_nodes {a : Annotated} (h : annotate source window tree = .ok a) :
    a.nodes.map (·.node.placement) =
      (Cursor.root tree).preorder.map fun c => (a.annotation.progress.mark c).placement := by
  rw [nodes_eq h, List.map_map]
  exact List.map_congr_left fun c _ => Progress.placement_placed _ c

/-- **The order of resolution does not matter**, and the annotation places what any order places. The
annotation also binds names, so it needs sound patterns beside. -/
theorem order_independent (source : Text) (window : Window) (tree : Node) (first second : List Cursor)
    (hfirst : ∀ c, c ∈ first ↔ c ∈ (Cursor.root tree).preorder)
    (hsecond : ∀ c, c ∈ second ↔ c ∈ (Cursor.root tree).preorder) :
    let start := Session.linked (.ofSource source window) tree
    let one := start.resolveAll first
    let other := start.resolveAll second
    (one.2 = .ok () ↔ other.2 = .ok ()) ∧
    (one.2 = .ok () → one.1.progress.Agree tree other.1.progress) ∧
    ((∃ a, annotate source window tree = .ok a) ↔
      one.2 = .ok () ∧ ∀ c ∈ (Cursor.root tree).preorder, c.introduced.fault = none) ∧
    ∀ a, annotate source window tree = .ok a →
      a.annotation.progress.Agree tree one.1.progress ∧
      a.nodes.map (·.node.placement) =
        (Cursor.root tree).preorder.map fun c => (one.1.progress.mark c).placement := by
  intro start one other
  obtain ⟨hone, hcompletes⟩ :=
    Session.resolveAll_outcome (l := .ofSource source window) fun c hc => (hfirst c).1 hc
  obtain ⟨hother, hcompletes'⟩ :=
    Session.resolveAll_outcome (l := .ofSource source window) fun c hc => (hsecond c).1 hc
  have hiff : one.2 = .ok () ↔ other.2 = .ok () := by
    rw [hone, hother]
    simp only [hfirst, hsecond]
  have hannotate : (∃ a, annotate source window tree = .ok a) ↔
      one.2 = .ok () ∧ ∀ c ∈ (Cursor.root tree).preorder, c.introduced.fault = none := by
    rw [annotate_ok_iff, hone]
    simp only [hfirst]
    exact ⟨fun h => ⟨fun c hc => (h c hc).1, fun c hc => (h c hc).2⟩,
      fun h c hc => ⟨h.1 c hc, h.2 c hc⟩⟩
  refine ⟨hiff, fun hok d hd => ?_, hannotate, fun a ha => ?_⟩
  · exact (hcompletes hok).unique (hcompletes' (hiff.1 hok))
      (fun c => (hfirst c).trans (hsecond c).symm) hd
  · have hok := (hannotate.1 ⟨a, ha⟩).1
    have hagree : a.annotation.progress.Agree tree one.1.progress := fun d hd =>
      (annotate_completes ha).unique (hcompletes hok) (fun c => (hfirst c).symm) hd
    refine ⟨hagree, ?_⟩
    rw [placements_nodes ha]
    exact List.map_congr_left fun c hc => hagree c (Cursor.contains_of_mem_preorder hc)

end

/-- The walk may go backwards over a sum, whose operands have to be found first. -/
theorem sum_backwards :
    let start := Session.linked (.ofSource ['a', '+', 'b'] .standard) .sum
    let walked := (Cursor.root .sum).preorder
    (start.resolveAll walked).2 = .ok () ∧ (start.resolveAll walked.reverse).2 = .ok () ∧
      (start.resolveAll walked).1.progress.Agree .sum (start.resolveAll walked.reverse).1.progress := by
  intro start walked
  obtain ⟨hiff, hagree, hannotate, -⟩ := order_independent ['a', '+', 'b'] .standard .sum walked
    walked.reverse (fun _ => Iff.rfl) (fun _ => List.mem_reverse)
  have hok := (hannotate.1 annotate_sum).1
  exact ⟨hok, hiff.1 hok, hagree hok⟩

def Node.textualParameter : Node :=
  .mk "Function" { raw := some ['a'], line := some 1, column := some 1 }
    [("parameters", .list [.scalar (.str "x")])]

/-- Its only node can be resolved, but the text is no pattern, so there is no annotation. -/
theorem resolved_not_annotated :
    ((Session.linked (.ofSource ['a'] .standard) .textualParameter).resolveAll
      (Cursor.root .textualParameter).preorder).2 = .ok () ∧
    annotate ['a'] .standard .textualParameter = .error .notNode := by
  refine ⟨?_, annotate_unsound_root rfl⟩
  rw [(Session.resolveAll_outcome fun c hc => hc).1, Cursor.preorder_leaf rfl]
  simp only [List.forall_mem_singleton]
  decide +kernel

end SyntaxSpans
