import SyntaxSpans.Proofs.Placed
import SyntaxSpans.Proofs.Settling

/-!
# Exact spans

In an annotated tree the span of every node that the walk visits reads the node's text. Three kinds of
nodes are exempt, and the annotation leaves all of them alone: a concatenation without a span, the
condition of a loop without text, and a `step`.
-/

namespace SyntaxSpans

/-- The nodes that an annotation may leave without an exact span. -/
def Cursor.Exempt (c : Cursor) : Prop :=
  (c.kind = "ConcatOp" ∧ c.node.placement.span = none) ∨
  (c.isLoopGuard = true ∧ c.node.placement.raw = none) ∨ c.isIn "step" = true

instance (c : Cursor) : Decidable c.Exempt :=
  inferInstanceAs (Decidable (_ ∨ _ ∨ _))

section
variable {l : Locator} {c : Cursor}

/-- **Where a node ends up** is where its given text is settled, unless it stays without text. -/
theorem settles_of_final? {q : Placement} (h : l.final? c = some q) :
    (c.rule = .bare ∧ q = c.node.placement) ∨
    ∃ text raw, l.given? c = some text ∧ q.raw = some raw ∧
      l.Settles c.role text.1 text.2 raw q.toAnchor := by
  by_cases hbare : c.rule = .bare
  · rw [Locator.final?_bare hbare] at h
    exact Or.inl ⟨hbare, (Option.some.inj h).symm⟩
  · rw [Locator.final?_of_not_bare hbare, Option.bind_eq_some_iff] at h
    obtain ⟨text, hgiven, hsettled⟩ := h
    obtain ⟨raw, hraw, hsettles⟩ := Locator.settles_of_settled? hsettled
    exact Or.inr ⟨text, raw, hgiven, hraw, hsettles⟩

end

section
variable {source : Text} {window : Window} {tree : Node} {a : Annotated} {c : Cursor}

theorem final?_mark (h : annotate source window tree = .ok a)
    (hc : c ∈ (Cursor.root tree).preorder) :
    (Locator.ofSource source window).final? c =
      some (a.annotation.progress.mark c).placement :=
  (annotate_completes h).drawn c (Cursor.contains_of_mem_preorder hc) ⟨c, hc, .refl⟩

theorem annotate_leaf (source : Text) (window : Window) (tree : Node) {q : Placement}
    (hleaf : (Cursor.root tree).children = []) (hsound : (Cursor.root tree).introduced.fault = none)
    (hfinal : (Locator.ofSource source window).final? (.root tree) = some q) :
    ∃ a c, annotate source window tree = .ok a ∧ a.nodes = [c] ∧ c.node.placement = q ∧
      c.path = [] := by
  have hpre := Cursor.preorder_leaf hleaf
  have hok : ∃ a, annotate source window tree = .ok a := by
    rw [annotate_ok_iff, hpre, List.forall_mem_singleton, hfinal]
    exact ⟨by simp, hsound⟩
  obtain ⟨a, ha⟩ := hok
  refine ⟨a, a.annotation.progress.placed (.root tree), ha, by rw [nodes_eq ha, hpre]; rfl, ?_, rfl⟩
  rw [Progress.placement_placed]
  exact Option.some.inj ((final?_mark ha (by simp)).symm.trans hfinal)

/-- A node that is not exempt has had a text settled, and its span reads what came of it. -/
theorem settles_of_not_exempt (h : annotate source window tree = .ok a)
    (hc : c ∈ (Cursor.root tree).preorder) (hx : ¬ (a.annotation.progress.placed c).Exempt) :
    ∃ text raw, (Locator.ofSource source window).given? c = some text ∧
      (a.annotation.progress.mark c).placement.raw = some raw ∧
      (Locator.ofSource source window).Settles c.role text.1 text.2 raw
        (a.annotation.progress.mark c).placement.toAnchor ∧
      (Locator.ofSource source window).reads (a.annotation.progress.mark c).placement.span raw := by
  have hplace := Progress.placement_placed a.annotation.progress c
  rcases settles_of_final? (final?_mark h hc) with ⟨hbare, hq⟩ | ⟨text, raw, hgiven, hraw, hs⟩
  · obtain ⟨hraw, himplicit | hguard⟩ := Cursor.rule_bare.1 hbare
    · simp only [Cursor.isImplicit, Bool.and_eq_true, Option.isNone_iff_eq_none, beq_iff_eq]
        at himplicit
      refine absurd (Or.inl ⟨?_, ?_⟩) hx
      · rw [Progress.kind_placed]; exact himplicit.2
      · rw [hplace, hq]; exact himplicit.1
    · refine absurd (Or.inr (Or.inl ⟨hguard, ?_⟩)) hx
      rw [hplace, hq]; exact hraw
  · refine ⟨text, raw, hgiven, hraw, hs, ?_⟩
    cases hs.atRest with
    | skipped hspan hkind =>
      refine absurd (Or.inl ⟨?_, ?_⟩) hx
      · rw [Progress.kind_placed]; exact hkind
      · rw [hplace]; exact hspan
    | exact hreads _ => exact hreads
    | step hstep _ _ => exact absurd (Or.inr (Or.inr hstep)) hx

/-- **Exact spans**: in an annotated tree every visited node that is not exempt has a text and a span,
and the span reads the text in the source. -/
theorem spans_exact (h : annotate source window tree = .ok a) :
    ∀ c ∈ a.nodes, ¬ c.Exempt → ∃ raw span, c.node.placement.raw = some raw ∧
      c.node.placement.span = some span ∧ span.read source = raw := by
  intro c' hc' hx
  rw [nodes_eq h] at hc'
  obtain ⟨c, hc, rfl⟩ := List.mem_map.1 hc'
  obtain ⟨text, raw, -, hraw, -, hreads⟩ := settles_of_not_exempt h hc hx
  obtain ⟨span, hspan, hread⟩ := Locator.span_of_reads hreads
  rw [Progress.placement_placed]
  exact ⟨raw, span, hraw, hspan, hread⟩

/-- The spans of an annotated sum are exact. -/
theorem spans_exact_sum : ∃ a, annotate ['a', '+', 'b'] .standard .sum = .ok a ∧
    ∀ c ∈ a.nodes, ¬ c.Exempt → ∃ raw span, c.node.placement.raw = some raw ∧
      c.node.placement.span = some span ∧ span.read ['a', '+', 'b'] = raw := by
  obtain ⟨a, ha⟩ := annotate_sum
  exact ⟨a, ha, spans_exact ha⟩

end

end SyntaxSpans
