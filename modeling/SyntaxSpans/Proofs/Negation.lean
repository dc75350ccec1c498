import SyntaxSpans.Proofs.Exactness

/-!
# Negated conditions

A negation that is the condition of a conditional has no text of its own and takes the place of what it
negates. That place is settled a second time, as the place of the negation. The second time changes
nothing: a text that has been settled and has a span stands where its span says, with no parentheses
left to take off, and this does not depend on whose text it is (`AtRest.of_spanned`).
-/

namespace SyntaxSpans

namespace Locator

section
variable {l : Locator} {role role' : Role} {raw : Text} {a : Anchor} {c d : Cursor} {q : Placement}

/-- What is at rest with a span is at rest for every role, apart from a `step`, which may rest where it
does not stand. -/
theorem AtRest.of_spanned (h : l.AtRest role raw a) (hspan : a.span ≠ none)
    (hstep : role.isStep = false) : l.AtRest role' raw a := by
  cases h with
  | skipped hnone _ => exact absurd hnone hspan
  | exact hreads hstrip => exact .exact hreads hstrip
  | step htrue _ _ =>
    rw [hstep] at htrue
    cases htrue

/-- A negated condition ends up where its operand does, if that is a place with a span. -/
theorem final?_negation_of_spanned (hr : c.rule = .negation d) (hc : l.final? c ≠ none)
    (hd : l.final? d = some q) (hspan : q.span ≠ none) : l.final? c = some q := by
  rw [final?_negation hr, hd, Option.bind_some] at hc ⊢
  have hstep : d.role.isStep = false := by
    simp [Cursor.role, Cursor.isIn, Cursor.path_of_child? (Cursor.child_of_negation hr)]
  rcases settles_of_final? hd with ⟨hbare, rfl⟩ | ⟨text, raw, -, hraw, hsettles⟩
  · -- an operand that stays without text leaves the negation without one
    rw [Placement.text?, (Cursor.rule_bare.1 hbare).1] at hc
    exact absurd rfl hc
  · have hrest : l.AtRest c.role raw q.toAnchor := hsettles.atRest.of_spanned hspan hstep
    rw [Placement.text?, hraw, Option.map_some, Option.bind_some, settled?_of_atRest hrest, ← hraw]

end

end Locator

namespace Cursor

section
variable {c : Cursor} (hkind : c.kind = "LogicalNotOp") (hin : c.isIn "condition" = true)
  (hparent : c.parentKind = some "Conditional") (hraw : c.node.placement.raw = none)
include hkind hin hparent hraw

/-- A negated condition without text takes its place from its operand, or there is no rule for it. -/
theorem rule_of_negatedGuard :
    c.rule = match c.child? "expression" with
      | some d => .negation d
      | none => .stuck := by
  have himplicit : c.isImplicit = false := by simp [isImplicit, hkind]
  have hloop : c.isLoopGuard = false := by simp [isLoopGuard, hparent]
  have hguard : c.isNegatedGuard = true := by simp [isNegatedGuard, hkind, hin, hparent]
  rw [rule, hraw, himplicit, hloop, hguard]
  rfl

end

theorem mem_children_of_expression {c d : Cursor} (hkind : c.kind = "LogicalNotOp")
    (hd : c.child? "expression" = some d) : d ∈ c.children := by
  have hfields : c.node.childFields = ["expression"] := by
    rw [Node.childFields, show c.node.kind = "LogicalNotOp" from hkind]
    rfl
  rw [children, hfields, List.flatMap_singleton]
  exact mem_nodesIn_of_child? hd

end Cursor

section
variable {source : Text} {window : Window} {tree : Node} {a : Annotated}

/-- **A negated condition coincides with its operand.** In an annotated tree a negation that was
reported without text as the condition of a conditional has an operand, and stands just where the
operand does, if that ends up with a span. -/
theorem negation_coincides (h : annotate source window tree = .ok a) :
    ∀ c ∈ (Cursor.root tree).preorder, c.kind = "LogicalNotOp" → c.isIn "condition" = true →
      c.parentKind = some "Conditional" → c.node.placement.raw = none →
      let c' := a.annotation.progress.placed c
      c' ∈ a.nodes ∧ ∃ d' ∈ a.nodes, c'.child? "expression" = some d' ∧
        (d'.node.placement.span ≠ none → c'.node.placement = d'.node.placement) := by
  intro c hc hkind hin hparent hraw c'
  have hmirror := Progress.mirror_placed a.annotation.progress
  have hrule := Cursor.rule_of_negatedGuard hkind hin hparent hraw
  have hfinal := final?_mark h hc
  cases hchild : c.child? "expression" with
  | none =>
    rw [hchild] at hrule
    rw [Locator.final?_stuck hrule] at hfinal
    cases hfinal
  | some d =>
    rw [hchild] at hrule
    have hd : d ∈ (Cursor.root tree).preorder :=
      Cursor.mem_preorder_trans hc
        (Cursor.mem_preorder_of_mem_children (Cursor.mem_children_of_expression hkind hchild))
    rw [nodes_eq h]
    refine ⟨List.mem_map_of_mem hc, _, List.mem_map_of_mem hd, ?_, fun hspan => ?_⟩
    · rw [hmirror.child? trivial, hchild]
      rfl
    · rw [Progress.placement_placed] at hspan
      rw [Progress.placement_placed, Progress.placement_placed]
      have hplace := Locator.final?_negation_of_spanned hrule (by rw [hfinal]; simp)
        (final?_mark h hd) hspan
      exact Option.some.inj (hfinal.symm.trans hplace)

end

/-- A name that was reported with the parentheses around it. -/
def Node.wrapped : Node :=
  .mk "Identifier" { raw := some ['(', 'x', ')'], line := some 1, column := some 8 } []

def Node.negation : Node := .mk "LogicalNotOp" {} [("expression", .node .wrapped)]

def Text.ifNot : Text := ['i', 'f', ' ', 'n', 'o', 't', ' ', '(', 'x', ')']

def Node.ifNot : Node :=
  .mk "Conditional" { raw := some .ifNot, line := some 1, column := some 1 }
    [("condition", .node .negation)]

/-- The negation comes to stand where the name does, which has lost its parentheses. -/
theorem negation_coincides_ifNot :
    ∃ a, annotate .ifNot .standard .ifNot = .ok a ∧
      ∃ c' ∈ a.nodes, ∃ d' ∈ a.nodes, c'.kind = "LogicalNotOp" ∧ c'.child? "expression" = some d' ∧
        d'.node.placement.span = some ⟨8, 9⟩ ∧ c'.node.placement = d'.node.placement := by
  let negation : Cursor := ⟨.negation, [⟨"condition", []⟩], some "Conditional"⟩
  let name : Cursor := ⟨.wrapped, [⟨"expression", []⟩, ⟨"condition", []⟩], some "LogicalNotOp"⟩
  have hpre : (Cursor.root .ifNot).preorder = [.root .ifNot, negation, name] := by
    rw [Cursor.preorder_eq, show (Cursor.root .ifNot).children = [negation] from rfl,
      List.flatMap_singleton, Cursor.preorder_of_leaves (by decide)]
    rfl
  have hok : ∃ a, annotate .ifNot .standard .ifNot = .ok a := by
    rw [annotate_ok_iff, hpre]
    simp only [List.forall_mem_cons]
    refine ⟨⟨?_, rfl⟩, ⟨?_, rfl⟩, ⟨?_, rfl⟩, by simp⟩ <;>
      decide +kernel
  obtain ⟨a, ha⟩ := hok
  obtain ⟨hc', d', hd', hchild, hplace⟩ :=
    negation_coincides ha negation (by simp [hpre]) rfl rfl rfl rfl
  have hspan : d'.node.placement.span = some ⟨8, 9⟩ := by
    have hfinal : (Locator.ofSource .ifNot .standard).final? name =
        some { raw := some ['x'], span := some ⟨8, 9⟩, line := some 1, column := some 7 } := by decide +kernel
    rw [(Progress.mirror_placed _).child? trivial] at hchild
    obtain rfl : a.annotation.progress.placed name = d' := Option.some.inj hchild
    rw [final?_mark ha (by simp [hpre]), Option.some.injEq] at hfinal
    rw [Progress.placement_placed, hfinal]
  exact ⟨a, ha, _, hc', d', hd', Progress.kind_placed _ _, hchild, hspan, hplace (by simp [hspan])⟩

end SyntaxSpans
