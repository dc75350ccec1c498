import SyntaxSpans.Proofs.Final

/-!
# The fault that a resolution ends in

`Locator.final?` says where a node ends up, and nothing when there is no such place. Here is what stands
in the way: `Locator.fault?` names the first fault on the way to the node's place, in the order in which
the resolver meets them, and there is one just where there is no place (`fault?_eq_none_iff`).
-/

namespace SyntaxSpans

namespace Cursor

/-- The gap at a node, with its kind and the position that was reported for it. -/
def gapFault (c : Cursor) (cause : Gap) : Fault :=
  .gap cause c.kind c.node.placement.line c.node.placement.column

/-- What is wrong with a node that comes to no text although its operands have been resolved. -/
def unplaced? (c : Cursor) : Option Fault :=
  match c.rule with
  | .own _ | .bare => none
  | .negation _ => some (c.gapFault .operandWithoutText)
  | .operator _ _ => some (c.gapFault .operandWithoutSpan)
  | .stuck =>
    some (if c.isNegatedGuard then .missingOperand "expression" else c.gapFault .noText)

end Cursor

namespace Locator

/-- The fault at the node itself, when there is none at its operands. -/
def ownFault? (l : Locator) (c : Cursor) : Option Fault :=
  match l.given? c with
  | some text => (l.settle c.role text.1 text.2).fault
  | none => c.unplaced?

mutual

/-- The first fault of the resolution of a node. -/
def fault? (l : Locator) (c : Cursor) : Option Fault :=
  match _h : c.rule with
  | .negation operand => (fault? l operand).or (l.ownFault? c)
  | .operator left right =>
    (chainFault? l c).or ((fault? l left).or ((fault? l right).or (l.ownFault? c)))
  | .own _ | .bare | .stuck => l.ownFault? c
termination_by (sizeOf c.node, 1)
decreasing_by
  all_goals
    first
      | exact Prod.Lex.right _ (by decide)
      | exact Prod.Lex.left _ _
          (Cursor.sizeOf_operand_lt (by simp [Cursor.operands, _h, Cursor.Rule.operands]))

/-- The first fault of the operators without text that a node begins with, the innermost first. -/
def chainFault? (l : Locator) (c : Cursor) : Option Fault :=
  match _h : c.child? "left" with
  | none => none
  | some left =>
    if left.node.placement.raw.isNone && (left.child? "right").isSome then
      (chainFault? l left).or (fault? l left)
    else none
termination_by (sizeOf c.node, 0)
decreasing_by
  all_goals exact Prod.Lex.left _ _ (Cursor.sizeOf_child?_lt (by assumption))

end

section
variable {l : Locator} {c : Cursor}

theorem fault?_negation {d : Cursor} (h : c.rule = .negation d) :
    l.fault? c = (l.fault? d).or (l.ownFault? c) := by
  rw [fault?]
  split <;> simp_all

theorem fault?_operator {left right : Cursor} (h : c.rule = .operator left right) :
    l.fault? c = (l.chainFault? c).or
      ((l.fault? left).or ((l.fault? right).or (l.ownFault? c))) := by
  rw [fault?]
  split <;> simp_all

theorem fault?_of_operands (h : c.operands = []) : l.fault? c = l.ownFault? c := by
  rw [fault?]
  split
  · next hr => rw [Cursor.operands_negation hr] at h; cases h
  · next hr => rw [Cursor.operands_operator hr] at h; cases h
  · rfl
  · rfl
  · rfl

theorem chainFault?_of_link {left : Cursor} (h : c.child? "left" = some left)
    (hraw : left.node.placement.raw = none) (hright : (left.child? "right").isSome = true) :
    l.chainFault? c = (l.chainFault? left).or (l.fault? left) := by
  rw [chainFault?]
  split
  · next hnone => rw [h] at hnone; cases hnone
  · next left' hleft =>
    obtain rfl : left = left' := Option.some.inj (h.symm.trans hleft)
    rw [hraw, hright]
    rfl

theorem chainFault?_of_end (h : ∀ left, c.child? "left" = some left →
    left.node.placement.raw ≠ none ∨ left.child? "right" = none) : l.chainFault? c = none := by
  rw [chainFault?]
  split
  · rfl
  · next left hleft => rcases h left hleft with h | h <;> simp [h, Option.isNone_iff_eq_none]

/-- **The own fault** of a node is what keeps it from its place. -/
theorem ownFault?_eq_none_iff : l.ownFault? c = none ↔ l.final? c ≠ none := by
  by_cases hbare : c.rule = .bare
  · rw [final?_bare hbare, ownFault?, given?, hbare]
    simp [Cursor.unplaced?, hbare]
  · rw [final?_of_not_bare hbare, ownFault?]
    cases hgiven : l.given? c with
    | some text =>
      rw [Option.bind_some, settled?]
      cases hfault : (l.settle c.role text.1 text.2).fault <;> simp [hfault]
    | none =>
      unfold given? at hgiven
      cases hr : c.rule with
      | own raw => rw [hr] at hgiven; cases hgiven
      | bare => exact absurd hr hbare
      | negation _ | operator _ _ | stuck => simp [Cursor.unplaced?, hr]

mutual

/-- **There is a fault just where there is no place.** -/
theorem fault?_eq_none_of_final {c : Cursor} (h : l.final? c ≠ none) : l.fault? c = none := by
  have hown := ownFault?_eq_none_iff.2 h
  cases hr : c.rule with
  | own _ | bare | stuck =>
    rw [fault?_of_operands (by rw [Cursor.operands, hr]; rfl), hown]
  | negation d =>
    have := Cursor.sizeOf_operand_lt (c := c) (d := d) (by simp [Cursor.operands_negation hr])
    have hd : l.final? d ≠ none := by
      intro hnone
      rw [final?_negation hr, hnone] at h
      exact h rfl
    rw [fault?_negation hr, fault?_eq_none_of_final hd, hown]
    rfl
  | operator left right =>
    have hl := Cursor.sizeOf_operand_lt (c := c) (d := left) (by simp [Cursor.operands_operator hr])
    have hr' := Cursor.sizeOf_operand_lt (c := c) (d := right)
      (by simp [Cursor.operands_operator hr])
    obtain ⟨hleft, hright⟩ := spanned_of_operator hr h
    have hplace : ∀ {d : Cursor}, l.Spanned d → l.final? d ≠ none := by
      rintro d ⟨q, span, hq, -⟩
      rw [hq]
      exact Option.some_ne_none q
    rw [fault?_operator hr, chainFault?_eq_none_of_spanned (spanned_left hr hleft),
      fault?_eq_none_of_final (hplace hleft), fault?_eq_none_of_final (hplace hright), hown]
    rfl
termination_by (sizeOf c.node, 1)

theorem chainFault?_eq_none_of_spanned {c : Cursor}
    (h : ∀ left, c.child? "left" = some left → l.Spanned left) : l.chainFault? c = none := by
  cases hleft : c.child? "left" with
  | none => exact chainFault?_of_end (by simp [hleft])
  | some left =>
    have hsize := Cursor.sizeOf_child?_lt hleft
    by_cases hlink : left.node.placement.raw = none ∧ (left.child? "right").isSome = true
    · have hspan := h left hleft
      have hpath : left.isIn "condition" = false := by
        rw [Cursor.isIn, Cursor.path_of_child? hleft]
        rfl
      obtain ⟨a, b, hr, ha⟩ := operator_of_spanned hlink.1 hpath hspan
      obtain ⟨q, span, hq, -⟩ := hspan
      have hfinal : l.final? left ≠ none := by rw [hq]; exact Option.some_ne_none q
      rw [chainFault?_of_link hleft hlink.1 hlink.2,
        chainFault?_eq_none_of_spanned (spanned_left hr ha), fault?_eq_none_of_final hfinal]
      rfl
    · refine chainFault?_of_end fun left' hleft' => ?_
      obtain rfl : left = left' := Option.some.inj (hleft.symm.trans hleft')
      by_cases hraw : left.node.placement.raw = none
      · exact Or.inr (Option.not_isSome_iff_eq_none.1 fun hright => hlink ⟨hraw, hright⟩)
      · exact Or.inl hraw
termination_by (sizeOf c.node, 0)

end

theorem fault?_eq_none_iff : l.fault? c = none ↔ l.final? c ≠ none := by
  refine ⟨fun h => ownFault?_eq_none_iff.1 ?_, fault?_eq_none_of_final⟩
  cases hr : c.rule with
  | own _ | bare | stuck =>
    rwa [fault?_of_operands (by rw [Cursor.operands, hr]; rfl)] at h
  | negation d =>
    rw [fault?_negation hr, Option.or_eq_none_iff] at h
    exact h.2
  | operator left right =>
    rw [fault?_operator hr] at h
    simp only [Option.or_eq_none_iff] at h
    exact h.2.2.2

end

end Locator

end SyntaxSpans
